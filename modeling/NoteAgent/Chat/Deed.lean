import NoteAgent.Http.Perform
import NoteAgent.Machine
/-!
# Deed — requests in one session, one after another

A request is answered before the next one comes, and a turn is over with its job.  It is a turn that somebody asks for, or a
request for another title.
-/
namespace NoteAgent
namespace Chat

/-- A turn that somebody asks for: when, how it is run, for whom, and with what message, one that can be stored. -/
structure Order where
  clock : Int
  settings : Turn.Settings
  who : Tool.Caller
  text : String

/-- A request in a session at a time: a turn, or a user's request for another title. -/
inductive Deed
  | turn (o : Order)
  | rename (clock user : Int) (title : LooseText)

namespace Deed

/-- The world once a request in the session with a uid was answered, with the job of a turn. -/
def after (uid : String) (w : World) : Deed → World
  | turn o => (Http.visit o.settings o.who uid o.text { w with clock := o.clock }).2
  | rename clock user title => (Http.retitle user uid title { w with clock := clock }).2

def machine (uid : String) (w : World) : Machine World Deed := ⟨w, after uid⟩

end Deed
end Chat
end NoteAgent
