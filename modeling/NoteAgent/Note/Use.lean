import NoteAgent.World.Notes
/-!
# Use — uses of the note store

A use adds a note, gives one new content or removes one, with whatever arguments, or lets a while go by.  What uses have
done is kept as a list of deeds, in the order they were done.
-/
namespace NoteAgent
namespace Note

/-- A thing that was done to the notes. -/
inductive Deed
  | added (n : Note)
  | replaced (uid content : String) (now : Int)
  | removed (uid : String)
  deriving DecidableEq, Repr

/-- What was done; a use that breaks off has done nothing. -/
def done : Except Failure (Option Deed) → List Deed
  | .ok d => d.toList
  | .error _ => []

/-- A use of the note store that can change it, or a while in which the clock and the ids go on. -/
inductive Use
  | add (owner : Int) (content : String) (created : Option Int) (status : String)
  | replace (uid content : String)
  | remove (uid : String)
  | elapse (clock : Int) (nextId : Nat)

namespace Use

/-- A use of the store, which answers what it has done. -/
def perform : Use → Attempt World (Option Deed)
  | add owner content created status => Option.map Deed.added <$> World.addNote owner content created status
  | replace uid content => do
    let now ← .look (·.clock)
    Option.map (fun _ => Deed.replaced uid content now) <$> World.replaceContent uid content
  | remove uid => Option.map (fun _ => Deed.removed uid) <$> World.removeNote uid
  | elapse clock nextId => (fun _ => none) <$> Attempt.change fun w => { w with clock := clock, nextId := nextId }

def follow (state : World × List Deed) (u : Use) : World × List Deed :=
  ((u.perform state.1).2, state.2 ++ done (u.perform state.1).1)

end Use

/-- The world and the deeds after uses, from a world on. -/
def afterUses (w : World) (uses : List Use) : World × List Deed := uses.foldl Use.follow (w, [])

end Note
end NoteAgent
