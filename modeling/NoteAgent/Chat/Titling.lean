import Mathlib.Logic.Function.Basic
import NoteAgent.Chat.Hall
import NoteAgent.Chat.Use
/-!
# Titling — how a session comes by its title, step by step

A turn that finds the session without messages and under the default title leaves a job behind.  The job asks the model
for a title and stores it.  The owner's request for another title loads the session and then stores the title.  Each of
these steps is one use of a service, and anything may come between them.
-/
namespace NoteAgent
namespace Chat

/-! ## A turn and its job -/

/-- How far a turn is with the title of its session. -/
inductive Naming
  | waiting
  | loaded (s : Session)
  /-- The turn has left a job behind. -/
  | left (job : Job)
  /-- The model has given the job a title. -/
  | replied (job : Job) (title : String)
  | over
  deriving DecidableEq

namespace Naming

/-- The next step of a turn that a user wants in the session with a uid, or of the job that it has left behind. -/
def next (user : Int) (uid : String) (text : LooseText) : Naming → Attempt World Naming
  | .waiting => do return .loaded (← Http.ownSession user uid)
  | .loaded s => do
    match Turn.job? s (← listing s.id) text with
    | some job => return .left job
    | none => return .over
  | .left job => do
    match ← Title.ask job.message with
    | some title => return .replied job title
    | none => return .over
  | .replied job title => do
    (World.reviseSession job.session (some title) none).ignore
    return .over
  | .over => .done .over

/-- The stage after a step: one that breaks off is the last. -/
def reached : Except Failure Naming → Naming
  | .ok st => st
  | .error _ => .over

def advance (user : Int) (uid : String) (text : LooseText) (st : Naming) (w : World) : Naming × World :=
  (reached (st.next user uid text w).1, (st.next user uid text w).2)

end Naming

/-! ## A request for another title -/

/-- How far a request for another title is. -/
inductive Renaming
  | waiting
  /-- The session is the user's. -/
  | owned
  | renamed (title : String)
  | failed
  deriving DecidableEq

namespace Renaming

def wanted (title : LooseText) : Except Failure String := do Http.nonBlank (← Http.storable title) "title"

/-- The next step of a user's request for a title for the session with a uid. -/
def next (user : Int) (uid : String) (title : LooseText) : Renaming → Attempt World Renaming
  | .waiting => do
    let _ ← Http.ownSession user uid
    return .owned
  | .owned => do
    let title ← .ofExcept (wanted title)
    let updated ← World.reviseSession uid (some title) none
    let _ ← World.need "uid" updated
    return .renamed title
  | .renamed title => .done (.renamed title)
  | .failed => .done .failed

def reached : Except Failure Renaming → Renaming
  | .ok st => st
  | .error _ => .failed

def advance (user : Int) (uid : String) (title : LooseText) (st : Renaming) (w : World) : Renaming × World :=
  (reached (st.next user uid title w).1, (st.next user uid title w).2)

end Renaming

/-! ## All of them at once -/

namespace Titling

/-- A session, and what is asked for in it: the turns with their texts and the other titles, each by a user. -/
structure Requests where
  uid : String
  turn : Nat → Int × LooseText
  title : Nat → Int × LooseText

/-- The world, and how far each turn with its job and each request for a title is. -/
structure Scene where
  world : World
  turns : Nat → Naming
  renames : Nat → Renaming

/-- What can happen: the next step of a turn or of its job, the next step of a request for a title, another use of the
store. -/
inductive Happening
  | turn (i : Nat)
  | rename (j : Nat)
  | use (u : Use)

def after (q : Requests) (p : Scene) : Happening → Scene
  | .turn i =>
    let step := (p.turns i).advance (q.turn i).1 q.uid (q.turn i).2 p.world
    { p with world := step.2, turns := Function.update p.turns i step.1 }
  | .rename j =>
    let step := (p.renames j).advance (q.title j).1 q.uid (q.title j).2 p.world
    { p with world := step.2, renames := Function.update p.renames j step.1 }
  | .use u => { p with world := (u.perform p.world).2 }

/-- Turns and requests none of which has taken a step yet. -/
def machine (q : Requests) (w : World) : Machine Scene Happening :=
  ⟨⟨w, fun _ => .waiting, fun _ => .waiting⟩, after q⟩

end Titling
end Chat
end NoteAgent
