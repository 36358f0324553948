import Mathlib.Logic.Function.Basic
import NoteAgent.Http.Perform
import NoteAgent.Machine
/-!
# Hall — requests for turns that are under way at once

Before a request for a turn stores anything of its own it takes four steps: it loads the caller's session, lists the
messages, asks the model for a summary of the old ones, and stores it.  Each step is one use of a service, and what other
requests do comes between the steps.  A request is at a stage, which holds what it has read so far; the session that the
new text is added to is the one it loaded first.
-/
namespace NoteAgent
namespace Chat

open Compaction (Policy oldCount?)

/-! ## One request -/

/-- A request for a turn: who asks, in which session, and when to compact. -/
structure Request where
  user : Int
  uid : String
  policy : Policy

/-- How far a request is. -/
inductive Stage
  | waiting
  | loaded (s : Session)
  /-- The messages are listed and there are some to fold away. -/
  | listed (s : Session) (old recent : List Message)
  | summarised (s : Session) (old recent : List Message) (text : String)
  /-- The compaction is over: messages were folded into a text, or there was nothing to fold. -/
  | over (folded : Option (List Message × String))
  | failed
  deriving DecidableEq

def listing (session : Int) : Attempt World (List Message) := do World.needList (← World.messagesOf session)

namespace Stage

/-- The next step of a request.  After the last one nothing is left to do. -/
def next (q : Request) : Stage → Attempt World Stage
  | .waiting => do return .loaded (← Http.ownSession q.user q.uid)
  | .loaded s => do
    let messages ← listing s.id
    match oldCount? q.policy messages with
    | none => return .over none
    | some n => return .listed s (messages.take n) (messages.drop n)
  | .listed s old recent => do return .summarised s old recent (← Compaction.summarise old)
  | .summarised s old recent text => do
    match (← Compaction.store s old recent text).2 with
    | some _ => return .over (some (old, text))
    | none => return .failed
  | .over folded => .done (.over folded)
  | .failed => .done .failed

/-- The stage after a step: a step that breaks off ends the request. -/
def reached : Except Failure Stage → Stage
  | .ok st => st
  | .error _ => .failed

def advance (q : Request) (st : Stage) (w : World) : Stage × World := (reached (st.next q w).1, (st.next q w).2)

end Stage

namespace Request

def step (q : Request) (p : Stage × World) : Stage × World := p.1.advance q p.2

/-- Where a request is, and the world, once it has taken its steps without a break. -/
def alone (q : Request) (w : World) : Stage × World := q.step (q.step (q.step (q.step (.waiting, w))))

/-- What a turn begins with: the session is loaded, its messages are listed and compacted. -/
def begun (q : Request) : Attempt World (List Message × Option Session) := do
  let s ← Http.ownSession q.user q.uid
  Compaction.fold q.policy s (← listing s.id)

end Request

/-! ## Any number of them -/

/-- The world, and how far each request is. -/
structure Hall where
  world : World
  stages : Nat → Stage

/-- What can happen: a request takes its next step, a message is stored in a session, time goes by. -/
inductive Happening
  | step (i : Nat)
  | post (session : Int) (role content toolName : String)
  | wait (clock : Int)

namespace Hall

/-- What comes of a happening, the requests being `qs`. -/
def after (qs : Nat → Request) (h : Hall) : Happening → Hall
  | .step i => ⟨((h.stages i).advance (qs i) h.world).2, Function.update h.stages i ((h.stages i).advance (qs i) h.world).1⟩
  | .post session role content toolName =>
    { h with world := (World.addMessage session role content toolName h.world).2 }
  | .wait clock => { h with world := { h.world with clock := clock } }

/-- Requests none of which has taken a step yet. -/
def machine (qs : Nat → Request) (w : World) : Machine Hall Happening := ⟨⟨w, fun _ => .waiting⟩, after qs⟩

@[simp] theorem machine_after (qs : Nat → Request) (w : World) : (machine qs w).after = after qs := rfl

abbrev alike (q : Request) (w : World) : Machine Hall Happening := machine (fun _ => q) w

end Hall
end Chat
end NoteAgent
