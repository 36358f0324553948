import Mathlib.Logic.Function.Basic
import NoteAgent.Machine
import NoteAgent.Tool.Dispatch
/-!
# Edit — a tool that changes a note, step by step

A tool that changes a note takes three steps: it reads the note, it stores the new content or deletes the note, and it
tells the index.  Each step is one use of the note store or of the index, and what other tools do comes between the steps.
The new content is made from the note as it was read, and the index is told what this tool has stored, whatever has been
stored since.
-/
namespace NoteAgent
namespace Tool

/-- Tells the index the content of a note, or that it is deleted. -/
def Caller.tell (c : Caller) (uid : String) : Option String → Attempt World Unit
  | some content => c.index uid content
  | none => c.forget uid

/-! ## One call -/

/-- What a tool does to a note that is there. -/
inductive Edit
  | append (text : String)
  | rewrite (content : String)
  | addTags (tags : List String)
  | delete
  deriving DecidableEq, Repr

namespace Edit

/-- The change that a tool makes with its arguments, if it changes a note that is there. -/
def of? (args : Arguments) : Tool → Option Edit
  | .appendToNote => some (.append (text args "content"))
  | .updateNote => some (.rewrite (text args "content"))
  | .updateNoteTags => some (.addTags (texts args "new_tags"))
  | .deleteNote => some .delete
  | _ => none

def added? : Edit → Option String
  | .append text => some text
  | .addTags tags => some (" ".intercalate tags)
  | .rewrite _ | .delete => none

/-- What becomes of the content of a note; nothing, if the note is deleted. -/
def result? (e : Edit) (old : String) : Option String :=
  match e with
  | .append text => some (Text.joinByBlankLine old text)
  | .rewrite content => some content
  | .addTags tags => some (Text.joinByBlankLine old (" ".intercalate tags))
  | .delete => none

/-- What is answered, before the cause, when the store breaks off. -/
def failed : Edit → String
  | .append _ => "Error appending to note: "
  | .rewrite _ => "Error: "
  | .addTags _ => "Error appending tags: "
  | .delete => "Error deleting note: "

def success : Edit → String
  | .append _ => "Content successfully appended to note."
  | .rewrite _ => "Note successfully updated."
  | .addTags _ => "Tags successfully added to the note body."
  | .delete => "Note successfully and permanently deleted."

/-- Stores the content that is made from a note as it was read, or deletes the note. -/
def store (e : Edit) (note : Note) : Attempt World (Option Unit) :=
  match e.result? note.content with
  | some content => World.replaceContent note.uid content
  | none => World.removeNote note.uid

end Edit

/-- A call that changes a note: for whom, which note, and what is done to it. -/
structure EditCall where
  caller : Caller
  uid : String
  edit : Edit

namespace EditCall

/-- The call that a model's words come to, if they change a note that is there. -/
def of? (c : Caller) (name raw : String) : Option EditCall := do
  let t ← named? name
  let args ← (← t.form?).read raw
  return ⟨c, text args "uid", ← Edit.of? args t⟩

/-- How far a call is. -/
inductive Stage
  | called
  /-- The note is read. -/
  | holding (note : Note)
  /-- The note has this content now, or is deleted, and the index is yet to be told. -/
  | stored (uid : String) (content : Option String)
  | finished
  | refused (answer : String)
  deriving DecidableEq

namespace Stage

/-- The next step of a call.  After the last one nothing is left to do. -/
def next (q : EditCall) : Stage → Attempt World Stage
  | .called => do
    match ← q.caller.ownNote q.uid with
    | .error answer => return .refused answer
    | .ok note => return .holding note
  | .holding note => do
    match ← (q.edit.store note).settle with
    | .error e => return .refused (q.edit.failed ++ e.message)
    | .ok _ => return .stored note.uid (q.edit.result? note.content)
  | .stored uid content => do
    q.caller.tell uid content
    return .finished
  | .finished => .done .finished
  | .refused answer => .done (.refused answer)

def reached : Except Failure Stage → Stage
  | .ok st => st
  | .error e => .refused ("Error: " ++ e.message)

def advance (q : EditCall) (st : Stage) (w : World) : Stage × World := (reached (st.next q w).1, (st.next q w).2)

def answer? (e : Edit) : Stage → Option String
  | .finished => some e.success
  | .refused answer => some answer
  | _ => none

def changed : Stage → Bool
  | .stored .. | .finished => true
  | _ => false

/-- Whether the index is yet to be told. -/
def pending : Stage → Bool
  | .stored .. => true
  | _ => false

/-- Whether nothing is left to do. -/
def ended : Stage → Bool
  | .finished | .refused _ => true
  | _ => false

end Stage

def step (q : EditCall) (p : Stage × World) : Stage × World := p.1.advance q p.2

/-- Where a call is, and the world, once it has taken its steps without a break. -/
def alone (q : EditCall) (w : World) : Stage × World := q.step (q.step (q.step (.called, w)))

end EditCall

/-! ## Two of them -/

open EditCall (Stage)

/-- The world, and how far each of two calls is. -/
structure Pair where
  world : World
  stages : Bool → Stage

/-- What can happen: a call takes its next step, time goes by. -/
inductive Happening
  | step (i : Bool)
  | wait (clock : Int)

namespace Pair

/-- What comes of a happening, the calls being `qs`. -/
def after (qs : Bool → EditCall) (p : Pair) : Happening → Pair
  | .step i => ⟨((p.stages i).advance (qs i) p.world).2, Function.update p.stages i ((p.stages i).advance (qs i) p.world).1⟩
  | .wait clock => { p with world := { p.world with clock := clock } }

/-- Two calls neither of which has taken a step yet. -/
def machine (qs : Bool → EditCall) (w : World) : Machine Pair Happening := ⟨⟨w, fun _ => .called⟩, after qs⟩

@[simp] theorem machine_after (qs : Bool → EditCall) (w : World) : (machine qs w).after = after qs := rfl

end Pair
end Tool
end NoteAgent
