import NoteAgent.Failure
import NoteAgent.Text.Blank
/-!
# Reply — what a language model answers

A reply is an object of the model's service, held as JSON whose records are objects and whose fields are their members.
Any member may be missing, may be null, or may be of a kind that it should not be.  Reading a reply gives a turn, which
is a text and the tools the model asks to have called, or a text alone.  A call without a function is passed over, and
what counts as nothing is the empty text.  What is of another kind than meant is kept as it is; it fails once something
is asked of it that its kind cannot do.
-/
namespace NoteAgent
namespace Model

/-! ## Objects -/

def ownerName : Json → String
  | .record _ => replyObject
  | v => v.kind.name

/-- Whether an object counts as nothing; one with members never does, though there be none. -/
def isVoid : Json → Bool
  | .record _ => false
  | v => v.isNothing

/-- A member, unless it is missing or counts as nothing. -/
def given? (v : Json) (name : String) : Option Json := (v.field? name).filter (!isVoid ·)

def need (v : Json) (name : String) : Except Failure Json :=
  match v.field? name with
  | some member => .ok member
  | none => .error (.noMember (ownerName v) name)

/-- A value, or the empty text if it counts as nothing. -/
def orEmpty (v : Json) : Json := if isVoid v then .text "" else v

/-- A member, or the empty text if it is missing or counts as nothing. -/
def memberOrEmpty (v : Json) (name : String) : Json := (given? v name).getD (.text "")

/-- The items of a value that are gone through. -/
def itemsOf : Json → Except Failure (List Json)
  | .list vs => .ok vs
  | .text s => .ok (s.toList.map fun c => .text (String.singleton c))
  | v => .error (.notIterable (ownerName v))

def firstItem (v : Json) : Except Failure Json :=
  match itemsOf v with
  | .ok (item :: _) => .ok item
  | .ok [] => .error .noSuchItem
  | .error _ => .error (.noItems (ownerName v))

/-! ## Replies -/

/-- What comes back for a request: the service may fail, the caller may break off, or an object comes. -/
inductive Reply
  | failed (text : String)
  | broken (text : String)
  | answer (object : Json)

/-- A call the model asks for.  Its id, its name and its arguments should be texts. -/
structure ToolCall where
  id : Json
  name : Json
  arguments : Json

/-- One turn of the model.  Its content should be a text. -/
structure Turn where
  content : Json
  calls : List ToolCall

/-- A reply with one choice that has this content and these calls. -/
def Reply.plain (content : Json) (calls : List Json) : Reply :=
  .answer (.record [("choices", .list [.record [("message", .record [("content", content), ("tool_calls", .list calls)])]])])

def Reply.text (s : String) : Reply := .plain (.text s) []

def Reply.message : Reply → Except Failure Json
  | .failed text => .error (.requestFailed text)
  | .broken text => .error (.broken text)
  | .answer object =>
    match given? object "choices" with
    | none => .error .undecodable
    | some choices => do need (← firstItem choices) "message"

/-- The call that the service gives, if it has a function. -/
def readCall (call : Json) : Except Failure (Option ToolCall) :=
  match given? call "function" with
  | none => .ok none
  | some function => do
    let name ← need function "name"
    let arguments ← need function "arguments"
    return some ⟨memberOrEmpty call "id", orEmpty name, orEmpty arguments⟩

/-- The calls among those that the service gives. -/
def readCalls : List Json → Except Failure (List ToolCall)
  | [] => .ok []
  | c :: cs => do return (← readCall c).toList ++ (← readCalls cs)

def callsOf (message : Json) : Except Failure (List ToolCall) :=
  match given? message "tool_calls" with
  | none => .ok []
  | some calls => do readCalls (← itemsOf calls)

/-- Content that has a length, as the content of a turn without calls must. -/
def measured : Json → Except Failure Json
  | .text s => .ok (.text s)
  | .list vs => .ok (.list vs)
  | v => .error (.noLength (ownerName v))

def turnOf (message : Json) : Except Failure Turn := do
  let content := memberOrEmpty message "content"
  match ← callsOf message with
  | [] => return ⟨← measured content, []⟩
  | calls => return ⟨content, calls⟩

def Reply.turn (r : Reply) : Except Failure Turn := do turnOf (← r.message)

/-- The text that a reply is, without the blanks around it. -/
def Reply.stripped (r : Reply) : Except Failure String := do
  match memberOrEmpty (← r.message) "content" with
  | .text s => return Text.strip s
  | v => .error (.noMember (ownerName v) "strip")

/-- Whether a failure is one of the model's service. -/
def isServiceFailure : Failure → Bool
  | .requestFailed _ | .undecodable => true
  | _ => false

end Model
end NoteAgent
