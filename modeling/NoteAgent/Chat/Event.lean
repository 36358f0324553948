import NoteAgent.Failure
import NoteAgent.Json.Writer
import NoteAgent.Text.Cut
/-!
# Event — the progress of a chat turn, as a stream of frames

An event has a kind, and may have a content and a payload.  It goes out as one frame: `data: `, the event as JSON without
what it lacks, and a blank line.  JSON text holds no line break, so the blank line ends the frame.  An event whose payload
stands too high is not sent.
-/
namespace NoteAgent
namespace Chat

/-- The kinds of events. -/
inductive Event.Kind
  | toolCall
  | source
  | token
  | error
  | done
  deriving DecidableEq, Repr

def Event.Kind.name : Event.Kind → String
  | .toolCall => "tool_call"
  | .source => "source"
  | .token => "token"
  | .error => "error"
  | .done => "done"

def Event.Kind.named? (name : String) : Option Event.Kind :=
  [Event.Kind.toolCall, .source, .token, .error, .done].find? (·.name == name)

/-- One event. -/
structure Event where
  kind : Event.Kind
  content : Option String
  payload : Option (List (String × Json))

namespace Event

def toolCall (name arguments : Json) : Event := ⟨.toolCall, none, some [("name", name), ("input", arguments)]⟩

/-- The characters of a document shown as a source. -/
def snippetLength : Nat := 200

/-- A document that the answer may rest on, with the beginning of its content. -/
def source (uid : String) (snippet : Json) : Event :=
  ⟨.source, none, some [("note_uid", .text uid), ("snippet", snippet)]⟩

def sourceOfText (uid content : String) : Event := source uid (.text (Text.cut snippetLength content))

def token (text : String) : Event := ⟨.token, some text, none⟩

def error (message : String) : Event := ⟨.error, some message, none⟩

def done (session : String) : Event := ⟨.done, some session, none⟩

/-- The event with these members, if they are an event's; other members are passed over. -/
def ofMembers? (members : List (String × Json)) : Option Event := do
  let kind ← match ← Json.lookup "type" members with
    | .text name => Kind.named? name
    | _ => none
  let content ← match Json.lookup "content" members with
    | none | some .null => some none
    | some (.text s) => some (some s)
    | _ => none
  let payload ← match Json.lookup "payload" members with
    | none | some .null => some none
    | some (.record fields) => some (some fields)
    | _ => none
  return ⟨kind, content, payload⟩

/-- The members of an event, without those that it lacks. -/
def members (e : Event) : List (String × Json) :=
  [("type", .text e.kind.name)] ++ (e.content.map fun s => ("content", .text s)).toList ++
    (e.payload.map fun fields => ("payload", .record fields)).toList

def frameOpening : String := "data: "

def frame (e : Event) : String := frameOpening ++ Json.write .frame (.record e.members) ++ "\n\n"

/-- The most values that may stand one inside another in a value of a payload. -/
def maxHeight : Nat := 255

def sent (e : Event) : Except Failure String :=
  if maxHeight < Json.Value.heightOfFields (e.payload.getD []) then .error .tooHigh else .ok e.frame

/-- The frames of a stream, up to the first event that cannot be sent. -/
def frames : List Event → List String
  | [] => []
  | e :: es =>
    match e.sent with
    | .ok frame => frame :: frames es
    | .error _ => []

end Event
end Chat
end NoteAgent
