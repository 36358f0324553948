import NoteAgent.Calendar.Stamp
import NoteAgent.Note.Table
import NoteAgent.Numeral.Double
import NoteAgent.Vector.Hit
/-!
# Listing — notes as text for a model

Notes are numbered from one, each with a preview of its content and a blank line after it.  A listing of notes from the
store stops after a number of notes and says how many more there are.
-/
namespace NoteAgent
namespace Tool

/-- The characters of a note shown in a search or a query. -/
def previewLength : Nat := 400

/-- The characters of a note shown in a list by tag. -/
def tagPreviewLength : Nat := 300

/-- The preview of content that the vector service gave, which should be a text.  A list or a record that is short is
shown whole; what has no length, and what is long but no text, cannot be shown. -/
def previewJson (limit : Nat) : Json → Except Failure String
  | .text s => .ok (Text.preview s limit)
  | .list vs => if limit < vs.length then .error (.notJoined .list) else .ok (Json.inMessage (.list vs))
  | .record fs => if limit < fs.length then .error (.notKey itemRange) else .ok (Json.inMessage (.record fs))
  | v => .error (.noLength v.kind.name)

def hitLine (n : Nat) (h : Vector.Hit) : Except Failure String := do
  return "[" ++ toString n ++ "] Note " ++ h.id ++ " (score " ++ Numeral.fixed 2 h.score ++ "):\n" ++
    (← previewJson previewLength h.content) ++ "\n\n"

def hitLines (n : Nat) : List Vector.Hit → Except Failure String
  | [] => .ok ""
  | h :: hs => do return (← hitLine n h) ++ (← hitLines (n + 1) hs)

def hitListing (hs : List Vector.Hit) : Except Failure String :=
  if hs.isEmpty then .ok "No relevant notes found." else hitLines 1 hs

def queryShown : Nat := 5

def tagShown : Nat := 10

def datedLine (n : Nat) (note : Note) : Except Failure String := do
  return "[" ++ toString n ++ "] Note " ++ note.uid ++ " (Created: " ++
    (← Calendar.stampOf note.created).printMinute ++ "):\n" ++ Text.preview note.content previewLength ++ "\n\n"

/-- Notes with the minute they were created, numbered from `n`. -/
def datedLines (n : Nat) : List Note → Except Failure String
  | [] => .ok ""
  | note :: notes => do return (← datedLine n note) ++ (← datedLines (n + 1) notes)

/-- The answer to a query that found these notes. -/
def datedListing (notes : List Note) : Except Failure String := do
  if notes.isEmpty then .ok "No notes found matching those criteria."
  else
    let shown ← datedLines 1 (notes.take queryShown)
    .ok (shown ++ if queryShown < notes.length then
      "... and " ++ toString (notes.length - queryShown) ++ " more notes skipped." else "")

def plainLine (n : Nat) (note : Note) : String :=
  "[" ++ toString n ++ "] Note " ++ note.uid ++ ":\n" ++ Text.preview note.content tagPreviewLength ++ "\n\n"

def plainLines (n : Nat) : List Note → String
  | [] => ""
  | note :: notes => plainLine n note ++ plainLines (n + 1) notes

/-- The answer to a list by tag that found these notes. -/
def tagListing (tag : String) (notes : List Note) : String :=
  if notes.isEmpty then "No notes found with the tag " ++ tag ++ "."
  else plainLines 1 (notes.take tagShown) ++ if tagShown < notes.length then
    "... and " ++ toString (notes.length - tagShown) ++ " more tagged notes." else ""

end Tool
end NoteAgent
