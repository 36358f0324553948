import NoteAgent.Calendar.Reading
import NoteAgent.Note.Indexing
import NoteAgent.Tool.Declared
import NoteAgent.Tool.Listing
/-!
# Dispatch — running a tool

A tool runs for one user and touches that user's notes only.  Its answer is a text for the model: bad arguments, a
missing note, a note of somebody else and a store that breaks off are all told in words.  A note that is changed is
written to the index too, and a failure of the index is passed over.  Each tool is a sequence of uses of the stores and
the index; what lies between two of them is pure.
-/
namespace NoteAgent
namespace Tool

open World (need)

/-- The answer to arguments that cannot be read. -/
def unreadable : String := "Error: failed to parse input JSON."

/-- The answer for a note that is not there. -/
def notFound : String := "Error: note not found."

/-- The answer for a note of somebody else. -/
def foreign : String := "Error: unauthorized to modify this note."

namespace Caller

/-- The note with a uid; no note has the empty one. -/
def lookUp (uid : String) : Attempt World (Option Note) := if uid.isEmpty then .done none else World.findNote uid

/-- The note that was found, should it be the user's own, or the answer that there is none. -/
def claim (c : Caller) : Option Note → Except String Note
  | none => .error notFound
  | some note => if note.owner == c.user then .ok note else .error foreign

/-- The user's own note with a uid, or the answer that there is none. -/
def ownNote (c : Caller) (uid : String) : Attempt World (Except String Note) := do return c.claim (← lookUp uid)

/-! ## The tools -/

def searchNotes (c : Caller) (args : Arguments) : Attempt World String := do
  let query := Text.strip (text args "query")
  if query.isEmpty then return "Error: query is required."
  .ofExcept (hitListing (← World.indexed (Vector.Index.search c.user query c.topK (some (Json.nearestText c.tag)))))

/-- The notes that a query asks for: those that hold the text, from the first day on, and to the end of the last.  A day
that cannot be read bounds nothing. -/
def queryFilter (args : Arguments) : Except Failure Note.Filter := do
  let search := text args "text_search"
  let upTo ← match Calendar.readDay (text args "date_end") with
    | none => pure none
    | some day => if day < Calendar.lastDay then pure (some ((day + 1) * Calendar.daySeconds)) else .error .dayTooLate
  return {
    contains := if search.isEmpty then none else some search
    createdFrom := Calendar.readDayStart (text args "date_start")
    createdTo := upTo }

def queryNotes (c : Caller) (args : Arguments) : Attempt World String := do
  let filter ← .ofExcept (queryFilter args)
  .ofExcept (datedListing ((← World.notesOf c.user filter).getD []))

def createNote (c : Caller) (args : Arguments) : Attempt World String := do
  match ← (World.addNote c.user (text args "content") none Note.normal).settle with
  | .error e => return "Error creating note: " ++ e.message
  | .ok made =>
    let note ← need "uid" made
    c.index note.uid note.content
    return "Note successfully created with UID: " ++ note.uid

/-- Gives the user's own note new content, made from the content it had. -/
def changeNote (c : Caller) (args : Arguments) (change : String → String) (failed success : String) :
    Attempt World String := do
  match ← c.ownNote (text args "uid") with
  | .error answer => return answer
  | .ok note =>
    let content := change note.content
    match ← (World.replaceContent note.uid content).settle with
    | .error e => return failed ++ e.message
    | .ok _ =>
      c.index note.uid content
      return success

def appendToNote (c : Caller) (args : Arguments) : Attempt World String :=
  c.changeNote args (Text.joinByBlankLine · (text args "content")) "Error appending to note: "
    "Content successfully appended to note."

def updateNote (c : Caller) (args : Arguments) : Attempt World String :=
  c.changeNote args (fun _ => text args "content") "Error: " "Note successfully updated."

/-- Appends tags to a note, also those it has already. -/
def updateNoteTags (c : Caller) (args : Arguments) : Attempt World String :=
  c.changeNote args (Text.joinByBlankLine · (" ".intercalate (texts args "new_tags"))) "Error appending tags: "
    "Tags successfully added to the note body."

def deleteNote (c : Caller) (args : Arguments) : Attempt World String := do
  match ← c.ownNote (text args "uid") with
  | .error answer => return answer
  | .ok note =>
    match ← (World.removeNote note.uid).settle with
    | .error e => return "Error deleting note: " ++ e.message
    | .ok _ =>
      c.forget note.uid
      return "Note successfully and permanently deleted."

def userStats (c : Caller) : Attempt World String := do
  match ← (World.noteCount c.user Note.normal).settle with
  | .error e => return "Error retrieving stats: " ++ e.message
  | .ok total => return "User Statistics:\nTotal Active Notes: " ++ (total.map toString).getD (Json.shown .null)

def notesByTag (c : Caller) (args : Arguments) : Attempt World String := do
  let tag := text args "tag"
  if tag.isEmpty then return "Error: tag is required."
  match ← (World.notesOf c.user { contains := some tag }).settle with
  | .error e => return "Error searching tags: " ++ e.message
  | .ok found => return tagListing tag (found.getD [])

end Caller

/-! ## Running a tool -/

/-- The arguments that a tool takes; a tool without a form does not look at them. -/
def form? : Tool → Option Form
  | .searchNotes => some .query
  | .queryNotes => some .queryNotes
  | .createNote => some .content
  | .appendToNote | .updateNote => some .uidContent
  | .updateNoteTags => some .uidTags
  | .deleteNote => some .uid
  | .userStats => none
  | .notesByTag => some .tag

def perform (c : Caller) (args : Arguments) : Tool → Attempt World String
  | .searchNotes => c.searchNotes args
  | .queryNotes => c.queryNotes args
  | .createNote => c.createNote args
  | .appendToNote => c.appendToNote args
  | .updateNote => c.updateNote args
  | .updateNoteTags => c.updateNoteTags args
  | .deleteNote => c.deleteNote args
  | .userStats => c.userStats
  | .notesByTag => c.notesByTag args

/-- Runs a tool on the arguments that a model wrote. -/
def execute (c : Caller) (t : Tool) (raw : String) : Attempt World String :=
  if t == .searchNotes && !c.indexed then .done "Vector store not available."
  else match t.form? with
    | none => t.perform c []
    | some form =>
      match form.read raw with
      | none => .done unreadable
      | some args => t.perform c args

/-- The answer to a call under a name, of the tool that was found there if one was.  There is always an answer, and it
never breaks off. -/
def answerTo (name : String) (found : Option (Attempt World String)) : Attempt World String := do
  match found with
  | none => return "Unknown tool: " ++ name
  | some t =>
    match ← t.settle with
    | .ok answer => return answer
    | .error e => return "Error: " ++ e.message

/-- Runs the tool of a name. -/
def run (c : Caller) (name raw : String) : Attempt World String := answerTo name ((named? name).map fun t => t.execute c raw)

end Tool
end NoteAgent
