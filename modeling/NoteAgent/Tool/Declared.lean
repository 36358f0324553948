import NoteAgent.Tool.Arguments
/-!
# Declared — the tools and what a model is told of them

There are nine tools.  Each has a name, a description, and a schema of its parameters that says which of them must be
given; the schema is for the model, and what a call gives is not checked against it.
-/
namespace NoteAgent

/-- The tools. -/
inductive Tool
  | searchNotes
  | queryNotes
  | createNote
  | appendToNote
  | updateNote
  | updateNoteTags
  | deleteNote
  | userStats
  | notesByTag
  deriving DecidableEq, Repr

namespace Tool

/-- All tools, in the order they are declared. -/
def all : List Tool :=
  [.searchNotes, .queryNotes, .createNote, .appendToNote, .updateNote, .updateNoteTags, .deleteNote, .userStats,
    .notesByTag]

def name : Tool → String
  | .searchNotes => "search_notes"
  | .queryNotes => "query_notes"
  | .createNote => "create_note"
  | .appendToNote => "append_to_note"
  | .updateNote => "update_note"
  | .updateNoteTags => "update_note_tags"
  | .deleteNote => "delete_note"
  | .userStats => "get_user_stats"
  | .notesByTag => "list_notes_by_tag"

def named? (name : String) : Option Tool := all.find? (·.name == name)

def description : Tool → String
  | .searchNotes =>
    "Search the user's notes semantically for a concept or topic. Use for general/conceptual questions."
  | .queryNotes =>
    "Search the user's notes by exact date range or keyword. ALWAYS use this for date-specific " ++
      "questions like 'what did I post on Jan 26'."
  | .createNote => "Create a new note for the user."
  | .appendToNote => "Append text to an existing note without overwriting it."
  | .updateNote => "Fully rewrite the content of an existing note."
  | .updateNoteTags => "Add hashtags to an existing note."
  | .deleteNote => "Permanently delete a note."
  | .userStats => "Get note statistics (total count, etc). No parameters needed."
  | .notesByTag => "List all notes tagged with a specific hashtag."

def textParameter (description : String) : Json :=
  .record [("type", .text "string"), ("description", .text description)]

/-- The schemas of a tool's parameters, by name. -/
def properties : Tool → List (String × Json)
  | .searchNotes => [("query", textParameter "The search query")]
  | .queryNotes =>
    [("text_search", textParameter "Exact keyword to search (optional)"),
      ("date_start", textParameter "Start date in YYYY-MM-DD (optional)"),
      ("date_end", textParameter "End date in YYYY-MM-DD (optional)")]
  | .createNote => [("content", textParameter "The content of the new note")]
  | .appendToNote => [("uid", textParameter "Note UID"), ("content", textParameter "Text to append")]
  | .updateNote => [("uid", textParameter "Note UID"), ("content", textParameter "New content")]
  | .updateNoteTags =>
    [("uid", textParameter "Note UID"),
      ("new_tags", .record [("type", .text "array"), ("items", .record [("type", .text "string")]),
        ("description", .text "Tags to add, e.g. ['#dev','#work']")])]
  | .deleteNote => [("uid", textParameter "Note UID")]
  | .userStats => []
  | .notesByTag => [("tag", textParameter "Tag including hash, e.g. '#work'")]

/-- The parameters that a model is told to give. -/
def required : Tool → List String
  | .searchNotes => ["query"]
  | .queryNotes => []
  | .createNote => ["content"]
  | .appendToNote => ["uid", "content"]
  | .updateNote => ["uid", "content"]
  | .updateNoteTags => ["uid", "new_tags"]
  | .deleteNote => ["uid"]
  | .userStats => []
  | .notesByTag => ["tag"]

/-- The schema of an object with these properties. -/
def objectSchema (properties : Json) (required : Json) : Json :=
  .record [("type", .text "object"), ("properties", properties), ("required", required)]

/-- A declaration as a model's service takes it. -/
def declaration (name description properties required : Json) : Json :=
  .record [("type", .text "function"),
    ("function", .record [("name", name), ("description", description),
      ("parameters", objectSchema properties required)])]

def parameters (t : Tool) : Json := objectSchema (.record t.properties) (.list (t.required.map .text))

def declared (t : Tool) : Json :=
  declaration (.text t.name) (.text t.description) (.record t.properties) (.list (t.required.map .text))

/-- A tool as it is listed for callers other than a model. -/
def listed (t : Tool) : Json :=
  .record [("name", .text t.name), ("description", .text t.description), ("input_schema", t.parameters)]

end Tool
end NoteAgent
