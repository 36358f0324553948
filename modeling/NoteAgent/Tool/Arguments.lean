import NoteAgent.Json.Reader
/-!
# Arguments — the arguments of a tool

A model writes the arguments of a call as JSON text.  Each tool declares the arguments it takes, each a text or a list of
texts.  An argument left out is empty; one of another kind spoils the whole; what is not declared is passed over.
-/
namespace NoteAgent
namespace Tool

/-- What an argument holds. -/
inductive ArgumentKind
  | text
  | texts
  deriving DecidableEq, Repr

abbrev Form := List (String × ArgumentKind)

/-- An argument. -/
inductive Argument
  | text (s : String)
  | texts (ss : List String)
  deriving DecidableEq, Repr

/-- The argument of a kind that was left out. -/
def ArgumentKind.empty : ArgumentKind → Argument
  | .text => .text ""
  | .texts => .texts []

def textOf? : Json → Option String
  | .text s => some s
  | _ => none

def ArgumentKind.ofJson? : ArgumentKind → Json → Option Argument
  | .text, v => (textOf? v).map .text
  | .texts, .list vs => (vs.mapM textOf?).map .texts
  | .texts, _ => none

/-- The argument of a kind among the fields of a record. -/
def ArgumentKind.find? (kind : ArgumentKind) (name : String) (fields : List (String × Json)) : Option Argument :=
  match Json.lookup name fields with
  | none => some kind.empty
  | some v => kind.ofJson? v

abbrev Arguments := List (String × Argument)

/-- The arguments of a form among the fields of a record. -/
def Form.ofFields? (form : Form) (fields : List (String × Json)) : Option Arguments :=
  List.mapM (fun (name, kind) => (kind.find? name fields).map fun a => (name, a)) form

/-- The arguments of a form that a value holds. -/
def Form.ofJson? (form : Form) : Json → Option Arguments
  | .record fields => form.ofFields? fields
  | _ => none

/-- The arguments of a form that a text writes; the empty text writes none. -/
def Form.read (form : Form) (raw : String) : Option Arguments :=
  if raw.isEmpty then form.ofFields? []
  else (Json.readArguments raw).bind form.ofJson?

def text (args : Arguments) (name : String) : String :=
  match Json.lookup name args with
  | some (.text s) => s
  | _ => ""

def texts (args : Arguments) (name : String) : List String :=
  match Json.lookup name args with
  | some (.texts ss) => ss
  | _ => []

/-! ## The forms in use -/

namespace Form

def query : Form := [("query", .text)]
def queryNotes : Form := [("text_search", .text), ("date_start", .text), ("date_end", .text)]
def content : Form := [("content", .text)]
def uid : Form := [("uid", .text)]
def uidContent : Form := [("uid", .text), ("content", .text)]
def uidTags : Form := [("uid", .text), ("new_tags", .texts)]
def tag : Form := [("tag", .text)]

end Form

end Tool
end NoteAgent
