import NoteAgent.Http.WholeText
import NoteAgent.Json.Reader
/-!
# Schema — the bodies of requests and answers

A body is a record with declared fields, each found under one of several keys, of which the first that is there counts.
A field that may be left out has a default.  A whole number is taken from a whole number, from a truth value, from a
real number without fraction, or from a text that writes one.  What is not declared is passed over.
-/
namespace NoteAgent
namespace Http

/-- What is wrong with a body. -/
inductive Problem.Kind
  | notJson
  | missing
  | notRecord
  | notMap
  | notText
  | notWhole
  deriving DecidableEq, Repr

def Problem.Kind.name : Problem.Kind → String
  | .notJson => "json_invalid"
  | .missing => "missing"
  | .notRecord => "model_attributes_type"
  | .notMap => "dict_type"
  | .notText => "string_type"
  | .notWhole => "int_type"

/-- What is wrong with a body, and where: the key of the field, if it is a field, and whether what was given can be
printed. -/
structure Problem where
  kind : Problem.Kind
  field : Option String
  printable : Bool
  deriving DecidableEq, Repr

/-- What a field holds. -/
inductive FieldKind
  | text
  | textOrNull
  | whole
  deriving DecidableEq, Repr

/-- A declared field: its name, the keys it is found under, what it holds, and its default. -/
structure Field where
  name : String
  keys : List String
  kind : FieldKind
  fallback : Option LooseJson

abbrev Schema := List Field

namespace Field

def optional (name : String) (keys : List String) : Field := ⟨name, keys, .text, some (.text [])⟩

def required (name : String) (kind : FieldKind) : Field := ⟨name, [name], kind, none⟩

end Field

/-! ## Whole numbers -/

/-- The whole number that a value is taken for. -/
def whole? : LooseJson → Option Int
  | .int n => some n
  | .bool b => some (if b then 1 else 0)
  | .real x =>
    if x.floor == x && -9223372036854775808.0 < x && x < 9223372036854775808.0 then Numeral.truncate? x else none
  | .text ps => (Json.text? ps).bind wholeOfText?
  | _ => none

/-! ## Fields -/

/-- The value that a field of a kind takes from what was given. -/
def FieldKind.take : FieldKind → LooseJson → Except Problem.Kind LooseJson
  | .text, .text ps => .ok (.text ps)
  | .text, _ => .error .notText
  | .textOrNull, .text ps => .ok (.text ps)
  | .textOrNull, .null => .ok .null
  | .textOrNull, _ => .error .notText
  | .whole, v =>
    match whole? v with
    | some n => .ok (.int n)
    | none => .error .notWhole

/-- The first of several keys that is there, with its value. -/
def firstOf (fields : List (List Json.Piece × LooseJson)) : List String → Option (String × LooseJson)
  | [] => none
  | key :: keys =>
    match Json.lookup (Json.pieces key) fields with
    | some v => some (key, v)
    | none => firstOf fields keys

def Field.read (f : Field) (fields : List (List Json.Piece × LooseJson)) : Except Problem LooseJson :=
  match firstOf fields f.keys, f.fallback with
  | some (key, v), _ => (f.kind.take v).mapError fun k => ⟨k, some key, v.isPrintable⟩
  | none, some v => .ok v
  | none, none => .error ⟨.missing, some f.name, Json.Value.fieldsArePrintable fields⟩

/-- The values of all fields by name, or all that is wrong. -/
def Schema.readFields (fields : List (List Json.Piece × LooseJson)) :
    Schema → Except (List Problem) (List (String × LooseJson))
  | [] => .ok []
  | f :: fs =>
    match f.read fields, Schema.readFields fields fs with
    | .ok v, .ok vs => .ok ((f.name, v) :: vs)
    | .ok _, .error ps => .error ps
    | .error p, .ok _ => .error [p]
    | .error p, .error ps => .error (p :: ps)

def Schema.read (schema : Schema) : LooseJson → Except (List Problem) (List (String × LooseJson))
  | .record fields => schema.readFields fields
  | v => .error [⟨.notRecord, none, v.isPrintable⟩]

/-- The values of all fields that a text writes, in plain text. -/
def Schema.ofText? (schema : Schema) (raw : String) : Option (List (String × Json)) := do
  let v ← Json.readArguments raw
  match schema.read v.loose with
  | .ok fields => fields.mapM fun f => f.2.plain?.map fun v => (f.1, v)
  | .error _ => none

/-! ## The bodies in use -/

namespace Schema

def session : Schema := [.optional "title" ["title"]]

/-- A message to be answered; the tag goes by two keys. -/
def chat : Schema := [.optional "content" ["content"], .optional "tag_filter" ["tagFilter", "tag_filter"]]

def sessionAnswer : Schema :=
  [.required "uid" .text, .required "title" .text, .required "createdTs" .whole, .required "updatedTs" .whole]

/-- A message as it is answered; the name of the tool is null where there is none. -/
def messageAnswer : Schema :=
  [.required "id" .whole, .required "role" .text, .required "content" .text,
    ⟨"toolName", ["toolName"], .textOrNull, some .null⟩, .required "createdTs" .whole]

def indexAnswer : Schema := [.required "indexed" .whole]

end Schema
end Http
end NoteAgent
