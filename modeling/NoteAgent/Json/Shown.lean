import NoteAgent.Json.Value
import NoteAgent.Numeral.Shortest
import NoteAgent.Text.Quoted
/-!
# Shown — a value inside a message

A service may answer with a value of any kind where a text is meant.  In a message a text stands as it is; a value of
another kind stands in the notation of the messages, where the texts inside it are quoted.
-/
namespace NoteAgent
namespace Json

open Numeral (Layout)

mutual
/-- A value in the notation of the messages, with texts quoted. -/
def inMessage : Json → String
  | .null => "None"
  | .bool true => "True"
  | .bool false => "False"
  | .int n => toString n
  | .real x => Layout.message.write x
  | .text s => Text.quoted s
  | .list [] => "[]"
  | .list (v :: vs) => "[" ++ inMessage v ++ inMessageItems vs
  | .record [] => "\x7b\x7d"
  | .record ((k, v) :: fs) => "\x7b" ++ Text.quoted k ++ ": " ++ inMessage v ++ inMessageFields fs
def inMessageItems : List Json → String
  | [] => "]"
  | v :: vs => ", " ++ inMessage v ++ inMessageItems vs
def inMessageFields : List (String × Json) → String
  | [] => "\x7d"
  | (k, v) :: fs => ", " ++ Text.quoted k ++ ": " ++ inMessage v ++ inMessageFields fs
end

/-- A value inside a message: a text as it is. -/
def shown : Json → String
  | .text s => s
  | v => inMessage v

/-- The kinds of values, as messages name them. -/
inductive Kind
  | null | bool | int | real | text | list | record
  deriving DecidableEq, Repr

def Value.kind {S : Type} : Value S → Kind
  | .null => .null
  | .bool _ => .bool
  | .int _ => .int
  | .real _ => .real
  | .text _ => .text
  | .list _ => .list
  | .record _ => .record

def Kind.name : Kind → String
  | .null => "NoneType"
  | .bool => "bool"
  | .int => "int"
  | .real => "float"
  | .text => "str"
  | .list => "list"
  | .record => "dict"

end Json
end NoteAgent
