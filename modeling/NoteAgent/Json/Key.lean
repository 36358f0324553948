import NoteAgent.Json.Shown
/-!
# Key — values as keys

A value that is neither a list nor a record can be told apart from others as a key is.  Numbers are the same key when
they are equal, whole or real, and a truth value is the key of its number.
-/
namespace NoteAgent
namespace Json

def isKey : Json → Bool
  | .list _ | .record _ => false
  | _ => true

def wholeValue? : Json → Option Int
  | .int n => some n
  | .bool b => some (if b then 1 else 0)
  | .real x => if x.floor == x then Numeral.truncate? x else none
  | _ => none

def sameKey : Json → Json → Bool
  | .text a, .text b => a == b
  | .null, .null => true
  | .real x, .real y => x == y
  | a, b =>
    match wholeValue? a, wholeValue? b with
    | some m, some n => m == n
    | _, _ => false

theorem sameKey_text (a b : String) : sameKey (.text a) (.text b) = (a == b) := rfl

end Json
end NoteAgent
