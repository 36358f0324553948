import NoteAgent.Json.Value
import NoteAgent.Numeral.Shortest
import NoteAgent.Text.Quoted
/-!
# Writer — writing JSON text

One function writes a value in a style.  The frames of an event stream are compact and keep every character but the
quote, the backslash and the controls below the space.  The escaped style has a blank after commas and colons and spells
every character that is not plain by four hexadecimal digits, or by two such halves.
-/
namespace NoteAgent
namespace Json

open Numeral (Layout)

/-- How a value is laid out as text. -/
structure Style where
  comma : String
  colon : String
  /-- Whether all characters but the plain ones from the space to the tilde are spelled out. -/
  plainOnly : Bool
  layout : Layout

/-- The style of the frames of an event stream. -/
def Style.frame : Style := ⟨",", ":", false, ⟨-5, 16, "+", 1, "null", "null", "null"⟩⟩

/-- The style in which a decoded body is handed on as arguments. -/
def Style.escaped : Style := ⟨", ", ": ", true, ⟨-4, 16, "+", 2, "Infinity", "-Infinity", "NaN"⟩⟩

/-- The four-digit spelling of a number below 65536. -/
def spelled (n : Nat) : List Char := '\\' :: 'u' :: Text.hex 4 n

def writeChar (plainOnly : Bool) (c : Char) : List Char :=
  if c == '"' then ['\\', '"']
  else if c == '\\' then ['\\', '\\']
  else if c == '\n' then ['\\', 'n']
  else if c == '\r' then ['\\', 'r']
  else if c == '\t' then ['\\', 't']
  else if c == '\x08' then ['\\', 'b']
  else if c == '\x0c' then ['\\', 'f']
  else if c.toNat < 0x20 then spelled c.toNat
  else if plainOnly && 0x7E < c.toNat then
    if c.toNat < 0x10000 then spelled c.toNat
    else spelled (0xD800 + (c.toNat - 0x10000) / 1024) ++ spelled (0xDC00 + (c.toNat - 0x10000) % 1024)
  else [c]

def writePiece (plainOnly : Bool) : Piece → List Char
  | .char c => writeChar plainOnly c
  | .half n => spelled (0xD800 + n.val)

def writeString (plainOnly : Bool) (ps : List Piece) : List Char := '"' :: ps.flatMap (writePiece plainOnly) ++ ['"']

mutual
def Value.write (style : Style) : Value (List Piece) → List Char
  | .null => ['n', 'u', 'l', 'l']
  | .bool true => ['t', 'r', 'u', 'e']
  | .bool false => ['f', 'a', 'l', 's', 'e']
  | .int n => (toString n).toList
  | .real x => (style.layout.write x).toList
  | .text ps => writeString style.plainOnly ps
  | .list [] => ['[', ']']
  | .list (v :: vs) => '[' :: Value.write style v ++ Value.writeItems style vs
  | .record [] => ['\x7b', '\x7d']
  | .record ((k, v) :: fs) =>
    '\x7b' :: writeString style.plainOnly k ++ style.colon.toList ++ Value.write style v ++ Value.writeFields style fs
/-- The items after the first, and the closing bracket. -/
def Value.writeItems (style : Style) : List (Value (List Piece)) → List Char
  | [] => [']']
  | v :: vs => style.comma.toList ++ Value.write style v ++ Value.writeItems style vs
/-- The fields after the first, and the closing brace. -/
def Value.writeFields (style : Style) : List (List Piece × Value (List Piece)) → List Char
  | [] => ['\x7d']
  | (k, v) :: fs =>
    style.comma.toList ++ writeString style.plainOnly k ++ style.colon.toList ++ Value.write style v ++
      Value.writeFields style fs
end

def write (style : Style) (v : Json) : String := String.ofList ((Json.loose v).write style)

/-- A loose value in the style that arguments are handed on in. -/
def escaped (v : LooseJson) : String := String.ofList (v.write .escaped)

end Json
end NoteAgent
