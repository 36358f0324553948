import NoteAgent.Json.Reader
import NoteAgent.Json.Writer
import NoteAgent.Text.Utf8
/-!
# Encoding — the characters of a body

The first bytes of a body tell how its characters are encoded, for JSON begins with plain characters: where zeros stand
among them shows how wide a unit is and which of its bytes comes first.  A body in wide units is read unit by unit.
-/
namespace NoteAgent
namespace Http

/-- How characters are encoded as bytes: in single bytes, or in units of two or four with the high byte first or last. -/
inductive Encoding
  | narrow
  | wide2 (highFirst : Bool)
  | wide4 (highFirst : Bool)
  deriving DecidableEq, Repr

/-- The encoding that the bytes of a body show. -/
def Encoding.of : List UInt8 → Encoding
  | [a, b] => if a == 0 then .wide2 true else if b == 0 then .wide2 false else .narrow
  | a :: b :: c :: d :: _ =>
    if a == 0 then (if b == 0 then .wide4 true else .wide2 true)
    else if b == 0 then (if c == 0 && d == 0 then .wide4 false else .wide2 false)
    else .narrow
  | _ => .narrow

/-- The number that the bytes of a unit write, the high byte first. -/
def unit (bytes : List UInt8) : Nat := bytes.foldl (fun n b => n * 256 + b.toNat) 0

/-- The units of two bytes, if the bytes come out even. -/
def units2 (highFirst : Bool) : List UInt8 → Option (List Nat)
  | [] => some []
  | a :: b :: rest => (units2 highFirst rest).map fun us => unit (if highFirst then [a, b] else [b, a]) :: us
  | _ => none

/-- The units of four bytes, if the bytes come out even. -/
def units4 (highFirst : Bool) : List UInt8 → Option (List Nat)
  | [] => some []
  | a :: b :: c :: d :: rest =>
    (units4 highFirst rest).map fun us => unit (if highFirst then [a, b, c, d] else [d, c, b, a]) :: us
  | _ => none

/-- The characters of pieces as JSON spells them.  Half of a pair that stands alone means the same spelled out, if it
stands in a string, and nothing otherwise. -/
def spell (ps : List Json.Piece) : List Char :=
  ps.flatMap fun
    | .char c => [c]
    | .half n => Json.spelled (0xD800 + n.val)

/-- The characters of a text in wide units; `none` if the bytes are none. -/
def wideChars (encoding : Encoding) (bytes : List UInt8) : Option (List Char) :=
  match encoding with
  | .narrow => none
  | .wide2 highFirst =>
    (units2 highFirst bytes).map fun us => spell (us.foldl (fun acc u => Json.push (Json.pieceOf u) acc) []).reverse
  | .wide4 highFirst => do
    let us ← units4 highFirst bytes
    if us.all (· < 0x110000) then some (spell (us.map Json.pieceOf)) else none

/-- The text without a byte-order mark in front. -/
def dropMark (cs : List Char) : List Char :=
  match cs with
  | c :: rest => if c.toNat == 0xFEFF then rest else cs
  | [] => []

/-- The characters of a body, which arrives as the bytes of a text; `none` if they are none in the encoding they show. -/
def bodyChars (raw : String) : Option (List Char) :=
  match Encoding.of ((raw.toList.take 4).flatMap Text.bytesOf |>.take 4) with
  | .narrow => some (dropMark raw.toList)
  | encoding => wideChars encoding (raw.toList.flatMap Text.bytesOf)

end Http
end NoteAgent
