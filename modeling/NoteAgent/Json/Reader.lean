import NoteAgent.Json.Value
import NoteAgent.Numeral.Real
import NoteAgent.Text.Digit
/-!
# Reader — reading JSON text

The grammar is that of JSON with three more numbers, `NaN`, `Infinity` and `-Infinity`.  Of two equal keys the last
value counts, in the place of the first.  An escaped high half and an escaped low half after it are one character.  A
whole number may have 4300 digits.  Two sets of rules are in use, one for the arguments a model writes and one for the
body of a request.
-/
namespace NoteAgent
namespace Json

/-- Why a text is no JSON value. -/
inductive ReadError
  | malformed
  | tooManyDigits
  | tooDeep
  deriving DecidableEq, Repr

/-- What a reader bounds: how many values that are not empty may stand one inside another, and whether a minus counts as
one of the digits, and digits before a point or an exponent like those of a whole number. -/
structure Rules where
  depth : Nat
  countsAll : Bool
  deriving DecidableEq, Repr

/-- The rules for arguments that a model writes. -/
def Rules.arguments : Rules := ⟨200, true⟩

def Rules.body : Rules := ⟨950, false⟩

/-- The blanks of JSON. -/
def isBlank (c : Char) : Bool := c == ' ' || c == '\t' || c == '\n' || c == '\r'

def skip (cs : List Char) : List Char := cs.dropWhile isBlank

/-! ## Strings -/

/-- The number that four hexadecimal digits write. -/
def hex4? (a b c d : Char) : Option Nat := do
  return (((← Text.hexValue? a) * 16 + (← Text.hexValue? b)) * 16 + (← Text.hexValue? c)) * 16 + (← Text.hexValue? d)

/-- The piece that a number of four hexadecimal digits stands for. -/
def pieceOf (n : Nat) : Piece :=
  if h : n - 0xD800 < 2048 ∧ 0xD800 ≤ n then .half ⟨n - 0xD800, h.1⟩ else .char (Char.ofNat n)

/-- A piece set before the pieces `acc`, which are held last first: a low half after a high one completes it. -/
def push (p : Piece) (acc : List Piece) : List Piece :=
  match p, acc with
  | .half low, .half high :: rest =>
    if high.val < 1024 && 1024 ≤ low.val then
      .char (Char.ofNat (0x10000 + high.val * 1024 + (low.val - 1024))) :: rest
    else p :: acc
  | _, _ => p :: acc

/-- The character that a backslash and `c` stand for. -/
def escape? (c : Char) : Option Char :=
  if c == '"' || c == '\\' || c == '/' then some c
  else if c == 'b' then some '\x08'
  else if c == 'f' then some '\x0c'
  else if c == 'n' then some '\n'
  else if c == 'r' then some '\r'
  else if c == 't' then some '\t'
  else none

/-- The rest of a string after its opening quote, the pieces so far held last first. -/
def stringFrom (acc : List Piece) : List Char → Option (List Piece × List Char)
  | [] => none
  | '"' :: r => some (acc.reverse, r)
  | '\\' :: 'u' :: a :: b :: c :: d :: r =>
    match hex4? a b c d with
    | some n => stringFrom (push (pieceOf n) acc) r
    | none => none
  | '\\' :: c :: r =>
    match escape? c with
    | some c => stringFrom (.char c :: acc) r
    | none => none
  | c :: r => if c.toNat < 0x20 || c == '\\' then none else stringFrom (.char c :: acc) r

/-! ## Numbers -/

/-- The digits of a whole part: a zero alone, or digits that do not start with one. -/
def wholePart : List Char → List Char × List Char
  | '0' :: r => (['0'], r)
  | cs => (cs.takeWhile Char.isDigit, cs.dropWhile Char.isDigit)

/-- The decimal places after a point, if a digit follows the point. -/
def places : List Char → List Char × List Char
  | '.' :: c :: r => if c.isDigit then ((c :: r).takeWhile Char.isDigit, (c :: r).dropWhile Char.isDigit) else ([], '.' :: c :: r)
  | cs => ([], cs)

/-- The exponent, if a mark, an optional sign and a digit follow. -/
def exponent (cs : List Char) : Option Int × List Char :=
  match cs with
  | c :: r =>
    if c == 'e' || c == 'E' then
      let (negative, ds) := Numeral.splitSign r
      if (ds.takeWhile Char.isDigit).isEmpty then (none, cs)
      else (some (Numeral.signed negative (Numeral.ofDigits (ds.takeWhile Char.isDigit))), ds.dropWhile Char.isDigit)
    else (none, cs)
  | [] => (none, [])

/-- Whether a number with so many digits before a point or an exponent is too long. -/
def Rules.isTooLong (rules : Rules) (negative isReal : Bool) (digits : Nat) : Bool :=
  if rules.countsAll then Numeral.maxDigits < digits + negative.toNat else !isReal && Numeral.maxDigits < digits

def number (rules : Rules) (negative : Bool) (cs : List Char) : Except ReadError (Value (List Piece) × List Char) :=
  let (whole, afterWhole) := wholePart cs
  let (decimals, afterPlaces) := places afterWhole
  let (power?, rest) := exponent afterPlaces
  let isReal := !decimals.isEmpty || power?.isSome
  if whole.isEmpty then .error .malformed
  else if rules.isTooLong negative isReal whole.length then .error .tooManyDigits
  else if isReal then
    let x := Numeral.ofDecimal (Numeral.ofDigits (whole ++ decimals)) (power?.getD 0 - decimals.length)
    .ok (.real (if negative then -x else x), rest)
  else .ok (.int (Numeral.signed negative (Numeral.ofDigits whole)), rest)

/-! ## Values -/

/-- Whether a value with content may open inside `depth` others. -/
def Rules.allows (rules : Rules) (depth : Nat) : Bool := depth < rules.depth

mutual
/-- Reads one value inside `depth` others that are not empty.  Each step takes a character, so the length of the text
is fuel enough. -/
def value (rules : Rules) : Nat → Nat → List Char → Except ReadError (Value (List Piece) × List Char)
  | 0, _, _ => .error .malformed
  | fuel + 1, depth, cs =>
    match skip cs with
    | 'n' :: 'u' :: 'l' :: 'l' :: r => .ok (.null, r)
    | 't' :: 'r' :: 'u' :: 'e' :: r => .ok (.bool true, r)
    | 'f' :: 'a' :: 'l' :: 's' :: 'e' :: r => .ok (.bool false, r)
    | 'N' :: 'a' :: 'N' :: r => .ok (.real (0.0 / 0.0), r)
    | 'I' :: 'n' :: 'f' :: 'i' :: 'n' :: 'i' :: 't' :: 'y' :: r => .ok (.real (1.0 / 0.0), r)
    | '-' :: 'I' :: 'n' :: 'f' :: 'i' :: 'n' :: 'i' :: 't' :: 'y' :: r => .ok (.real (-1.0 / 0.0), r)
    | '"' :: r =>
      match stringFrom [] r with
      | some (ps, r) => .ok (.text ps, r)
      | none => .error .malformed
    | '[' :: r =>
      match skip r with
      | ']' :: r => .ok (.list [], r)
      | r => if rules.allows depth then items rules fuel (depth + 1) [] r else .error .tooDeep
    | '\x7b' :: r =>
      match skip r with
      | '\x7d' :: r => .ok (.record [], r)
      | r => if rules.allows depth then fields rules fuel (depth + 1) [] r else .error .tooDeep
    | '-' :: r => number rules true r
    | r => number rules false r
/-- Reads the items of a list from the next one on, those before it held last first. -/
def items (rules : Rules) : Nat → Nat → List (Value (List Piece)) → List Char →
    Except ReadError (Value (List Piece) × List Char)
  | 0, _, _, _ => .error .malformed
  | fuel + 1, depth, acc, cs =>
    match value rules fuel depth cs with
    | .error e => .error e
    | .ok (v, r) =>
      match skip r with
      | ',' :: r => items rules fuel depth (v :: acc) r
      | ']' :: r => .ok (.list (v :: acc).reverse, r)
      | _ => .error .malformed
/-- Reads the fields of a record from the next one on. -/
def fields (rules : Rules) : Nat → Nat → List (List Piece × Value (List Piece)) → List Char →
    Except ReadError (Value (List Piece) × List Char)
  | 0, _, _, _ => .error .malformed
  | fuel + 1, depth, acc, cs =>
    match skip cs with
    | '"' :: r =>
      match stringFrom [] r with
      | none => .error .malformed
      | some (key, r) =>
        match skip r with
        | ':' :: r =>
          match value rules fuel depth r with
          | .error e => .error e
          | .ok (v, r) =>
            match skip r with
            | ',' :: r => fields rules fuel depth (put key v acc) r
            | '\x7d' :: r => .ok (.record (put key v acc), r)
            | _ => .error .malformed
        | _ => .error .malformed
    | _ => .error .malformed
end

/-- Reads a text that is one value between blanks. -/
def readChars (rules : Rules) (cs : List Char) : Except ReadError LooseJson :=
  match value rules (cs.length + 1) 0 cs with
  | .error e => .error e
  | .ok (v, r) => if (skip r).isEmpty then .ok v else .error .malformed

def read (rules : Rules) (s : String) : Except ReadError LooseJson := readChars rules s.toList

/-- Reads arguments that a model wrote: plain text only. -/
def readArguments (s : String) : Option Json :=
  match read .arguments s with
  | .ok v => v.plain?
  | .error _ => none

end Json
end NoteAgent
