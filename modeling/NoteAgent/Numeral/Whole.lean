import NoteAgent.Text.Blank
import NoteAgent.Text.Digit
/-!
# Whole — reading a whole number

A numeral is an optional sign and decimal digits of any script, with single low lines allowed between digits and
blanks allowed around the whole.  At most 4300 digits are read, leading zeros counted.  They are counted before what
follows them is looked at, so a text with too many digits is too long whatever comes after.
-/
namespace NoteAgent
namespace Numeral

open Text (isBlank isPlainBlank plainOf)

/-- Why a text is no whole number. -/
inductive WholeError
  | malformed
  | tooLong (digits : Nat)
  deriving DecidableEq, Repr

def maxDigits : Nat := 4300

/-- The text in plain digits and spaces.  A text of plain characters stays as it is, so that the separators below the
space stay no blanks. -/
def plain (cs : List Char) : List Char :=
  if cs.all fun c => c.toNat < 128 then cs else cs.map (plainOf isBlank)

/-- The digits in front of a text, in which single low lines may stand between digits, and the text after them. -/
def groupedDigits (afterDigit : Bool) : List Char → Option (List Char × List Char)
  | [] => if afterDigit then some ([], []) else none
  | c :: cs =>
    if c.isDigit then (groupedDigits true cs).map fun r => (c :: r.1, r.2)
    else if !afterDigit then none
    else if c == '_' then groupedDigits false cs
    else some ([], c :: cs)

def ofDigits (ds : List Char) : Nat := ds.foldl (fun n c => 10 * n + (c.toNat - 0x30)) 0

/-- A sign in front, and the rest: `true` stands for minus. -/
def splitSign : List Char → Bool × List Char
  | '-' :: cs => (true, cs)
  | '+' :: cs => (false, cs)
  | cs => (false, cs)

def signed (negative : Bool) (n : Nat) : Int := if negative then -(n : Int) else n

def readWhole (s : String) : Except WholeError Int :=
  let (negative, body) := splitSign ((plain s.toList).dropWhile isPlainBlank)
  match groupedDigits false body with
  | none => .error .malformed
  | some (ds, rest) =>
    if maxDigits < ds.length then .error (.tooLong ds.length)
    else if rest.all isPlainBlank then .ok (signed negative (ofDigits ds))
    else .error .malformed

end Numeral
end NoteAgent
