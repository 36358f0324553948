import NoteAgent.Numeral.Double
import NoteAgent.Numeral.Whole
/-!
# Real — reading a real number

An optional sign, then a decimal number with an optional exponent, or a name of infinity or of no number in either
case.  Single low lines may stand between digits, and blanks around the whole.
-/
namespace NoteAgent
namespace Numeral

open Text (isPlainBlank trimBy)

/-- The text without its low lines, each of which must stand between two digits. -/
def dropLowLines (prev : Option Char) : List Char → Option (List Char)
  | [] => if prev == some '_' then none else some []
  | c :: cs =>
    if c == '_' then
      if prev.any Char.isDigit then dropLowLines (some c) cs else none
    else if prev == some '_' && !c.isDigit then none
    else (dropLowLines (some c) cs).map (c :: ·)

/-- A decimal without sign: digits with at most one point among them, at least one digit, and an optional exponent. -/
structure Decimal where
  mantissa : Nat
  exponent : Int
  deriving DecidableEq, Repr

/-- The exponent that follows the digits: none, or a mark, an optional sign and digits to the end. -/
def exponentOf : List Char → Option Int
  | [] => some 0
  | c :: cs =>
    if c == 'e' || c == 'E' then
      let (negative, ds) := splitSign cs
      if ds.isEmpty || !ds.all Char.isDigit then none else some (signed negative (ofDigits ds))
    else none

def decimal? (cs : List Char) : Option Decimal :=
  let whole := cs.takeWhile Char.isDigit
  let rest := cs.dropWhile Char.isDigit
  let (places, rest) : List Char × List Char :=
    match rest with
    | '.' :: rest => (rest.takeWhile Char.isDigit, rest.dropWhile Char.isDigit)
    | rest => ([], rest)
  if whole.isEmpty && places.isEmpty then none
  else (exponentOf rest).map fun e => ⟨ofDigits (whole ++ places), e - places.length⟩

def Decimal.toFloat (d : Decimal) : Float := ofDecimal d.mantissa d.exponent

def magnitude? (cs : List Char) : Option Float :=
  let name := String.ofList (cs.map Char.toLower)
  if name == "inf" || name == "infinity" then some (1.0 / 0.0)
  else if name == "nan" then some (0.0 / 0.0)
  else (decimal? cs).map Decimal.toFloat

def readReal (s : String) : Option Float := do
  let cs ← dropLowLines none (trimBy isPlainBlank (plain s.toList))
  let (negative, body) := splitSign cs
  let x ← magnitude? body
  return if negative then -x else x

end Numeral
end NoteAgent
