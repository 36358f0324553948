import NoteAgent.Numeral.Whole
/-!
# WholeText — a whole number that the field of a body writes as a text

A field takes a text for a whole number under rules of its own.  The text is stripped step by step: blanks around it, a
sign, zeros in front together with the low lines among them, a point with nothing but zeros after it, and low lines
that stand singly inside.  What is left must be a whole number as JSON writes one.  A minus sign may also follow the
zeros in front.
-/
namespace NoteAgent
namespace Http

/-- The blanks that may stand around the number. -/
def isNumeralBlank (c : Char) : Bool := Text.isBlank c && !(28 ≤ c.toNat && c.toNat ≤ 31)

/-- A sign in front, and the rest: `true` stands for minus.  A plus must not stand before a minus. -/
def signOf? : List Char → Option (Bool × List Char)
  | '+' :: '-' :: _ => none
  | '+' :: cs => some (false, cs)
  | '-' :: cs => some (true, cs)
  | cs => some (false, cs)

/-- A character that a number may start with: a digit but zero, or a minus. -/
def isLead (c : Char) : Bool := ('1' ≤ c && c ≤ '9') || c == '-'

/-- The text after zeros and low lines, of which `prev` came last: from the next lead on, or from `prev` on if a point
or nothing follows. -/
def afterZeros (prev : Char) : List Char → Option (List Char)
  | [] => some [prev]
  | c :: cs =>
    if c == '0' || c == '_' then afterZeros c cs
    else if isLead c then some (c :: cs)
    else if c == '.' then some (prev :: c :: cs)
    else none

/-- The text without the zeros in front. -/
def dropZeros : List Char → Option (List Char)
  | [] => none
  | c :: cs =>
    if c == '0' then afterZeros c cs
    else if isLead c then some (c :: cs)
    else none

/-- The text cut at its first point, if zeros follow the point to the end. -/
def dropZeroPlaces (cs : List Char) : List Char :=
  match cs.dropWhile (· != '.') with
  | _ :: p :: places => if (p :: places).all (· == '0') then cs.takeWhile (· != '.') else cs
  | _ => cs

/-- Whether every low line stands singly between other characters, the one before the text being `prev`. -/
def lowLinesSingle (prev : Char) : List Char → Bool
  | [] => prev != '_'
  | c :: cs => !(prev == '_' && c == '_') && lowLinesSingle c cs

/-- The text without its low lines, if each stands singly inside. -/
def dropSingleLowLines (cs : List Char) : List Char :=
  if lowLinesSingle '_' cs then cs.filter (· != '_') else cs

/-- Digits as JSON writes a whole number: a zero alone, or digits that do not start with one. -/
def isPlainWhole (ds : List Char) : Bool := !ds.isEmpty && ds.all Char.isDigit && (ds.head? != some '0' || ds.length == 1)

/-- The whole number that stripped text writes after a sign.  The sign and the digits together are at most 4300. -/
def plainWhole? (negative : Bool) : List Char → Option Int
  | '-' :: ds => if negative then none else ofPlain true ds
  | ds => ofPlain negative ds
where
  /-- The number with this sign and these digits. -/
  ofPlain (negative : Bool) (ds : List Char) : Option Int :=
    if isPlainWhole ds && ds.length + negative.toNat ≤ Numeral.maxDigits then
      some (Numeral.signed negative (Numeral.ofDigits ds))
    else none

def wholeOfText? (s : String) : Option Int := do
  let (negative, cs) ← signOf? (Text.trimBy isNumeralBlank s.toList)
  plainWhole? negative (dropSingleLowLines (dropZeroPlaces (← dropZeros cs)))

end Http
end NoteAgent
