import NoteAgent.Numeral.Double
/-!
# Shortest — the fewest digits that read back as the same double

A decimal reads back as a double when it lies in the interval of numbers nearest to it, the ends belonging to the
interval when `m` is even.  For one digit, two digits and so on, the two neighbours of the value on that decimal grid
are tried; the first grid with a hit wins, and of two hits the nearer, or the even one if both are as near.  How the
digits are then laid out is a format of its own.
-/
namespace NoteAgent
namespace Numeral

/-- How the digits of a real number are laid out. -/
structure Layout where
  /-- Positional notation is used for a decimal point position above this. -/
  above : Int
  /-- Positional notation is used up to this decimal point position. -/
  upTo : Int
  /-- The sign of a positive exponent. -/
  plus : String
  /-- The least number of digits of an exponent. -/
  exponentDigits : Nat
  /-- The names of infinity, minus infinity and no number. -/
  infinity : String
  minusInfinity : String
  nan : String

/-- The layout of a number inside a message and in escaped JSON text. -/
def Layout.message : Layout := ⟨-4, 16, "+", 2, "inf", "-inf", "nan"⟩

/-- `10 ^ e` as a fraction. -/
def powTen (e : Int) : Nat × Nat := if e < 0 then (1, Nat.pow 10 e.natAbs) else (Nat.pow 10 e.natAbs, 1)

/-- The least `k` from `k` on with `num / den < 10 ^ k`, looked for `fuel` times. -/
def pointFrom (num den : Nat) : Nat → Int → Int
  | 0, k => k
  | fuel + 1, k =>
    let (a, b) := powTen k
    if num * b < a * den then k else pointFrom num den fuel (k + 1)

/-- Whether `c · 10 ^ e` reads back as `m · 2 ^ q`. -/
def readsBack (m : Nat) (q : Int) (lower : Bool) (c : Nat) (e : Int) : Bool :=
  let (a, b) := powTen e
  let (lowNum, lowDen) := if lower then fraction (4 * m - 1) (q - 2) else fraction (2 * m - 1) (q - 1)
  let (highNum, highDen) := fraction (2 * m + 1) (q - 1)
  let low := lowNum * b
  let here := c * a
  if m % 2 == 0 then low ≤ here * lowDen && here * highDen ≤ highNum * b
  else low < here * lowDen && here * highDen < highNum * b

/-- The shortest digits `c` and their exponent `e`, tried with `digits` digits and more, `fuel` times. -/
def shortestFrom (m : Nat) (q : Int) (lower : Bool) (point : Int) : Nat → Nat → Nat × Int
  | 0, _ => (m, q)
  | fuel + 1, digits =>
    let e := point - digits
    let (num, den) := fraction m q
    let (a, b) := powTen e
    let c := num * b / (den * a)
    let atFloor := readsBack m q lower c e
    let atNext := readsBack m q lower (c + 1) e
    if atFloor && atNext then (roundDiv (num * b) (den * a), e)
    else if atFloor then (c, e)
    else if atNext then (c + 1, e)
    else shortestFrom m q lower point fuel (digits + 1)

/-- The shortest digits of `m · 2 ^ q`, and the position of the decimal point after the first of them. -/
def shortest (m : Nat) (q : Int) (lower : Bool) : List Char × Int :=
  let (num, den) := fraction m q
  let guess := (m.log2 + q) * 30103 / 100000 - 1
  let (c, e) := shortestFrom m q lower (pointFrom num den 8 guess) 17 1
  let ds := Nat.toDigits 10 c
  let kept := (ds.reverse.dropWhile (· == '0')).reverse
  (kept, e + ds.length)

def Layout.exponent (l : Layout) (e : Int) : List Char :=
  let ds := Nat.toDigits 10 e.natAbs
  'e' :: (if e < 0 then ['-'] else l.plus.toList) ++ List.replicate (l.exponentDigits - ds.length) '0' ++ ds

/-- The digits `ds` with the decimal point at `point`, in the layout. -/
def Layout.place (l : Layout) (ds : List Char) (point : Int) : List Char :=
  if l.above < point && point ≤ l.upTo then
    if point ≤ 0 then '0' :: '.' :: List.replicate point.natAbs '0' ++ ds
    else if ds.length ≤ point.natAbs then ds ++ List.replicate (point.natAbs - ds.length) '0' ++ ['.', '0']
    else ds.take point.natAbs ++ '.' :: ds.drop point.natAbs
  else match ds with
    | [] => []
    | [d] => d :: l.exponent (point - 1)
    | d :: ds => d :: '.' :: ds ++ l.exponent (point - 1)

/-- A double in the fewest digits that read back, in the layout. -/
def Layout.write (l : Layout) (x : Float) : String :=
  match parts x with
  | .nan => l.nan
  | .infinite negative => if negative then l.minusInfinity else l.infinity
  | .finite negative m q lower =>
    let body := if m == 0 then ['0', '.', '0'] else
      let (ds, point) := shortest m q lower
      l.place ds point
    String.ofList (if negative then '-' :: body else body)

end Numeral
end NoteAgent
