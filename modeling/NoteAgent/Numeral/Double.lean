/-!
# Double — a double-precision number as an exact fraction

A finite double is `m · 2 ^ q` for whole `m` and `q`.  Printing works on that pair in exact arithmetic, and rounding a
quotient is one function.  In a fixed number of decimal places the exact value is rounded once, a half to the even
neighbour: scores have two places, and numbers that are not whole are reported with six.
-/
namespace NoteAgent
namespace Numeral

/-- A double, taken apart: a finite one is `m · 2 ^ q`, and `lower` says whether the gap below it is half the gap
above. -/
inductive Parts
  | nan
  | infinite (negative : Bool)
  | finite (negative : Bool) (m : Nat) (q : Int) (lower : Bool)
  deriving DecidableEq, Repr

/-- The parts of a double with this bit pattern. -/
def partsOfBits (bits : Nat) : Parts :=
  let negative : Bool := bits / Nat.pow 2 63 % 2 == (1 : Nat)
  let exponent : Nat := bits / Nat.pow 2 52 % Nat.pow 2 11
  let fraction : Nat := bits % Nat.pow 2 52
  if exponent == Nat.pow 2 11 - 1 then
    if fraction == 0 then .infinite negative else .nan
  else if exponent == 0 then .finite negative fraction (-1074) false
  else .finite negative (Nat.pow 2 52 + fraction) ((exponent : Int) - 1075) (fraction == 0 && 1 < exponent)

def parts (x : Float) : Parts := partsOfBits x.toBits.toNat

/-- Numerator and denominator of `m · 2 ^ q`. -/
def fraction (m : Nat) (q : Int) : Nat × Nat := if q < 0 then (m, Nat.pow 2 q.natAbs) else (m * Nat.pow 2 q.natAbs, 1)

/-- `num / den` rounded to the nearest whole number, a half to the even one. -/
def roundDiv (num den : Nat) : Nat :=
  let d := num / den
  let r := num % den
  if 2 * r < den || (2 * r == den && d % 2 == 0) then d else d + 1

theorem roundDiv_near {num den : Nat} (h : 0 < den) :
    2 * (roundDiv num den * den) ≤ 2 * num + den ∧ 2 * num ≤ 2 * (roundDiv num den * den) + den := by
  have hd := Nat.div_add_mod num den
  have hr := Nat.mod_lt num h
  have hm : num / den * den = den * (num / den) := Nat.mul_comm _ _
  simp only [roundDiv, Bool.or_eq_true, decide_eq_true_eq, Bool.and_eq_true, beq_iff_eq]
  split
  · constructor <;> omega
  · rw [Nat.add_mul, Nat.one_mul]; constructor <;> omega

/-- The whole number a double is cut to, toward zero. -/
def truncate? (x : Float) : Option Int :=
  match parts x with
  | .finite negative m q _ =>
    let (num, den) := fraction m q
    some (if negative then -((num / den : Nat) : Int) else (num / den : Nat))
  | _ => none

/-- The double nearest to `m · 10 ^ e`.  A number past the largest double is infinite and one far below the smallest is
zero, without the power being formed. -/
def ofDecimal (m : Nat) (e : Int) : Float :=
  let top := (m.log2 : Int) * 30103 / 100000 + e
  if m == 0 then 0
  else if 330 < top then 1.0 / 0.0
  else if top < -350 then 0
  else Float.ofScientific m (e < 0) e.natAbs

def ofInt (n : Int) : Float := if n < 0 then -(ofDecimal n.natAbs 0) else ofDecimal n.natAbs 0

/-! ## A fixed number of decimal places -/

/-- The digits of `n` with a point before the last `places` of them. -/
def withPoint (places n : Nat) : String :=
  let rest := Nat.toDigits 10 (n % Nat.pow 10 places)
  if places == 0 then toString n
  else toString (n / Nat.pow 10 places) ++ "." ++ String.ofList (List.replicate (places - rest.length) '0' ++ rest)

def fixed (places : Nat) (x : Float) : String :=
  match parts x with
  | .nan => "nan"
  | .infinite negative => if negative then "-inf" else "inf"
  | .finite negative m q _ =>
    let (num, den) := fraction m q
    (if negative then "-" else "") ++ withPoint places (roundDiv (num * Nat.pow 10 places) den)

end Numeral
end NoteAgent
