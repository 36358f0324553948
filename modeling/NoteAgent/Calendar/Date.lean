/-!
# Date — civil dates and day numbers

Dates of the Gregorian calendar, carried on in both directions, against days counted from 1 January 1970.  The year of
a day is estimated from the mean length of a year and mended by at most one; the month is looked up by the days before
it.
-/
namespace NoteAgent
namespace Calendar

/-- A date of the calendar. -/
structure Date where
  year : Int
  month : Nat
  day : Nat
  deriving DecidableEq, Repr

def isLeap (y : Int) : Bool := y % 4 == 0 && (y % 100 != 0 || y % 400 == 0)

/-- The days from 1 January of year 1 to 1 January of year `y`. -/
def daysBeforeYear (y : Int) : Int := 365 * (y - 1) + (y - 1) / 4 - (y - 1) / 100 + (y - 1) / 400

/-- The days of a year before its month `m`. -/
def daysBeforeMonth (leap : Bool) : Nat → Nat
  | 0 | 1 => 0
  | 2 => 31
  | m =>
    (if leap then 1 else 0) +
      match m with
      | 3 => 59
      | 4 => 90
      | 5 => 120
      | 6 => 151
      | 7 => 181
      | 8 => 212
      | 9 => 243
      | 10 => 273
      | 11 => 304
      | 12 => 334
      | _ => 365

def daysOfMonth (leap : Bool) (m : Nat) : Nat := daysBeforeMonth leap (m + 1) - daysBeforeMonth leap m

/-- The day number of 1 January 1970 counted from 1 January of year 1. -/
def epoch : Int := 719162

def Date.isValid (t : Date) : Bool :=
  1 ≤ t.month && t.month ≤ 12 && 1 ≤ t.day && t.day ≤ daysOfMonth (isLeap t.year) t.month

/-- The days from 1 January 1970 to a date. -/
def Date.toDay (t : Date) : Int :=
  daysBeforeYear t.year + daysBeforeMonth (isLeap t.year) t.month + (t.day : Int) - 1 - epoch

/-- The year that holds the day `n`, counted from 1 January of year 1. -/
def yearOf (n : Int) : Int :=
  let y := n * 400 / 146097 + 1
  if n < daysBeforeYear y then y - 1
  else if daysBeforeYear (y + 1) ≤ n then y + 1
  else y

/-- The month that holds the day `n` of a year, counted from its first day. -/
def monthOf (leap : Bool) (n : Nat) : Nat :=
  (List.range 12).foldl (fun m i => if daysBeforeMonth leap (i + 1) ≤ n then i + 1 else m) 1

def Date.ofDay (day : Int) : Date :=
  let n := day + epoch
  let y := yearOf n
  let rest := (n - daysBeforeYear y).toNat
  let m := monthOf (isLeap y) rest
  ⟨y, m, rest - daysBeforeMonth (isLeap y) m + 1⟩

end Calendar
end NoteAgent
