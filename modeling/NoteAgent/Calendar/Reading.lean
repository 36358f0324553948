import NoteAgent.Calendar.Date
import NoteAgent.Text.Blank
import NoteAgent.Text.Digit
/-!
# Reading — reading a day

A day is four digits, a hyphen, a month of one or two digits, a hyphen and a day of one or two digits, with blanks
around the whole allowed.  A one-digit day may have a space in front.  Digits of any script serve in the year and as
the second digit of a day from 10 to 29; all others are plain.
-/
namespace NoteAgent
namespace Calendar

open Text (digit?)

/-- The value of a plain digit from `low` to `high`. -/
def digitFrom? (low high : Nat) (c : Char) : Option Nat :=
  let n := c.toNat - 0x30
  if 0x30 ≤ c.toNat && low ≤ n && n ≤ high then some n else none

/-- The month in front of a hyphen, and the text after the hyphen. -/
def monthText? : List Char → Option (Nat × List Char)
  | '1' :: c :: '-' :: r => (digitFrom? 0 2 c).map fun d => (10 + d, r)
  | '0' :: c :: '-' :: r => (digitFrom? 1 9 c).map fun d => (d, r)
  | c :: '-' :: r => (digitFrom? 1 9 c).map fun d => (d, r)
  | _ => none

def dayText? : List Char → Option Nat
  | [c] => digitFrom? 1 9 c
  | ['3', c] => (digitFrom? 0 1 c).map (30 + ·)
  | ['0', c] => digitFrom? 1 9 c
  | [' ', c] => digitFrom? 1 9 c
  | [c, c'] => do return 10 * (← digitFrom? 1 2 c) + (← digit? c')
  | _ => none

/-- The date that a text writes, which the calendar need not have. -/
def dateText? : List Char → Option Date
  | a :: b :: c :: d :: '-' :: r => do
    let y := (((← digit? a) * 10 + (← digit? b)) * 10 + (← digit? c)) * 10 + (← digit? d)
    let (m, r) ← monthText? r
    return ⟨y, m, ← dayText? r⟩
  | _ => none

/-- The day number of the day that a text writes: a date of the calendar from year 1 on. -/
def readDay (s : String) : Option Int := do
  let t ← dateText? (Text.trimBy Text.isBlank s.toList)
  if 1 ≤ t.year && t.isValid then some t.toDay else none

/-- The first moment of the day that a text writes. -/
def readDayStart (s : String) : Option Int := (readDay s).map (· * 86400)

/-- The day number of the last day there is, 31 December 9999. -/
def lastDay : Int := 2932896

end Calendar
end NoteAgent
