import NoteAgent.Calendar.Date
import NoteAgent.Failure
/-!
# Stamp — a moment as it is printed

A moment is a whole number of seconds since 1970 in universal time.  It is printed as a date and a time of day; the
year is not padded.
-/
namespace NoteAgent
namespace Calendar

def daySeconds : Int := 86400

/-- A date and a time of day. -/
structure Stamp where
  date : Date
  hour : Nat
  minute : Nat
  second : Nat
  deriving DecidableEq, Repr

def Stamp.ofSeconds (t : Int) : Stamp :=
  let s := (t % daySeconds).toNat
  ⟨Date.ofDay (t / daySeconds), s / 3600, s / 60 % 60, s % 60⟩

/-- The year as it is told when it is out of range: its low 32 bits, with a sign. -/
def toldYear (year : Int) : Int := year.bmod 4294967296

/-- The date and time of a moment of the years 1 to 9999.  A moment that does not fit 64 bits is no moment, and one whose
years since 1900 do not fit 32 bits is too far. -/
def stampOf (t : Int) : Except Failure Stamp :=
  let s := Stamp.ofSeconds t
  if t < -9223372036854775808 || 9223372036854775807 < t then .error .noMoment
  else if 2147483647 < s.date.year - 1900 || s.date.year - 1900 < -2147483648 then .error .momentTooFar
  else if s.date.year < 1 || 9999 < s.date.year then .error (.yearOutOfRange (toldYear s.date.year))
  else .ok s

def twoDigits (n : Nat) : String := if n < 10 then "0" ++ toString n else toString n

/-- A date: the year as it is, month and day in two digits. -/
def Date.print (t : Date) : String := toString t.year ++ "-" ++ twoDigits t.month ++ "-" ++ twoDigits t.day

def Stamp.printMinute (t : Stamp) : String := t.date.print ++ " " ++ twoDigits t.hour ++ ":" ++ twoDigits t.minute

def Stamp.printSecond (t : Stamp) : String := t.printMinute ++ ":" ++ twoDigits t.second

end Calendar
end NoteAgent
