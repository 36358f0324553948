import Mathlib.Tactic.IntervalCases
import NoteAgent.Calendar.Reading
import NoteAgent.Proofs.CivilDays
/-!
# DayTexts — days as they are read and printed

A text that is read as a day is a date of the years 1 to 9999, so the day lies between the first of these and
`lastDay` (`readDay_range`).  A date whose year has four digits is printed as a text that is read as its day
(`readDay_print`); a shorter year is printed shorter, and four digits are wanted of a year.
-/
namespace NoteAgent
namespace Calendar

open Text (digit? isBlank)

/-! ## Reading -/

theorem dateText?_year {cs : List Char} {t : Date} (h : dateText? cs = some t) : 0 ≤ t.year ∧ t.year ≤ 9999 := by
  unfold dateText? at h
  split at h
  · simp only [Option.bind_eq_bind, Option.bind_eq_some_iff] at h
    obtain ⟨a, ha, b, hb, c, hc, d, hd, m, -, n, -, ht⟩ := h
    cases ht
    have := Text.digit?_lt ha
    have := Text.digit?_lt hb
    have := Text.digit?_lt hc
    have := Text.digit?_lt hd
    dsimp only
    omega
  · cases h

/-- A text that is read as a day writes a date of the calendar. -/
theorem readDay_some {s : String} {day : Int} (h : readDay s = some day) :
    ∃ t : Date, 1 ≤ t.year ∧ t.year ≤ 9999 ∧ t.isValid = true ∧ t.toDay = day := by
  simp only [readDay, Option.bind_eq_bind, Option.bind_eq_some_iff] at h
  obtain ⟨t, ht, hday⟩ := h
  split at hday
  · rename_i hdate
    rw [Bool.and_eq_true, decide_eq_true_eq] at hdate
    exact ⟨t, hdate.1, (dateText?_year ht).2, hdate.2, Option.some.inj hday⟩
  · cases hday

/-- **The days that can be read** are those from the first day of year 1 to the last day there is. -/
theorem readDay_range {s : String} {day : Int} (h : readDay s = some day) : -epoch ≤ day ∧ day ≤ lastDay := by
  obtain ⟨t, hfirst, hlast, hvalid, rfl⟩ := readDay_some h
  obtain ⟨hfrom, hto⟩ := Date.toDay_year hvalid
  have hfrom' := daysBeforeYear_mono hfirst
  have hto' := daysBeforeYear_mono (show t.year + 1 ≤ 10000 by omega)
  have hone : daysBeforeYear 1 = 0 := rfl
  have hend : daysBeforeYear 10000 = lastDay + 1 + epoch := rfl
  omega

/-! ## Printing -/

theorem digit?_digitChar {d : Nat} (h : d < 10) : digit? (Nat.digitChar d) = some d := by
  interval_cases d <;> rfl

theorem toList_twoDigits {n : Nat} (h : n < 100) :
    (twoDigits n).toList = [Nat.digitChar (n / 10), Nat.digitChar (n % 10)] := by
  have hrepr (n : Nat) : (toString n).toList = Nat.toDigits 10 n := Nat.toList_repr
  unfold twoDigits
  split
  · rename_i hsmall
    rw [String.toList_append, hrepr, Nat.toDigits_of_lt_base hsmall, Nat.div_eq_of_lt hsmall, Nat.mod_eq_of_lt hsmall]
    rfl
  · rw [hrepr, Nat.toDigits_of_base_le (by omega) (by omega), Nat.toDigits_of_lt_base (by omega)]
    rfl

theorem toDigits_four {n : Nat} (hlow : 1000 ≤ n) (hhigh : n ≤ 9999) : Nat.toDigits 10 n =
    [Nat.digitChar (n / 1000), Nat.digitChar (n / 100 % 10), Nat.digitChar (n / 10 % 10), Nat.digitChar (n % 10)] := by
  rw [Nat.toDigits_of_base_le (by omega) (by omega), Nat.toDigits_of_base_le (by omega) (by omega),
    Nat.toDigits_of_base_le (by omega) (by omega), Nat.toDigits_of_lt_base (by omega)]
  simp only [Nat.div_div_eq_div_mul]
  rfl

theorem monthText?_twoDigits {m : Nat} (hfirst : 1 ≤ m) (hlast : m ≤ 12) (r : List Char) :
    monthText? ((twoDigits m).toList ++ '-' :: r) = some (m, r) := by
  interval_cases m <;> rfl

theorem dayText?_twoDigits : ∀ d ≤ 31, 1 ≤ d → dayText? (twoDigits d).toList = some d := by decide

theorem day_le {leap : Bool} {m : Nat} (h : m ≤ 12) : daysOfMonth leap m ≤ 31 := by
  have hmonth : ∀ leap, ∀ m ≤ 12, daysOfMonth leap m ≤ 31 := by decide
  exact hmonth leap m h

theorem isBlank_digitChar {d : Nat} (h : d < 10) : isBlank (Nat.digitChar d) = false := by
  interval_cases d <;> rfl

theorem trimBy_eq_self {p : Char → Bool} {cs : List Char} (h : ∀ c ∈ cs, p c = false) : Text.trimBy p cs = cs := by
  have hdrop {cs : List Char} (h : ∀ c ∈ cs, p c = false) : cs.dropWhile p = cs := by
    cases cs with
    | nil => rfl
    | cons c cs => exact List.dropWhile_cons_of_neg (by simp [h c List.mem_cons_self])
  rw [Text.trimBy, hdrop h, hdrop fun c hc => h c (List.mem_reverse.1 hc), List.reverse_reverse]

section
variable {t : Date}

theorem toList_print (hlow : 1000 ≤ t.year) (hhigh : t.year ≤ 9999) : t.print.toList =
    [Nat.digitChar (t.year.toNat / 1000), Nat.digitChar (t.year.toNat / 100 % 10), Nat.digitChar (t.year.toNat / 10 % 10),
      Nat.digitChar (t.year.toNat % 10)] ++ '-' :: ((twoDigits t.month).toList ++ '-' :: (twoDigits t.day).toList) := by
  have hyear : (toString t.year).toList = Nat.toDigits 10 t.year.toNat := by
    obtain ⟨y, hy⟩ := Int.eq_ofNat_of_zero_le (show 0 ≤ t.year by omega)
    rw [hy]
    exact Nat.toList_repr
  rw [← toDigits_four (by omega) (by omega), ← hyear]
  simp [Date.print]

variable (hlow : 1000 ≤ t.year) (hhigh : t.year ≤ 9999) (hvalid : t.isValid = true)
include hlow hhigh hvalid

theorem dateText?_print : dateText? t.print.toList = some t := by
  obtain ⟨hfirst, hlast, hday, hmonth⟩ := t.isValid_iff.1 hvalid
  have hyear : (((t.year.toNat / 1000 * 10 + t.year.toNat / 100 % 10) * 10 + t.year.toNat / 10 % 10) * 10 +
      t.year.toNat % 10 : Nat) = t.year.toNat := by omega
  rw [toList_print hlow hhigh]
  simp only [List.cons_append, List.nil_append, dateText?, digit?_digitChar (show t.year.toNat / 1000 < 10 by omega),
    digit?_digitChar (Nat.mod_lt _ (show 10 > 0 by decide)), monthText?_twoDigits hfirst hlast,
    dayText?_twoDigits t.day (hmonth.trans (day_le hlast)) hday, Option.bind_eq_bind, Option.bind_some, hyear,
    Int.toNat_of_nonneg (show 0 ≤ t.year by omega)]
  rfl

theorem isBlank_print : ∀ c ∈ t.print.toList, isBlank c = false := by
  obtain ⟨-, hlast, -, hmonth⟩ := t.isValid_iff.1 hvalid
  have := hmonth.trans (day_le hlast)
  rw [toList_print hlow hhigh, toList_twoDigits (by omega), toList_twoDigits (by omega)]
  intro c hc
  simp only [List.cons_append, List.nil_append, List.mem_cons, List.not_mem_nil, or_false] at hc
  rcases hc with rfl | rfl | rfl | rfl | rfl | rfl | rfl | rfl | rfl | rfl
  all_goals first | rfl | exact isBlank_digitChar (by omega)

theorem length_print : t.print.length = 10 := by
  obtain ⟨-, hlast, -, hmonth⟩ := t.isValid_iff.1 hvalid
  have := hmonth.trans (day_le hlast)
  rw [← String.length_toList, toList_print hlow hhigh, toList_twoDigits (by omega), toList_twoDigits (by omega)]
  rfl

/-- **A printed date is read as its day.** -/
theorem readDay_print : readDay t.print = some t.toDay := by
  rw [readDay, trimBy_eq_self (isBlank_print hlow hhigh hvalid), dateText?_print hlow hhigh hvalid]
  simp only [Option.bind_eq_bind, Option.bind_some, hvalid, Bool.and_true]
  exact if_pos (by simp; omega)

end

end Calendar
end NoteAgent
