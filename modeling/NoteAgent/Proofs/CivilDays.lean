import NoteAgent.Calendar.Stamp
/-!
# CivilDays — the days of the calendar, counted and dated

The years lie one after another on the line of days (`daysBeforeYear_succ`), and so do the months of a year.  A day is
dated by estimating its year from the mean length of a year: the days before a year are never two days away from so many
mean years (`daysBeforeYear_near`), so the estimate is mended by one year at most (`yearOf_spec`).  The date of a day is
a date of the calendar, and counting its days gives the day again (`toDay_ofDay`).
-/
namespace NoteAgent
namespace Calendar

/-! ## Years -/

theorem isLeap_iff (y : Int) : isLeap y = true ↔ y % 4 = 0 ∧ (y % 100 ≠ 0 ∨ y % 400 = 0) := by simp [isLeap]

theorem daysBeforeYear_succ (y : Int) : daysBeforeYear (y + 1) = daysBeforeYear y + 365 + (isLeap y).toNat := by
  have hleap := isLeap_iff y
  unfold daysBeforeYear
  cases h : isLeap y with
  | true =>
    have h := hleap.1 h
    rw [Bool.toNat_true]
    omega
  | false =>
    have h : ¬(y % 4 = 0 ∧ (y % 100 ≠ 0 ∨ y % 400 = 0)) := fun hy => Bool.false_ne_true (h.symm.trans (hleap.2 hy))
    rw [Bool.toNat_false]
    omega

theorem daysBeforeYear_mono {y z : Int} (h : y ≤ z) : daysBeforeYear y ≤ daysBeforeYear z := by
  unfold daysBeforeYear
  omega

/-- The days before a year are those of so many mean years, give or take less than two days. -/
theorem daysBeforeYear_near (y : Int) :
    400 * daysBeforeYear y ≤ 146097 * (y - 1) + 396 ∧ 146097 * (y - 1) ≤ 400 * daysBeforeYear y + 699 := by
  unfold daysBeforeYear
  omega

/-- **The year of a day holds the day.** -/
theorem yearOf_spec (n : Int) : daysBeforeYear (yearOf n) ≤ n ∧ n < daysBeforeYear (yearOf n + 1) := by
  have hmean : 146097 * (n * 400 / 146097) ≤ n * 400 ∧ n * 400 < 146097 * (n * 400 / 146097) + 146097 := by omega
  unfold yearOf
  generalize n * 400 / 146097 = k at hmean
  -- the year of the estimate has begun by then, and the next but one has not
  have hlow := daysBeforeYear_near (k + 1)
  have hhigh := daysBeforeYear_near (k + 1 + 1 + 1)
  dsimp only
  split
  · omega
  · split <;> omega

theorem yearOf_le_iff {n y : Int} : yearOf n ≤ y ↔ n < daysBeforeYear (y + 1) := by
  obtain ⟨hfrom, hto⟩ := yearOf_spec n
  constructor
  · intro h
    have := daysBeforeYear_mono (show yearOf n + 1 ≤ y + 1 by omega)
    omega
  · intro h
    by_cases hle : yearOf n ≤ y
    · exact hle
    · have := daysBeforeYear_mono (show y + 1 ≤ yearOf n by omega)
      omega

/-! ## Months -/

/-- What the search for a month has come to when it has gone through the first `k`: the last that has begun by day `n`. -/
theorem month_search (leap : Bool) (n : Nat) (k : Nat) :
    let m := (List.range k).foldl (fun m i => if daysBeforeMonth leap (i + 1) ≤ n then i + 1 else m) 1
    1 ≤ m ∧ m ≤ max 1 k ∧ daysBeforeMonth leap m ≤ n ∧ ∀ j, m < j → j ≤ k → n < daysBeforeMonth leap j := by
  induction k with
  | zero => exact ⟨Nat.le_refl 1, Nat.le_refl 1, Nat.zero_le n, fun j hj hk => by omega⟩
  | succ k ih =>
    rw [List.range_succ, List.foldl_append]
    simp only [List.foldl_cons, List.foldl_nil]
    obtain ⟨hpos, hle, hbegun, hlater⟩ := ih
    split
    · rename_i hnext
      exact ⟨by omega, by omega, hnext, fun j hj hk => by omega⟩
    · rename_i hnext
      refine ⟨hpos, by omega, hbegun, fun j hj hk => ?_⟩
      rcases Nat.lt_or_eq_of_le hk with hk | rfl
      · exact hlater j hj (by omega)
      · omega

/-- **The month of a day holds the day.** -/
theorem monthOf_spec {leap : Bool} {n : Nat} (h : n < 365 + leap.toNat) :
    1 ≤ monthOf leap n ∧ monthOf leap n ≤ 12 ∧ daysBeforeMonth leap (monthOf leap n) ≤ n ∧
      n < daysBeforeMonth leap (monthOf leap n + 1) := by
  obtain ⟨hpos, hle, hbegun, hlater⟩ := month_search leap n 12
  refine ⟨hpos, hle, hbegun, ?_⟩
  rcases Nat.lt_or_eq_of_le hle with hlt | hlast
  · exact hlater _ (Nat.lt_succ_self _) hlt
  · rw [monthOf, hlast]
    cases leap <;> exact h

theorem day_le_year {leap : Bool} {m d : Nat} (hlast : m ≤ 12) (hday : d ≤ daysOfMonth leap m) :
    daysBeforeMonth leap m + d ≤ 365 + leap.toNat := by
  have hmonth : ∀ leap, ∀ m ≤ 12, daysBeforeMonth leap m + daysOfMonth leap m ≤ 365 + leap.toNat := by decide
  have := hmonth leap m hlast
  omega

/-! ## Dates -/

theorem Date.isValid_iff (t : Date) : t.isValid = true ↔
    1 ≤ t.month ∧ t.month ≤ 12 ∧ 1 ≤ t.day ∧ t.day ≤ daysOfMonth (isLeap t.year) t.month := by
  simp [Date.isValid, and_assoc]

theorem Date.toDay_year {t : Date} (h : t.isValid = true) :
    daysBeforeYear t.year ≤ t.toDay + epoch ∧ t.toDay + epoch < daysBeforeYear (t.year + 1) := by
  obtain ⟨-, hlast, hday, hmonth⟩ := t.isValid_iff.1 h
  have hyear := day_le_year hlast hmonth
  have hnext := daysBeforeYear_succ t.year
  unfold toDay
  omega

theorem dayOfYear_spec (n : Int) : ∃ rest : Nat, (n - daysBeforeYear (yearOf n)).toNat = rest ∧
    (rest : Int) = n - daysBeforeYear (yearOf n) ∧ rest < 365 + (isLeap (yearOf n)).toNat := by
  obtain ⟨hfrom, hto⟩ := yearOf_spec n
  have hnext := daysBeforeYear_succ (yearOf n)
  exact ⟨_, rfl, by omega, by omega⟩

/-- **The date of a day is a date of the calendar.** -/
theorem Date.isValid_ofDay (day : Int) : (Date.ofDay day).isValid = true := by
  obtain ⟨rest, hrest, -, hlt⟩ := dayOfYear_spec (day + epoch)
  obtain ⟨hfirst, hlast, hbegun, hnext⟩ := monthOf_spec hlt
  rw [isValid_iff, ofDay, hrest]
  unfold daysOfMonth
  dsimp only
  exact ⟨hfirst, hlast, by omega, by omega⟩

/-- **The date of a day is the date of that day.** -/
theorem Date.toDay_ofDay (day : Int) : (Date.ofDay day).toDay = day := by
  obtain ⟨rest, hrest, hcount, hlt⟩ := dayOfYear_spec (day + epoch)
  obtain ⟨-, -, hbegun, -⟩ := monthOf_spec hlt
  rw [toDay, ofDay, hrest]
  dsimp only
  omega

/-! ## Moments -/

/-- A moment of the years 1 to 9999. -/
def Printable (t : Int) : Prop := 1 ≤ (Stamp.ofSeconds t).date.year ∧ (Stamp.ofSeconds t).date.year ≤ 9999

theorem year_ofSeconds (t : Int) : (Stamp.ofSeconds t).date.year = yearOf (t / daySeconds + epoch) := rfl

theorem printable_iff {t : Int} : Printable t ↔ -62135596800 ≤ t ∧ t < 253402300800 := by
  have hlow : 1 ≤ yearOf (t / 86400 + 719162) ↔ 0 ≤ t / 86400 + 719162 := by
    have := yearOf_le_iff (n := t / 86400 + 719162) (y := 0)
    rw [show daysBeforeYear (0 + 1) = 0 from rfl] at this
    omega
  have hhigh : yearOf (t / 86400 + 719162) ≤ 9999 ↔ t / 86400 + 719162 < 3652059 := yearOf_le_iff
  unfold Printable
  rw [year_ofSeconds, daySeconds, epoch, hlow, hhigh]
  omega

instance (t : Int) : Decidable (Printable t) := inferInstanceAs (Decidable (_ ∧ _))

theorem stampOf_printable {t : Int} (h : Printable t) : stampOf t = .ok (Stamp.ofSeconds t) := by
  have hrange := printable_iff.1 h
  obtain ⟨hfirst, hlast⟩ := h
  unfold stampOf
  rw [if_neg (by simp; omega), if_neg (by simp; omega), if_neg (by simp; omega)]

/-- **What is shown of a moment is the moment**: a date of the calendar with a time of day. -/
theorem Stamp.ofSeconds_spec (t : Int) : (Stamp.ofSeconds t).date.isValid = true ∧ (Stamp.ofSeconds t).hour < 24 ∧
    (Stamp.ofSeconds t).minute < 60 ∧ (Stamp.ofSeconds t).second < 60 ∧
    (Stamp.ofSeconds t).date.toDay * 86400 + (Stamp.ofSeconds t).hour * 3600 + (Stamp.ofSeconds t).minute * 60 +
      (Stamp.ofSeconds t).second = t := by
  have hday : (Stamp.ofSeconds t).date = Date.ofDay (t / 86400) := rfl
  have hhour : (Stamp.ofSeconds t).hour = (t % 86400).toNat / 3600 := rfl
  have hminute : (Stamp.ofSeconds t).minute = (t % 86400).toNat / 60 % 60 := rfl
  have hsecond : (Stamp.ofSeconds t).second = (t % 86400).toNat % 60 := rfl
  rw [hday, hhour, hminute, hsecond, Date.toDay_ofDay]
  exact ⟨Date.isValid_ofDay _, by omega, by omega, by omega, by omega⟩

end Calendar
end NoteAgent
