import Mathlib.Data.List.DropRight
import NoteAgent.Json.Reader
import NoteAgent.Json.Writer
/-!
# NumberText — what is written of a number is read as a number

A reader takes the longest text of a number, so what follows must not go on with it (`Stops`).  The digits of a whole
number are read as that number (`number_digits`).  A real number is written in one of three shapes, with decimal places,
with an exponent or with both, and each of them is read as a real number again (`RealText.number`); which one it is, is
left open.
-/
namespace NoteAgent
namespace Json

open Numeral (Layout)

/-- No digit stands first. -/
def NoDigit (r : List Char) : Prop := ∀ c ∈ r.head?, c.isDigit = false

/-- Nothing stands first that would go on with a number. -/
def Stops (r : List Char) : Prop := NoDigit r ∧ r.head? ≠ some '.' ∧ r.head? ≠ some 'e' ∧ r.head? ≠ some 'E'

/-- Digits, at least one. -/
structure Digits (ds : List Char) : Prop where
  nonempty : ds ≠ []
  digits : ∀ d ∈ ds, d.isDigit = true

theorem stops_nil : Stops [] := by simp [Stops, NoDigit]

theorem stops_cons {c : Char} (hdigit : c.isDigit = false) (hpoint : c ≠ '.') (hsmall : c ≠ 'e') (hlarge : c ≠ 'E')
    (r : List Char) : Stops (c :: r) := by simp [Stops, NoDigit, hdigit, hpoint, hsmall, hlarge]

theorem noDigit_cons {c : Char} (h : c.isDigit = false) (r : List Char) : NoDigit (c :: r) := by simp [NoDigit, h]

/-! ## The parts of a number -/

section Parts

variable {ds r : List Char}

theorem takeWhile_digits (h : ∀ d ∈ ds, d.isDigit = true) (hr : NoDigit r) :
    (ds ++ r).takeWhile Char.isDigit = ds := by
  rw [List.takeWhile_append_of_pos h]
  cases r with
  | nil => simp
  | cons c r => simp [hr c rfl]

theorem dropWhile_digits (h : ∀ d ∈ ds, d.isDigit = true) (hr : NoDigit r) : (ds ++ r).dropWhile Char.isDigit = r := by
  rw [List.dropWhile_append_of_pos h]
  cases r with
  | nil => rfl
  | cons c r => simp [hr c rfl]

/-- Digits that stand before a point: a zero alone, or digits that do not start with one. -/
structure Whole (ds : List Char) : Prop extends Digits ds where
  plain : ds = ['0'] ∨ ds.head? ≠ some '0'

theorem Whole.wholePart (h : Whole ds) (hr : NoDigit r) : wholePart (ds ++ r) = (ds, r) := by
  rcases h.plain with rfl | hzero
  · rfl
  · obtain ⟨d, ds, rfl⟩ := List.exists_cons_of_ne_nil h.nonempty
    have hd : d ≠ '0' := by simpa using hzero
    rw [Json.wholePart, takeWhile_digits h.digits hr, dropWhile_digits h.digits hr]
    simp [hd]

theorem Digits.places (h : Digits ds) (hr : NoDigit r) : places ('.' :: (ds ++ r)) = (ds, r) := by
  obtain ⟨d, ds, rfl⟩ := List.exists_cons_of_ne_nil h.nonempty
  have hd : d.isDigit = true := h.digits d (by simp)
  rw [List.cons_append, Json.places, if_pos hd, ← List.cons_append, takeWhile_digits h.digits hr,
    dropWhile_digits h.digits hr]

theorem places_none (h : r.head? ≠ some '.') : places r = ([], r) := by
  cases r with
  | nil => rfl
  | cons c r =>
    have hc : c ≠ '.' := by simpa using h
    rw [places]
    intro _ _ heq
    exact absurd (List.cons.inj heq).1 hc

/-- The text of an exponent: a sign and digits. -/
inductive ExponentText : List Char → Prop
  | plus {ds : List Char} (h : Digits ds) : ExponentText ('e' :: '+' :: ds)
  | minus {ds : List Char} (h : Digits ds) : ExponentText ('e' :: '-' :: ds)

theorem ExponentText.exponent (h : ExponentText ds) :
    ∃ power, ∀ r, NoDigit r → exponent (ds ++ r) = (some power, r) := by
  cases h with
  | @plus es h =>
    refine ⟨Numeral.signed false (Numeral.ofDigits es), fun r hr => ?_⟩
    simp [Json.exponent, Numeral.splitSign, takeWhile_digits h.digits hr, dropWhile_digits h.digits hr, h.nonempty]
  | @minus es h =>
    refine ⟨Numeral.signed true (Numeral.ofDigits es), fun r hr => ?_⟩
    simp [Json.exponent, Numeral.splitSign, takeWhile_digits h.digits hr, dropWhile_digits h.digits hr, h.nonempty]

theorem ExponentText.head (h : ExponentText ds) (r : List Char) : (ds ++ r).head? = some 'e' := by cases h <;> rfl

theorem ExponentText.noDigit (h : ExponentText ds) (r : List Char) : NoDigit (ds ++ r) := by
  intro c hc
  rw [h.head r] at hc
  cases hc
  rfl

theorem exponent_none (hsmall : r.head? ≠ some 'e') (hlarge : r.head? ≠ some 'E') : exponent r = (none, r) := by
  cases r with
  | nil => rfl
  | cons c r =>
    have hc : c ≠ 'e' ∧ c ≠ 'E' := by simpa using And.intro hsmall hlarge
    simp [exponent, hc]

end Parts

/-! ## Numbers -/

variable {rules : Rules} {negative : Bool} {r : List Char}

/-- Digits that are not too many are read as the whole number they write. -/
theorem number_digits {ds : List Char} (h : Whole ds) (hshort : rules.isTooLong negative false ds.length = false)
    (hr : Stops r) :
    number rules negative (ds ++ r) = .ok (.int (Numeral.signed negative (Numeral.ofDigits ds)), r) := by
  simp only [number, h.wholePart hr.1, places_none hr.2.1, exponent_none hr.2.2.1 hr.2.2.2,
    List.isEmpty_eq_false_iff.2 h.nonempty, List.isEmpty_nil, Option.isSome_none, Bool.not_true, Bool.or_false, hshort,
    Bool.false_eq_true, if_false]

/-- The text of a real number without a sign. -/
inductive RealText : List Char → Prop
  | places {ws ds : List Char} (whole : Whole ws) (short : ws.length ≤ 16) (places : Digits ds) :
    RealText (ws ++ '.' :: ds)
  | exponent {ws es : List Char} (whole : Whole ws) (short : ws.length ≤ 16) (exponent : ExponentText es) :
    RealText (ws ++ es)
  | both {ws ds es : List Char} (whole : Whole ws) (short : ws.length ≤ 16) (places : Digits ds)
    (exponent : ExponentText es) : RealText (ws ++ '.' :: (ds ++ es))

theorem isTooLong_of_le {digits : Nat} (h : digits ≤ 16) : rules.isTooLong negative true digits = false := by
  have hsign : negative.toNat ≤ 1 := Bool.toNat_le negative
  unfold Rules.isTooLong Numeral.maxDigits
  split
  · simpa using by omega
  · rfl

/-- The double that the parts of a real number stand for. -/
def realOf (negative : Bool) (whole decimals : List Char) (power : Int) : Float :=
  let x := Numeral.ofDecimal (Numeral.ofDigits (whole ++ decimals)) (power - decimals.length)
  if negative then -x else x

/-- A number with decimal places or an exponent is a real one. -/
theorem number_real {cs ws ds r₁ r₂ : List Char} {power? : Option Int} {power : Int} (hwhole : wholePart cs = (ws, r₁))
    (hplaces : places r₁ = (ds, r₂)) (hexponent : exponent r₂ = (power?, r)) (hpower : power?.getD 0 = power)
    (hw : Whole ws) (hshort : ws.length ≤ 16) (hreal : (!ds.isEmpty || power?.isSome) = true) :
    number rules negative cs = .ok (.real (realOf negative ws ds power), r) := by
  simp only [number, realOf, hwhole, hplaces, hexponent, hpower, hreal, isTooLong_of_le hshort,
    List.isEmpty_eq_false_iff.2 hw.nonempty, Bool.false_eq_true, if_false, if_true]

/-- **The text of a real number is read as a real number**, up to its end. -/
theorem RealText.number {cs : List Char} (h : RealText cs) (negative : Bool) :
    ∃ y, ∀ rules r, Stops r → number rules negative (cs ++ r) = .ok (.real y, r) := by
  cases h with
  | @places ws ds hw hshort hd =>
    refine ⟨realOf negative ws ds 0, fun rules r hr => ?_⟩
    rw [List.append_assoc]
    exact number_real (hw.wholePart (noDigit_cons rfl _)) (hd.places hr.1) (exponent_none hr.2.2.1 hr.2.2.2) rfl hw
      hshort (by simp [hd.nonempty])
  | @exponent ws es hw hshort he =>
    obtain ⟨power, hpower⟩ := he.exponent
    refine ⟨realOf negative ws [] power, fun rules r hr => ?_⟩
    rw [List.append_assoc]
    exact number_real (hw.wholePart (he.noDigit r)) (places_none (by simp [he.head r])) (hpower r hr.1) rfl hw hshort
      rfl
  | @both ws ds es hw hshort hd he =>
    obtain ⟨power, hpower⟩ := he.exponent
    refine ⟨realOf negative ws ds power, fun rules r hr => ?_⟩
    rw [List.append_assoc, List.cons_append, List.append_assoc]
    exact number_real (hw.wholePart (noDigit_cons rfl _)) (hd.places (he.noDigit r)) (hpower r hr.1) rfl hw hshort
      (by simp)

/-! ## Digits -/

theorem Digits.append {ds es : List Char} (hd : ∀ d ∈ ds, d.isDigit = true) (he : Digits es) : Digits (ds ++ es) :=
  ⟨by simp [he.nonempty], List.forall_mem_append.2 ⟨hd, he.digits⟩⟩

theorem isDigit_zeros (n : Nat) : ∀ d ∈ List.replicate n '0', d.isDigit = true := fun d hd => by
  rw [(List.mem_replicate.1 hd).2]
  rfl

theorem digits_toDigits (n : Nat) : Digits (Nat.toDigits 10 n) :=
  ⟨Nat.toDigits_ne_nil, fun _ hd => Nat.isDigit_of_mem_toDigits (by decide) (by decide) hd⟩

/-- The digits of a number above zero start with no zero, for the first of them stays when the last is taken off. -/
theorem head?_toDigits {n : Nat} (h : 0 < n) : (Nat.toDigits 10 n).head? ≠ some '0' := by
  induction n using Nat.strong_induction_on with
  | _ n ih =>
    rcases Nat.lt_or_ge n 10 with hn | hn
    · have hall : ∀ d < 10, 0 < d → Nat.digitChar d ≠ '0' := by decide
      simpa [Nat.toDigits_of_lt_base hn] using hall n hn h
    · rw [Nat.toDigits_of_base_le (by decide) hn, List.head?_append_of_ne_nil _ Nat.toDigits_ne_nil]
      exact ih (n / 10) (by omega) (by omega)

theorem whole_toDigits (n : Nat) : Whole (Nat.toDigits 10 n) := by
  refine ⟨digits_toDigits n, ?_⟩
  rcases Nat.eq_zero_or_pos n with rfl | hn
  · exact .inl rfl
  · exact .inr (head?_toDigits hn)

theorem ofDigits_toDigits (n : Nat) : Numeral.ofDigits (Nat.toDigits 10 n) = n := Nat.ofDigitChars_ten_toDigits

/-- Digits that do not start with a zero. -/
structure Significant (ds : List Char) : Prop extends Digits ds where
  head : ds.head? ≠ some '0'

theorem Significant.whole {ds : List Char} (h : Significant ds) : Whole ds := ⟨h.toDigits, .inr h.head⟩

theorem Significant.of_prefix {ds es : List Char} (h : Significant ds) (hes : es ≠ []) (hpart : es <+: ds) :
    Significant es := by
  obtain ⟨e, es, rfl⟩ := List.exists_cons_of_ne_nil hes
  obtain ⟨fs, rfl⟩ := hpart
  exact ⟨⟨hes, fun d hd => h.digits d (List.mem_append_left _ hd)⟩, h.head⟩

theorem Significant.append {ds es : List Char} (h : Significant ds) (hes : ∀ e ∈ es, e.isDigit = true) :
    Significant (ds ++ es) := by
  refine ⟨⟨by simp [h.nonempty], List.forall_mem_append.2 ⟨h.digits, hes⟩⟩, ?_⟩
  rw [List.head?_append_of_ne_nil _ h.nonempty]
  exact h.head

/-! ## Layouts -/

theorem exponentText_exponent {l : Layout} (hplus : l.plus = "+") (e : Int) : ExponentText (l.exponent e) := by
  have hdigits : Digits (List.replicate (l.exponentDigits - (Nat.toDigits 10 e.natAbs).length) '0' ++
      Nat.toDigits 10 e.natAbs) := .append (isDigit_zeros _) (digits_toDigits _)
  unfold Layout.exponent
  split
  · exact .minus hdigits
  · rw [hplus]
    exact .plus hdigits

/-- However the point comes to stand, what is written is the text of a real number. -/
theorem realText_place {l : Layout} (hplus : l.plus = "+") (hupTo : l.upTo ≤ 16) {ds : List Char} (h : Significant ds)
    (point : Int) : RealText (l.place ds point) := by
  have hzero : Digits ['0'] := digits_toDigits 0
  unfold Layout.place
  split
  next hplain =>
    rw [Bool.and_eq_true, decide_eq_true_eq, decide_eq_true_eq] at hplain
    split
    · have hwhole : Whole ['0'] := ⟨hzero, .inl rfl⟩
      exact RealText.places hwhole (by decide) (.append (isDigit_zeros _) h.toDigits)
    next hpos =>
    split
    next hlong =>
      exact .places (h.append (isDigit_zeros _)).whole (by simp; omega) hzero
    next hshort =>
      have htake : ds.take point.natAbs ≠ [] := by simp [h.nonempty]; omega
      have hdrop : ds.drop point.natAbs ≠ [] := by simp; omega
      exact .places (h.of_prefix htake (List.take_prefix _ _)).whole (by simp; omega)
        ⟨hdrop, fun d hd => h.digits d (List.mem_of_mem_drop hd)⟩
  next =>
    have hexponent := exponentText_exponent hplus (point - 1)
    obtain ⟨d, ds, rfl⟩ := List.exists_cons_of_ne_nil h.nonempty
    have hfirst : Significant [d] := h.of_prefix (by simp) ⟨ds, rfl⟩
    cases ds with
    | nil => exact .exponent hfirst.whole (by simp) hexponent
    | cons e ds =>
      have hrest : Digits (e :: ds) := ⟨by simp, fun f hf => h.digits f (List.mem_cons_of_mem _ hf)⟩
      exact RealText.both hfirst.whole (by simp) hrest hexponent

/-! ## Doubles -/

theorem fraction_pos {m : Nat} (h : 0 < m) (q : Int) :
    0 < (Numeral.fraction m q).1 ∧ 0 < (Numeral.fraction m q).2 := by
  have hpow : 0 < Nat.pow 2 q.natAbs := Nat.pow_pos (by decide)
  unfold Numeral.fraction
  split
  · exact ⟨h, hpow⟩
  · exact ⟨Nat.mul_pos h hpow, Nat.one_pos⟩

theorem powTen_pos (e : Int) : 0 < (Numeral.powTen e).1 ∧ 0 < (Numeral.powTen e).2 := by
  have hpow : 0 < Nat.pow 10 e.natAbs := Nat.pow_pos (by decide)
  unfold Numeral.powTen
  split
  · exact ⟨Nat.one_pos, hpow⟩
  · exact ⟨hpow, Nat.one_pos⟩

/-- Zero reads back as no double above it. -/
theorem pos_of_readsBack {m c : Nat} {q e : Int} {lower : Bool} (hm : 0 < m)
    (h : Numeral.readsBack m q lower c e = true) : 0 < c := by
  by_contra hc
  obtain rfl : c = 0 := by omega
  have hlow : 0 < (if lower then Numeral.fraction (4 * m - 1) (q - 2) else Numeral.fraction (2 * m - 1) (q - 1)).1 *
      (Numeral.powTen e).2 := by
    refine Nat.mul_pos ?_ (powTen_pos e).2
    split
    · exact (fraction_pos (by omega) _).1
    · exact (fraction_pos (by omega) _).1
  simp only [Numeral.readsBack, Nat.zero_mul] at h
  split at h
  all_goals
    rw [Bool.and_eq_true, decide_eq_true_eq] at h
    omega

theorem le_roundDiv (num den : Nat) : num / den ≤ Numeral.roundDiv num den := by
  simp only [Numeral.roundDiv]
  split <;> simp

theorem shortestFrom_pos {m : Nat} (hm : 0 < m) (q : Int) (lower : Bool) (point : Int) (fuel digits : Nat) :
    0 < (Numeral.shortestFrom m q lower point fuel digits).1 := by
  induction fuel generalizing digits with
  -- Without fuel the digits are those of `m` itself.
  | zero => exact hm
  | succ fuel ih =>
    simp only [Numeral.shortestFrom]
    split
    next hboth => exact Nat.lt_of_lt_of_le (pos_of_readsBack hm (Bool.and_eq_true_iff.1 hboth).1) (le_roundDiv _ _)
    split
    next hfloor => exact pos_of_readsBack hm hfloor
    split
    · exact Nat.succ_pos _
    · exact ih _

theorem shortest_eq {m : Nat} (hm : 0 < m) (q : Int) (lower : Bool) :
    ∃ c, 0 < c ∧ (Numeral.shortest m q lower).1 = (Nat.toDigits 10 c).rdropWhile (· == '0') :=
  ⟨_, shortestFrom_pos hm q lower _ 17 1, rfl⟩

/-- Zeros are taken off at the end of the digits only, and the first digit is none. -/
theorem significant_shortest {m : Nat} (hm : 0 < m) (q : Int) (lower : Bool) :
    Significant (Numeral.shortest m q lower).1 := by
  obtain ⟨c, hc, hkept⟩ := shortest_eq hm q lower
  have hdigits : Significant (Nat.toDigits 10 c) := ⟨digits_toDigits c, head?_toDigits hc⟩
  rw [hkept]
  refine hdigits.of_prefix (fun hnone => ?_) (List.rdropWhile_prefix (· == '0') _)
  have hall := List.rdropWhile_eq_nil_iff.1 hnone
  obtain ⟨d, ds, hds⟩ := List.exists_cons_of_ne_nil hdigits.nonempty
  have hhead := hdigits.head
  rw [hds] at hall hhead
  exact hhead (congrArg some (by simpa using hall d (by simp)))

/-- What is written of a double: a name, or the text of a real number, after a minus at most. -/
theorem write_cases {l : Layout} (hplus : l.plus = "+") (hupTo : l.upTo ≤ 16) (x : Float) :
    l.write x ∈ [l.nan, l.infinity, l.minusInfinity] ∨
      ∃ cs, RealText cs ∧ ((l.write x).toList = cs ∨ (l.write x).toList = '-' :: cs) := by
  unfold Layout.write
  split
  · simp
  · split <;> simp
  next negative m q lower _ =>
    right
    have hbody : RealText (if m == 0 then ['0', '.', '0'] else
        l.place (Numeral.shortest m q lower).1 (Numeral.shortest m q lower).2) := by
      split
      · exact .places (whole_toDigits 0) (by decide) (digits_toDigits 0)
      next hm =>
        have hpos : 0 < m := Nat.pos_of_ne_zero (by simpa using hm)
        exact realText_place hplus hupTo (significant_shortest hpos q lower) _
    refine ⟨_, hbody, ?_⟩
    cases negative <;> simp

theorem toList_toString (n : Int) :
    (toString n).toList = if n < 0 then '-' :: Nat.toDigits 10 n.natAbs else Nat.toDigits 10 n.natAbs := by
  rw [Int.toString_eq_repr, Int.repr_eq_if]
  by_cases hn : n < 0
  · have habs : (-n).toNat = n.natAbs := by omega
    rw [if_neg (by omega), if_pos hn, String.toList_append, Nat.toList_repr, habs]
    rfl
  · have habs : n.toNat = n.natAbs := by omega
    rw [if_pos (by omega), if_neg hn, Nat.toList_repr, habs]

theorem Digits.head {ds : List Char} (h : Digits ds) : ∃ d es, ds = d :: es ∧ d.isDigit = true := by
  obtain ⟨d, es, rfl⟩ := List.exists_cons_of_ne_nil h.nonempty
  exact ⟨d, es, rfl, h.digits d (by simp)⟩

/-- The sign and the digits of a whole number are read off its text. -/
theorem splitSign_toString (n : Int) :
    Numeral.splitSign (toString n).toList = (decide (n < 0), Nat.toDigits 10 n.natAbs) := by
  rw [toList_toString]
  by_cases hn : n < 0
  · rw [if_pos hn, decide_eq_true hn, Numeral.splitSign]
  · rw [if_neg hn, decide_eq_false hn]
    obtain ⟨d, es, hds, hd⟩ := (digits_toDigits n.natAbs).head
    rw [hds, Numeral.splitSign]
    all_goals
      rintro cs ⟨⟩
      cases hd

theorem signed_natAbs (n : Int) : Numeral.signed (n < 0) n.natAbs = n := by
  by_cases hn : n < 0
  · rw [Numeral.signed, decide_eq_true hn, if_pos rfl]
    omega
  · rw [Numeral.signed, decide_eq_false hn, if_neg Bool.false_ne_true]
    omega

/-- **Two whole numbers have two texts.** -/
theorem toString_injective : Function.Injective (toString : Int → String) := fun a b h => by
  have hsplit := splitSign_toString a
  rw [h, splitSign_toString b, Prod.mk.injEq, decide_eq_decide] at hsplit
  have habs : a.natAbs = b.natAbs := by rw [← ofDigits_toDigits a.natAbs, ← hsplit.2, ofDigits_toDigits]
  rw [← signed_natAbs a, ← signed_natAbs b, habs, decide_eq_decide.2 hsplit.1]

theorem RealText.head {cs : List Char} (h : RealText cs) : ∃ d es, cs = d :: es ∧ d.isDigit = true := by
  cases h with
  | places hw | exponent hw | both hw =>
    obtain ⟨d, es, rfl, hd⟩ := hw.head
    exact ⟨d, _, rfl, hd⟩

end Json
end NoteAgent
