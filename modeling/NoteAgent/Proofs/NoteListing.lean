import Mathlib.Data.List.Nodup
import NoteAgent.Proofs.NoteViews
/-!
# NoteListing — which notes a selection shows, and in which order

A selection is refused where a number does not fit the columns of the store, and only there (`select_ok`,
`select_refused`).  Otherwise it shows the notes that are asked for, each of them once, newest first; of equal age the
one that was added last comes first, for numbers of rows rise as notes are added (`listing_select`).  A count is the
length of a selection (`count_eq_length`).
-/
namespace NoteAgent

theorem fitsColumn_iff {n : Int} :
    fitsColumn n = true ↔ -9223372036854775808 ≤ n ∧ n ≤ 9223372036854775807 := by simp [fitsColumn]

theorem sublist_or_sublist {α : Type} {a b : α} {l : List α} (ha : a ∈ l) (hb : b ∈ l) (hne : a ≠ b) :
    [a, b].Sublist l ∨ [b, a].Sublist l := by
  induction l with
  | nil => cases ha
  | cons x l ih =>
    rcases List.mem_cons.1 ha with rfl | ha'
    · have hb' : b ∈ l := (List.mem_cons.1 hb).resolve_left (Ne.symm hne)
      exact .inl ((List.singleton_sublist.2 hb').cons_cons a)
    · rcases List.mem_cons.1 hb with rfl | hb'
      · exact .inr ((List.singleton_sublist.2 ha').cons_cons b)
      · exact (ih ha' hb').imp (.cons x) (.cons x)

namespace Note

namespace Filter

/-- A note is one of the owner's that the filter asks for. -/
structure Asks (f : Filter) (owner : Int) (n : Note) : Prop where
  owner : n.owner = owner
  contains : ∀ text, f.contains = some text → text.toList <:+: n.content.toList
  since : ∀ moment, f.createdFrom = some moment → moment ≤ n.created
  upTo : ∀ moment, f.createdTo = some moment → n.created ≤ moment
  status : ∀ status, f.status = some status → n.status = status

def numbers (f : Filter) (owner : Int) : List Int := owner :: f.createdFrom.toList ++ f.createdTo.toList

/-- The numbers in a question fit the columns of the store. -/
def Fits (f : Filter) (owner : Int) : Prop := ∀ n ∈ f.numbers owner, fitsColumn n = true

instance (f : Filter) (owner : Int) : Decidable (f.Fits owner) := inferInstanceAs (Decidable (∀ _ ∈ _, _))

theorem fits_iff {f : Filter} {owner : Int} : f.Fits owner ↔ fitsColumn owner = true ∧
    (∀ moment, f.createdFrom = some moment → fitsColumn moment = true) ∧
    ∀ moment, f.createdTo = some moment → fitsColumn moment = true := by
  simp [Fits, numbers, or_imp, forall_and]

end Filter

theorem checkColumns_of_fits {ns : List Int} (h : ∀ n ∈ ns, fitsColumn n = true) : checkColumns ns = .ok () := by
  rw [checkColumns, if_pos (List.all_eq_true.2 h)]

theorem checkColumns_of_not_fits {ns : List Int} (h : ¬∀ n ∈ ns, fitsColumn n = true) :
    checkColumns ns = .error .wideInteger := by
  rw [checkColumns, if_neg fun hall => h (List.all_eq_true.1 hall)]

namespace Table

variable {t : Table} {owner : Int} {f : Filter} {ns : List Note}

theorem admits_iff (owner : Int) (f : Filter) (n : Note) : Filter.admits owner f n = true ↔ f.Asks owner n := by
  have htext : ∀ text, (text.isEmpty || Text.contains n.content text) = true ↔ text.toList <:+: n.content.toList := by
    intro text
    rw [Bool.or_eq_true, Text.contains_iff, String.isEmpty_iff]
    refine or_iff_right_of_imp ?_
    rintro rfl
    exact List.nil_infix
  simp only [Filter.admits, Bool.and_eq_true, beq_iff_eq, Option.all_eq_true, decide_eq_true_eq, htext,
    eq_comm (b := n.status)]
  constructor
  · rintro ⟨⟨⟨⟨howner, hcontains⟩, hsince⟩, hupTo⟩, hstatus⟩
    exact ⟨howner, hcontains, hsince, hupTo, hstatus⟩
  · rintro ⟨howner, hcontains, hsince, hupTo, hstatus⟩
    exact ⟨⟨⟨⟨howner, hcontains⟩, hsince⟩, hupTo⟩, hstatus⟩

/-! ## Answers -/

theorem select_ok (t : Table) (h : f.Fits owner) : ∃ ns, t.select owner f = .ok ns := by
  change ∃ ns, (checkColumns (f.numbers owner) >>= _) = .ok ns
  rw [checkColumns_of_fits h]
  exact ⟨_, rfl⟩

theorem select_refused (t : Table) (h : ¬f.Fits owner) : t.select owner f = .error .wideInteger := by
  change (checkColumns (f.numbers owner) >>= _) = _
  rw [checkColumns_of_not_fits h]
  rfl

/-- **A count is the length of the selection**, or both are refused. -/
theorem count_eq_length (t : Table) (owner : Int) (status : String) :
    t.count owner status = (t.select owner { status := some status }).map List.length := by
  have hfits : ({ status := some status } : Filter).Fits owner ↔ ∀ n ∈ [owner], fitsColumn n = true := Iff.rfl
  by_cases h : ({ status := some status } : Filter).Fits owner
  · obtain ⟨ns, hns⟩ := t.select_ok h
    have hlength : (t.of owner).countP (fun n => n.status == status) = ns.length := by
      rw [(perm_of_select hns).length_eq, ← List.countP_eq_length_filter]
      refine List.countP_congr fun n hn => ?_
      obtain ⟨e, -, howner, rfl⟩ := mem_of.1 hn
      simp only [Filter.admits, howner, beq_self_eq_true, Option.all_none, Option.all_some, Bool.and_self, Bool.true_and,
        beq_iff_eq]
      exact eq_comm
    rw [count_eq, checkColumns_of_fits (hfits.1 h), hns]
    exact congrArg Except.ok hlength
  · rw [count_eq, checkColumns_of_not_fits fun hall => h (hfits.2 hall), t.select_refused h]
    rfl

/-! ## Listings -/

/-- The first note was added before the second. -/
def AddedBefore (t : Table) (a b : Note) : Prop := [a, b].Sublist t.toList

/-- **A listing of the notes of a table that are asked for**: all of them, each once, newest first, and of equal age the
one that was added last first. -/
structure Listing (t : Table) (asked : Note → Prop) (ns : List Note) : Prop where
  mem : ∀ n, n ∈ ns ↔ n ∈ t.toList ∧ asked n
  once : (ns.map (·.uid)).Nodup
  ordered : ns.Pairwise fun a b => b.created < a.created ∨ b.created = a.created ∧ t.AddedBefore b a

theorem Listing.congr {asked asked' : Note → Prop} (h : t.Listing asked ns) (hasked : ∀ n, asked n ↔ asked' n) :
    t.Listing asked' ns := by
  rwa [show asked' = asked from funext fun n => propext (hasked n).symm]

theorem newerOrEqual_trans (a b c : Entry) (hab : newerOrEqual a b = true) (hbc : newerOrEqual b c = true) :
    newerOrEqual a c = true := by
  simp only [newerOrEqual, Bool.or_eq_true, Bool.and_eq_true, decide_eq_true_eq, beq_iff_eq] at hab hbc ⊢
  omega

theorem newerOrEqual_total (a b : Entry) : (newerOrEqual a b || newerOrEqual b a) = true := by
  simp only [newerOrEqual, Bool.or_eq_true, Bool.and_eq_true, decide_eq_true_eq, beq_iff_eq]
  omega

theorem Sound.addedBefore (ht : t.Sound) {a b : Entry} (ha : a ∈ t.entries) (hb : b ∈ t.entries) (hne : a ≠ b)
    (hrow : a.row ≤ b.row) : t.AddedBefore a.note b.note := by
  rcases sublist_or_sublist ha hb hne with hab | hba
  · exact hab.map (·.note)
  · have hlt : b.row < a.row := List.pairwise_iff_forall_sublist.1 ht.rising hba
    omega

/-- The rows that a filter admits, sorted, stand newest first, and of equal age in the reverse of the order of adding. -/
theorem Sound.sorted (ht : t.Sound) {es : List Entry} (hes : es.Sublist t.entries) :
    (es.mergeSort newerOrEqual).Pairwise fun a b =>
      b.note.created < a.note.created ∨ b.note.created = a.note.created ∧ t.AddedBefore b.note a.note := by
  have hmem : ∀ e ∈ es.mergeSort newerOrEqual, e ∈ t.entries := fun e he =>
    hes.subset ((List.mergeSort_perm _ _).mem_iff.1 he)
  have hnodup : (es.mergeSort newerOrEqual).Nodup := (List.mergeSort_perm _ _).symm.nodup
    ((ht.rising.imp fun hlt heq => by rw [heq] at hlt; omega).sublist hes)
  refine ((List.pairwise_mergeSort newerOrEqual_trans newerOrEqual_total es).and hnodup).imp_of_mem ?_
  rintro a b ha hb ⟨hle, hne⟩
  simp only [newerOrEqual, Bool.or_eq_true, Bool.and_eq_true, decide_eq_true_eq, beq_iff_eq] at hle
  -- numbers of rows say what the ages leave open, since they rise as notes are added
  rcases hle with hnewer | ⟨hage, hrow⟩
  · exact .inl hnewer
  · exact .inr ⟨hage.symm, ht.addedBefore (hmem b hb) (hmem a ha) (Ne.symm hne) hrow⟩

theorem mem_select_iff (h : t.select owner f = .ok ns) {n : Note} : n ∈ ns ↔ n ∈ t.toList ∧ f.Asks owner n := by
  rw [(perm_of_select h).mem_iff, List.mem_filter, admits_iff, mem_of]
  constructor
  · rintro ⟨⟨e, he, -, rfl⟩, hasks⟩
    exact ⟨List.mem_map_of_mem he, hasks⟩
  · rintro ⟨hn, hasks⟩
    obtain ⟨e, he, rfl⟩ := List.mem_map.1 hn
    exact ⟨⟨e, he, hasks.owner, rfl⟩, hasks⟩

/-- **A selection is a listing of the owner's notes that the filter asks for.** -/
theorem listing_select (ht : t.Sound) (h : t.select owner f = .ok ns) : t.Listing (f.Asks owner) ns := by
  constructor
  case mem => exact fun n => mem_select_iff h
  case once =>
    rw [((perm_of_select h).map _).nodup_iff]
    exact (ht.keyed.uid_nodup owner).sublist (List.filter_sublist.map _)
  case ordered =>
    unfold select at h
    cases hcheck : checkColumns (owner :: f.createdFrom.toList ++ f.createdTo.toList) with
    | error e => rw [hcheck] at h; cases h
    | ok u =>
      rw [hcheck] at h
      cases h
      exact List.pairwise_map.2 (ht.sorted List.filter_sublist)

end Table
end Note
end NoteAgent
