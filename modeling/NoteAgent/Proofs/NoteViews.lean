import NoteAgent.Proofs.NoteKeys
/-!
# NoteViews — what the note table shows an owner

What a statement for an owner answers depends on the owner's notes in the order they were added, and on which uids are
taken by notes of others; not on what else these notes are.  Each statement is said in these terms (`select_eq`,
`count_eq`, `find_own`), and two tables that show an owner the same (`SameTo`) still do after any statement.
-/
namespace NoteAgent
namespace Note
namespace Table

/-! ## Rows in the order they were added -/

/-- A uid names one note, and the numbers of the rows rise. -/
structure Sound (t : Table) : Prop where
  keyed : t.Keyed
  rising : t.entries.Pairwise (·.row < ·.row)

theorem Sound.empty : Sound .empty := ⟨.nil, .nil⟩

theorem foldl_max_le (es : List Entry) : ∀ n : Nat, n ≤ es.foldl (fun n e => max n e.row) n ∧
    ∀ e ∈ es, e.row ≤ es.foldl (fun n e => max n e.row) n := by
  induction es with
  | nil => exact fun n => ⟨Nat.le_refl n, fun e he => nomatch he⟩
  | cons x es ih =>
    intro n
    obtain ⟨hn, hes⟩ := ih (max n x.row)
    rw [List.foldl_cons]
    refine ⟨by omega, fun e he => ?_⟩
    rcases List.mem_cons.1 he with rfl | he
    · omega
    · exact hes e he

theorem row_lt_nextRow {t : Table} {e : Entry} (he : e ∈ t.entries) : e.row < t.nextRow :=
  Nat.lt_succ_of_le ((foldl_max_le t.entries 0).2 e he)

theorem Sound.insert {t t' : Table} (ht : t.Sound) {n : Note} (h : t.insert n = .ok t') : t'.Sound := by
  refine ⟨ht.keyed.insert h, ?_⟩
  obtain ⟨-, rfl⟩ := insert_ok h
  rw [List.pairwise_append]
  refine ⟨ht.rising, List.pairwise_singleton _ _, fun a ha b hb => ?_⟩
  rw [List.mem_singleton.1 hb]
  exact row_lt_nextRow ha

theorem revised_row (uid content : String) (now : Int) (e : Entry) : (Entry.revised uid content now e).row = e.row := by
  unfold Entry.revised
  split <;> rfl

theorem Sound.setContent {t t' : Table} (ht : t.Sound) {uid content : String} {now : Int}
    (h : t.setContent uid content now = .ok t') : t'.Sound := by
  refine ⟨ht.keyed.setContent h, ?_⟩
  rw [(setContent_ok h).2, List.pairwise_map]
  exact ht.rising.imp fun hab => by rwa [revised_row, revised_row]

theorem Sound.erase {t : Table} (ht : t.Sound) (uid : String) : (t.erase uid).Sound :=
  ⟨ht.keyed.erase uid, ht.rising.filter _⟩

/-! ## Statements that answer -/

/-- Notes that were added in this order, newest first, and of equal age the one added last first. -/
def newestFirst (ns : List Note) : List Note :=
  (ns.zipIdx.mergeSort fun a b => b.1.created < a.1.created || (a.1.created == b.1.created && b.2 ≤ a.2)).map (·.1)

theorem map_note_mergeSort {es : List Entry} (hes : es.Pairwise (·.row < ·.row)) :
    (es.mergeSort newerOrEqual).map (·.note) = newestFirst (es.map (·.note)) := by
  have hrow : ∀ p ∈ es.zipIdx, ∀ q ∈ es.zipIdx, (q.1.row ≤ p.1.row ↔ q.2 ≤ p.2) := by
    intro p hp q hq
    obtain ⟨i, hi, rfl⟩ := List.mem_iff_getElem.1 hp
    obtain ⟨j, hj, rfl⟩ := List.mem_iff_getElem.1 hq
    rw [List.length_zipIdx] at hi hj
    rw [List.getElem_zipIdx, List.getElem_zipIdx]
    rw [List.pairwise_iff_getElem] at hes
    dsimp only
    rcases Nat.lt_trichotomy i j with hij | rfl | hij
    · have := hes i j hi hj hij
      omega
    · omega
    · have := hes j i hj hi hij
      omega
  -- both sorts are the sort of the rows with their places
  have hleft : es.mergeSort newerOrEqual = (es.zipIdx.mergeSort fun p q => newerOrEqual p.1 q.1).map (·.1) := by
    rw [List.map_mergeSort (s := newerOrEqual) fun _ _ _ _ => rfl, List.zipIdx_map_fst]
  have hright : (es.map (·.note)).zipIdx = es.zipIdx.map fun p => (p.1.note, p.2) := by
    rw [List.zipIdx_map]
    rfl
  rw [hleft, newestFirst, hright, ← List.map_mergeSort (r := fun p q => newerOrEqual p.1 q.1), List.map_map, List.map_map]
  · rfl
  · intro p hp q hq
    have := hrow p hp q hq
    simp [newerOrEqual, this]

/-- The rows that a filter admits for an owner are those of the owner's notes that it admits. -/
theorem map_filter_admits (t : Table) (owner : Int) (f : Filter) :
    (t.entries.filter fun e => Filter.admits owner f e.note).map (·.note) = (t.of owner).filter (Filter.admits owner f) := by
  have hadmits : (t.entries.filter fun e => Filter.admits owner f e.note) =
      (t.entries.filter (·.note.owner == owner)).filter fun e => Filter.admits owner f e.note := by
    rw [List.filter_filter]
    refine List.filter_congr fun e _ => ?_
    by_cases he : e.note.owner = owner
    · simp [he]
    · simp [Filter.admits, he]
  rw [hadmits, of, List.filter_map]
  rfl

/-- **A selection shows an owner the owner's notes**, in an order that only these decide. -/
theorem select_eq {t : Table} (ht : t.Sound) (owner : Int) (f : Filter) : t.select owner f =
    checkColumns (owner :: f.createdFrom.toList ++ f.createdTo.toList) >>= fun _ =>
      .ok (newestFirst ((t.of owner).filter (Filter.admits owner f))) := by
  rw [select, map_note_mergeSort (ht.rising.filter _), map_filter_admits]

/-- A selection has the owner's notes that the filter admits, in another order. -/
theorem perm_of_select {t : Table} {owner : Int} {f : Filter} {ns : List Note} (h : t.select owner f = .ok ns) :
    ns.Perm ((t.of owner).filter (Filter.admits owner f)) := by
  rw [← map_filter_admits]
  unfold select at h
  cases hc : checkColumns (owner :: f.createdFrom.toList ++ f.createdTo.toList) with
  | error e => rw [hc] at h; cases h
  | ok u =>
    rw [hc] at h
    cases h
    exact (List.mergeSort_perm _ _).map _

theorem count_eq (t : Table) (owner : Int) (status : String) : t.count owner status =
    checkColumns [owner] >>= fun _ => .ok ((t.of owner).countP fun n => n.status == status) := by
  have hcount : (t.of owner).countP (fun n => n.status == status) =
      t.entries.countP fun e => e.note.owner == owner && e.note.status == status := by
    rw [of, List.countP_map, List.countP_filter]
    refine List.countP_congr fun e _ => ?_
    simp [and_comm]
  rw [count, hcount]

/-! ## Uids -/

/-- Whether a uid is taken by a note of somebody else. -/
def takenByOther (t : Table) (owner : Int) (uid : String) : Bool := (t.others owner).any (·.note.uid == uid)

theorem any_uid (t : Table) (owner : Int) (uid : String) :
    t.entries.any (·.note.uid == uid) = ((t.of owner).any (·.uid == uid) || t.takenByOther owner uid) := by
  rw [takenByOther, others, of, List.any_map, List.any_filter, List.any_filter, Bool.eq_iff_iff]
  simp only [Bool.or_eq_true, List.any_eq_true, Bool.and_eq_true, bne_iff_ne, beq_iff_eq, Function.comp]
  constructor
  · rintro ⟨e, he, huid⟩
    by_cases howner : e.note.owner = owner
    · exact .inl ⟨e, he, howner, huid⟩
    · exact .inr ⟨e, he, howner, huid⟩
  · rintro (⟨e, he, -, huid⟩ | ⟨e, he, -, huid⟩) <;> exact ⟨e, he, huid⟩

/-- Looking a uid up finds the owner's own note, or one of somebody else, or none. -/
theorem get?_cases {t : Table} (hk : t.Keyed) (owner : Int) (uid : String) :
    (∃ n, t.get? uid = some n ∧ n.owner = owner ∧ (t.of owner).find? (·.uid == uid) = some n) ∨
    (∃ n, t.get? uid = some n ∧ n.owner ≠ owner ∧ (t.of owner).find? (·.uid == uid) = none ∧
      t.takenByOther owner uid = true) ∨
    t.get? uid = none ∧ (t.of owner).find? (·.uid == uid) = none ∧ t.takenByOther owner uid = false := by
  cases hget : t.get? uid with
  | some n =>
    obtain ⟨e, he, rfl, rfl⟩ := get?_some hget
    by_cases howner : e.note.owner = owner
    · have hof := hk.of_filter_uid (howner ▸ hk.owns_of_get? hget : t.Owns owner e.note.uid)
      rw [hget] at hof
      refine .inl ⟨e.note, rfl, howner, ?_⟩
      rw [← List.head?_filter, hof]
      rfl
    · refine .inr (.inl ⟨e.note, rfl, howner, ?_, ?_⟩)
      · rw [List.find?_eq_none]
        intro n hn huid
        obtain ⟨x, hx, hxowner, rfl⟩ := mem_of.1 hn
        rw [hk.eq_of_uid hx he (by simpa using huid)] at hxowner
        exact howner hxowner
      · rw [takenByOther, List.any_eq_true]
        exact ⟨e, mem_others.2 ⟨he, howner⟩, by simp⟩
  | none =>
    have hfree : t.entries.any (·.note.uid == uid) = false := by
      rw [get?, Option.map_eq_none_iff, List.find?_eq_none] at hget
      rw [List.any_eq_false]
      exact hget
    rw [any_uid t owner, Bool.or_eq_false_iff] at hfree
    refine .inr (.inr ⟨rfl, ?_, hfree.2⟩)
    rw [List.find?_eq_none]
    exact List.any_eq_false.1 hfree.1

/-! ## Two tables -/

/-- Two tables show an owner the same: the owner's notes in the order they were added, and the uids that are taken by
others. -/
structure SameTo (owner : Int) (t t' : Table) : Prop where
  sound : t.Sound
  sound' : t'.Sound
  own : t.of owner = t'.of owner
  taken : ∀ uid, t.takenByOther owner uid = t'.takenByOther owner uid

variable {owner : Int} {t t' : Table}

theorem SameTo.select (h : SameTo owner t t') (f : Filter) : t.select owner f = t'.select owner f := by
  rw [select_eq h.sound, select_eq h.sound', h.own]

theorem SameTo.count (h : SameTo owner t t') (status : String) : t.count owner status = t'.count owner status := by
  rw [count_eq, count_eq, h.own]

theorem SameTo.any_uid (h : SameTo owner t t') (uid : String) :
    t.entries.any (·.note.uid == uid) = t'.entries.any (·.note.uid == uid) := by
  rw [Table.any_uid t owner, Table.any_uid t' owner, h.own, h.taken uid]

/-- A statement on two tables: refused alike, or done on both, after which they show an owner the same. -/
def Alike (owner : Int) (r r' : Except Failure Table) : Prop :=
  (∃ e, r = .error e ∧ r' = .error e) ∨ ∃ t t', r = .ok t ∧ r' = .ok t' ∧ SameTo owner t t'

theorem alike_of {r r' : Except Failure Table} (hr : r.map (fun _ => ()) = r'.map fun _ => ())
    (hs : ∀ t t', r = .ok t → r' = .ok t' → SameTo owner t t') : Alike owner r r' := by
  cases r with
  | error e =>
    cases r' with
    | error e' =>
      cases hr
      exact .inl ⟨e, rfl, rfl⟩
    | ok t' => cases hr
  | ok t =>
    cases r' with
    | error e' => cases hr
    | ok t' => exact .inr ⟨t, t', rfl, rfl, hs t t' rfl rfl⟩

theorem SameTo.insert (h : SameTo owner t t') {n : Note} (hn : n.owner = owner) :
    Alike owner (t.insert n) (t'.insert n) := by
  refine alike_of ?_ fun t₁ t₁' h₁ h₁' => ?_
  · unfold Table.insert
    rw [h.any_uid]
    cases checkColumns [n.owner, n.created, n.updated] with
    | error e => rfl
    | ok _ =>
      by_cases hfree : t'.entries.any (·.note.uid == n.uid) = true
      · simp only [hfree, if_true]
      · simp only [hfree]
        rfl
  · subst hn
    refine ⟨h.sound.insert h₁, h.sound'.insert h₁', ?_, fun uid => ?_⟩
    · rw [of_insert h₁, of_insert h₁', h.own]
    · rw [takenByOther, others_insert h₁, takenByOther, others_insert h₁']
      exact h.taken uid

theorem takenByOther_setContent {t t₁ : Table} {uid content : String} {now : Int}
    (h : t.setContent uid content now = .ok t₁) (owner : Int) (uid' : String) :
    t₁.takenByOther owner uid' = t.takenByOther owner uid' := by
  rw [(setContent_ok h).2, takenByOther, takenByOther, others, others, List.any_filter, List.any_filter, List.any_map]
  congr 1
  funext e
  simp

theorem SameTo.setContent (h : SameTo owner t t') (uid content : String) (now : Int) :
    Alike owner (t.setContent uid content now) (t'.setContent uid content now) := by
  refine alike_of ?_ fun t₁ t₁' h₁ h₁' => ⟨h.sound.setContent h₁, h.sound'.setContent h₁', ?_, fun uid' => ?_⟩
  · unfold Table.setContent
    rw [h.any_uid]
    cases checkColumns [now] with
    | error e => rfl
    | ok _ =>
      by_cases hthere : t'.entries.any (·.note.uid == uid) = true
      · simp only [hthere, if_true]
        rfl
      · simp only [hthere]
        rfl
  · rw [of_setContent h₁, of_setContent h₁', h.own]
  · rw [takenByOther_setContent h₁, takenByOther_setContent h₁', h.taken]

theorem takenByOther_erase (t : Table) (uid : String) (owner : Int) (uid' : String) :
    (t.erase uid).takenByOther owner uid' = (uid' != uid && t.takenByOther owner uid') := by
  rw [takenByOther, takenByOther, others, others, erase, List.any_filter, List.any_filter, List.any_filter]
  by_cases huid : uid' = uid
  · subst huid
    simp only [bne_self_eq_false, Bool.false_and, List.any_eq_false]
    intro e _
    by_cases he : e.note.uid = uid' <;> simp [he]
  · have hne : (uid' != uid) = true := by simpa using huid
    rw [hne, Bool.true_and]
    congr 1
    funext e
    by_cases he : e.note.uid = uid'
    · simp [he, huid]
    · simp [he]

theorem SameTo.erase (h : SameTo owner t t') (uid : String) : SameTo owner (t.erase uid) (t'.erase uid) where
  sound := h.sound.erase uid
  sound' := h.sound'.erase uid
  own := by rw [of_erase, of_erase, h.own]
  taken uid' := by rw [takenByOther_erase, takenByOther_erase, h.taken]

end Table
end Note
end NoteAgent
