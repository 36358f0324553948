import Mathlib.Data.List.Nodup
import NoteAgent.Note.Table
/-!
# NoteKeys — one note under a uid

A note is added only under a uid that is not in use, so a uid names one note at most (`Keyed`), and every statement
keeps it so.  A statement changes the note under the uid it names and no other: the rows of everybody but the owner of
that note are the same afterwards, in their order (`others`).
-/
namespace NoteAgent
namespace Note
namespace Table

/-- No two notes stand under one uid. -/
def Keyed (t : Table) : Prop := (t.entries.map (·.note.uid)).Nodup

instance (t : Table) : Decidable t.Keyed := inferInstanceAs (Decidable (List.Nodup _))

/-- The rows of all owners but one. -/
def others (t : Table) (owner : Int) : List Entry := t.entries.filter (·.note.owner != owner)

/-- Whatever stands under the uid is the owner's. -/
def Owns (t : Table) (owner : Int) (uid : String) : Prop := ∀ e ∈ t.entries, e.note.uid = uid → e.note.owner = owner

instance (t : Table) (owner : Int) (uid : String) : Decidable (t.Owns owner uid) :=
  inferInstanceAs (Decidable (∀ _ ∈ _, _))

theorem mem_others {t : Table} {owner : Int} {e : Entry} :
    e ∈ t.others owner ↔ e ∈ t.entries ∧ e.note.owner ≠ owner := by
  simp [others]

/-! ## Looking a note up -/

theorem get?_some {t : Table} {uid : String} {n : Note} (h : t.get? uid = some n) :
    ∃ e ∈ t.entries, e.note = n ∧ n.uid = uid := by
  obtain ⟨e, he, rfl⟩ := Option.map_eq_some_iff.1 h
  exact ⟨e, List.mem_of_find?_eq_some he, rfl, by simpa using List.find?_some he⟩

theorem Keyed.eq_of_uid {t : Table} (hk : t.Keyed) {a b : Entry} (ha : a ∈ t.entries) (hb : b ∈ t.entries)
    (h : a.note.uid = b.note.uid) : a = b := List.inj_on_of_nodup_map hk ha hb h

/-- **A uid finds the one note under it.** -/
theorem Keyed.get?_eq {t : Table} (hk : t.Keyed) {e : Entry} (he : e ∈ t.entries) :
    t.get? e.note.uid = some e.note := by
  have hsome : (t.entries.find? (·.note.uid == e.note.uid)).isSome = true :=
    List.find?_isSome.2 ⟨e, he, by simp⟩
  obtain ⟨e', he'⟩ := Option.isSome_iff_exists.1 hsome
  have huid : e'.note.uid = e.note.uid := by simpa using List.find?_some he'
  have heq : e' = e := hk.eq_of_uid (List.mem_of_find?_eq_some he') he huid
  rw [get?, he', heq]
  rfl

/-- The rows under a uid are the one that is found. -/
theorem Keyed.filter_uid {t : Table} (hk : t.Keyed) (uid : String) :
    t.entries.filter (·.note.uid == uid) = (t.entries.find? (·.note.uid == uid)).toList := by
  unfold Keyed at hk
  generalize t.entries = es at hk
  induction es with
  | nil => rfl
  | cons e es ih =>
    rw [List.map_cons, List.nodup_cons] at hk
    by_cases huid : e.note.uid = uid
    · have hrest : es.filter (·.note.uid == uid) = [] := by
        rw [List.filter_eq_nil_iff]
        intro x hx hxuid
        rw [beq_iff_eq] at hxuid
        exact hk.1 (List.mem_map.2 ⟨x, hx, hxuid.trans huid.symm⟩)
      simp [huid, hrest]
    · simp [huid, ih hk.2]

theorem Keyed.owns_of_get? {t : Table} (hk : t.Keyed) {uid : String} {n : Note} (h : t.get? uid = some n) :
    t.Owns n.owner uid := by
  intro e he huid
  have := hk.get?_eq he
  rw [huid, h] at this
  rw [Option.some.inj this]

/-- **Where the rows of all others are the same, only notes of the owner can have changed.** -/
theorem owner_of_get?_ne {t t' : Table} {owner : Int} (hk : t.Keyed) (hk' : t'.Keyed)
    (h : t'.others owner = t.others owner) {uid : String} (hc : t.get? uid ≠ t'.get? uid) {n : Note}
    (hn : t.get? uid = some n ∨ t'.get? uid = some n) : n.owner = owner := by
  by_contra hne
  rcases hn with hn | hn
  · obtain ⟨e, he, rfl, rfl⟩ := get?_some hn
    have he' : e ∈ t'.entries := (mem_others.1 (h ▸ mem_others.2 ⟨he, hne⟩)).1
    exact hc (hn.trans (hk'.get?_eq he').symm)
  · obtain ⟨e, he, rfl, rfl⟩ := get?_some hn
    have he' : e ∈ t.entries := (mem_others.1 (h ▸ mem_others.2 ⟨he, hne⟩)).1
    exact hc ((hk.get?_eq he').trans hn.symm)

/-! ## Statements -/

theorem insert_ok {t t' : Table} {n : Note} (h : t.insert n = .ok t') :
    (∀ e ∈ t.entries, e.note.uid ≠ n.uid) ∧ t' = ⟨t.entries ++ [⟨t.nextRow, n⟩]⟩ := by
  unfold insert at h
  cases hc : checkColumns [n.owner, n.created, n.updated] with
  | error e => rw [hc] at h; cases h
  | ok u =>
    rw [hc] at h
    change (if _ then _ else _) = _ at h
    split at h
    · cases h
    · rename_i hfree
      cases h
      simp only [List.any_eq_true, beq_iff_eq, not_exists, not_and] at hfree
      exact ⟨hfree, rfl⟩

theorem Keyed.insert {t t' : Table} (hk : t.Keyed) {n : Note} (h : t.insert n = .ok t') : t'.Keyed := by
  obtain ⟨hfree, rfl⟩ := insert_ok h
  unfold Keyed
  rw [List.map_append, List.nodup_append]
  refine ⟨hk, by simp, fun a ha b hb => ?_⟩
  obtain ⟨e, he, rfl⟩ := List.mem_map.1 ha
  rw [List.map_cons, List.map_nil, List.mem_singleton] at hb
  subst hb
  exact hfree e he

theorem others_insert {t t' : Table} {n : Note} (h : t.insert n = .ok t') : t'.others n.owner = t.others n.owner := by
  obtain ⟨-, rfl⟩ := insert_ok h
  simp [others, List.filter_append]

/-- A row whose note, should it stand under the uid, has new content and a new time of change. -/
def Entry.revised (uid content : String) (now : Int) (e : Entry) : Entry :=
  if e.note.uid == uid then { e with note := { e.note with content := content, updated := now } } else e

@[simp] theorem revised_uid (uid content : String) (now : Int) (e : Entry) :
    (Entry.revised uid content now e).note.uid = e.note.uid := by unfold Entry.revised; split <;> rfl

@[simp] theorem revised_owner (uid content : String) (now : Int) (e : Entry) :
    (Entry.revised uid content now e).note.owner = e.note.owner := by unfold Entry.revised; split <;> rfl

theorem revised_of_ne {uid content : String} {now : Int} {e : Entry} (h : e.note.uid ≠ uid) :
    Entry.revised uid content now e = e := by simp [Entry.revised, h]

theorem setContent_ok {t t' : Table} {uid content : String} {now : Int} (h : t.setContent uid content now = .ok t') :
    (∃ e ∈ t.entries, e.note.uid = uid) ∧ t' = ⟨t.entries.map (Entry.revised uid content now)⟩ := by
  unfold setContent at h
  cases hc : checkColumns [now] with
  | error e => rw [hc] at h; cases h
  | ok u =>
    rw [hc] at h
    change (if _ then _ else _) = _ at h
    split at h
    · rename_i hthere
      cases h
      exact ⟨by simpa using hthere, rfl⟩
    · cases h

theorem Keyed.setContent {t t' : Table} (hk : t.Keyed) {uid content : String} {now : Int}
    (h : t.setContent uid content now = .ok t') : t'.Keyed := by
  rw [(setContent_ok h).2]
  unfold Keyed
  have hp : (fun e : Entry => e.note.uid) ∘ Entry.revised uid content now = (·.note.uid) := by funext e; simp
  rw [List.map_map, hp]
  exact hk

theorem others_setContent {t t' : Table} {uid content : String} {now owner : Int}
    (h : t.setContent uid content now = .ok t') (ho : t.Owns owner uid) : t'.others owner = t.others owner := by
  rw [(setContent_ok h).2]
  unfold others
  rw [List.filter_map]
  have hp : (fun e : Entry => e.note.owner != owner) ∘ Entry.revised uid content now = (·.note.owner != owner) := by
    funext e; simp
  rw [hp, List.map_congr_left (g := id) (fun e he => ?_), List.map_id]
  obtain ⟨he, hne⟩ := List.mem_filter.1 he
  exact revised_of_ne fun huid => by simp [ho e he huid] at hne

theorem Keyed.erase {t : Table} (hk : t.Keyed) (uid : String) : (t.erase uid).Keyed :=
  hk.sublist (List.filter_sublist.map _)

theorem others_erase {t : Table} {owner : Int} {uid : String} (ho : t.Owns owner uid) :
    (t.erase uid).others owner = t.others owner := by
  unfold others erase
  rw [List.filter_filter]
  refine List.filter_congr fun e he => ?_
  by_cases huid : e.note.uid = uid
  · simp [huid, ho e he huid]
  · simp [huid]

/-! ## Looking a note up after a statement -/

theorem get?_setContent {t t' : Table} {uid content : String} {now : Int} (h : t.setContent uid content now = .ok t') :
    ∃ n, t.get? uid = some n ∧ t'.get? uid = some { n with content := content, updated := now } := by
  obtain ⟨⟨e, he, huid⟩, rfl⟩ := setContent_ok h
  have hsome : (t.entries.find? (·.note.uid == uid)).isSome = true := List.find?_isSome.2 ⟨e, he, by simp [huid]⟩
  obtain ⟨x, hx⟩ := Option.isSome_iff_exists.1 hsome
  have hp : (fun e : Entry => e.note.uid == uid) ∘ Entry.revised uid content now = (·.note.uid == uid) := by
    funext e; simp
  have hxuid : x.note.uid = uid := by simpa using List.find?_some hx
  refine ⟨x.note, by rw [get?, hx]; rfl, ?_⟩
  rw [get?, List.find?_map, hp, hx, Option.map_some, Option.map_some, Entry.revised, if_pos (by simpa using hxuid)]

theorem get?_erase (t : Table) (uid : String) : (t.erase uid).get? uid = none := by
  rw [get?, erase, Option.map_eq_none_iff, List.find?_eq_none]
  intro e he
  simpa using (List.mem_filter.1 he).2

/-! ## The notes of one owner -/

/-- The notes of an owner, in the order they were added. -/
def of (t : Table) (owner : Int) : List Note := (t.entries.filter (·.note.owner == owner)).map (·.note)

theorem mem_of {t : Table} {owner : Int} {n : Note} :
    n ∈ t.of owner ↔ ∃ e ∈ t.entries, e.note.owner = owner ∧ e.note = n := by
  simp [of, and_assoc]

theorem of_eq_of_others {t t' : Table} {owner user : Int} (h : t'.others owner = t.others owner) (hne : user ≠ owner) :
    t'.of user = t.of user := by
  have hof : ∀ t : Table, t.of user = ((t.others owner).filter (·.note.owner == user)).map (·.note) := fun t => by
    rw [of, others, List.filter_filter]
    refine congrArg _ (List.filter_congr fun e _ => ?_)
    by_cases hu : e.note.owner = user <;> simp [hu, hne]
  rw [hof t', hof t, h]

theorem Keyed.uid_nodup {t : Table} (hk : t.Keyed) (owner : Int) : ((t.of owner).map (·.uid)).Nodup := by
  rw [of, List.map_map]
  exact hk.sublist (List.filter_sublist.map _)

/-- The note that is found under a uid is the only one of its owner there. -/
theorem Keyed.of_filter_uid {t : Table} (hk : t.Keyed) {owner : Int} {uid : String} (ho : t.Owns owner uid) :
    (t.of owner).filter (·.uid == uid) = (t.get? uid).toList := by
  have hboth : (t.entries.filter fun e => e.note.uid == uid && e.note.owner == owner) =
      t.entries.filter (·.note.uid == uid) := List.filter_congr fun e he => by
    by_cases huid : e.note.uid = uid
    · simp [huid, ho e he huid]
    · simp [huid]
  have hof : (t.of owner).filter (·.uid == uid) =
      (t.entries.filter fun e => e.note.uid == uid && e.note.owner == owner).map (·.note) := by
    rw [of, List.filter_map, List.filter_filter]
    rfl
  rw [hof, hboth, hk.filter_uid, get?]
  cases t.entries.find? (·.note.uid == uid) <;> rfl

theorem of_insert {t t' : Table} {n : Note} (h : t.insert n = .ok t') : t'.of n.owner = t.of n.owner ++ [n] := by
  obtain ⟨-, rfl⟩ := insert_ok h
  simp [of, List.filter_append]

theorem of_setContent {t t' : Table} {uid content : String} {now : Int} (h : t.setContent uid content now = .ok t')
    (owner : Int) : t'.of owner =
      (t.of owner).map fun n => if n.uid = uid then { n with content := content, updated := now } else n := by
  obtain ⟨-, rfl⟩ := setContent_ok h
  have hp : (fun e : Entry => e.note.owner == owner) ∘ Entry.revised uid content now = (·.note.owner == owner) := by
    funext e; simp
  rw [of, List.filter_map, hp, of, List.map_map, List.map_map]
  refine List.map_congr_left fun e _ => ?_
  by_cases huid : e.note.uid = uid <;> simp [Entry.revised, huid]

theorem of_erase (t : Table) (uid : String) (owner : Int) : (t.erase uid).of owner = (t.of owner).filter (·.uid != uid) := by
  rw [of, erase, List.filter_filter, of, List.filter_map, List.filter_filter]
  refine congrArg _ (List.filter_congr fun e _ => ?_)
  rw [Bool.and_comm]
  rfl

end Table
end Note
end NoteAgent
