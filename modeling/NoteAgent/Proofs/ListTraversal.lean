import Mathlib.Data.List.Forall2
/-!
# ListTraversal — turning a list into another, item by item

A traversal that may fail gives a list exactly if it gives an item for each, in order, and fails exactly if it fails
somewhere.
-/
namespace NoteAgent

variable {α β γ ε : Type}

theorem mapM_eq_some {f : α → Option β} {as : List α} {bs : List β} :
    as.mapM f = some bs ↔ List.Forall₂ (fun a b => f a = some b) as bs := by
  induction as generalizing bs with
  | nil => cases bs <;> simp
  | cons a as ih =>
    rw [List.mapM_cons]
    cases ha : f a with
    | none => cases bs <;> simp [ha]
    | some b =>
      cases has : as.mapM f with
      | none => cases bs <;> simp [ha, ← ih, has]
      | some bs' => cases bs <;> simp [ha, ← ih, has]

theorem mapM_eq_none {f : α → Option β} {as : List α} : as.mapM f = none ↔ ∃ a ∈ as, f a = none := by
  induction as with
  | nil => simp
  | cons a as ih =>
    rw [List.mapM_cons, List.exists_mem_cons_iff, ← ih]
    cases ha : f a with
    | none => simp
    | some b => cases has : as.mapM f <;> simp

theorem mapM_congr {f : α → Option γ} {g : β → Option γ} {as : List α} {bs : List β}
    (h : List.Forall₂ (fun a b => f a = g b) as bs) : as.mapM f = bs.mapM g := by
  induction h with
  | nil => rfl
  | cons hab _ ih => rw [List.mapM_cons, List.mapM_cons, hab, ih]

theorem mapM_eq_ok {f : α → Except ε β} {as : List α} {bs : List β} :
    as.mapM f = .ok bs ↔ List.Forall₂ (fun a b => f a = .ok b) as bs := by
  induction as generalizing bs with
  | nil => cases bs <;> simp [pure, Except.pure]
  | cons a as ih =>
    rw [List.mapM_cons]
    cases ha : f a with
    | error e => cases bs <;> simp [bind, Except.bind, ha]
    | ok b =>
      cases has : as.mapM f with
      | error e => cases bs <;> simp [bind, Except.bind, ha, ← ih, has]
      | ok bs' => cases bs <;> simp [bind, Except.bind, pure, Except.pure, ha, ← ih, has]

/-- A list can be turned into another just if each of its items can. -/
theorem exists_mapM_iff (f : α → Except ε β) (as : List α) :
    (∃ bs, as.mapM f = .ok bs) ↔ ∀ a ∈ as, ∃ b, f a = .ok b := by
  simp only [mapM_eq_ok]
  induction as with
  | nil => simp
  | cons a as ih => simp [List.forall₂_cons_left_iff, ← ih]

/-- What a list was turned into comes from its items. -/
theorem exists_of_mapM {f : α → Except ε β} {as : List α} {bs : List β} (h : as.mapM f = .ok bs) :
    ∀ b ∈ bs, ∃ a ∈ as, f a = .ok b := by
  have hitems := mapM_eq_ok.1 h
  clear h
  induction hitems with
  | nil => exact List.forall_mem_nil _
  | @cons a b as bs hab _ ih =>
    refine List.forall_mem_cons.2 ⟨⟨a, List.mem_cons_self, hab⟩, fun b' hb' => ?_⟩
    obtain ⟨a', ha', hf⟩ := ih b' hb'
    exact ⟨a', List.mem_cons_of_mem _ ha', hf⟩

end NoteAgent
