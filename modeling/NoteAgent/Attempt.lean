import NoteAgent.Failure
/-!
# Attempt — a computation over a state that may break off

What an attempt did before it broke off stays done: the state comes back beside the result or the failure.
-/
namespace NoteAgent

/-- A computation over a state `σ` that answers a value or breaks off. -/
def Attempt (σ α : Type) : Type := σ → Except Failure α × σ

namespace Attempt

variable {σ α β : Type}

def done (a : α) : Attempt σ α := fun s => (.ok a, s)

def fail (f : Failure) : Attempt σ α := fun s => (.error f, s)

/-- One computation and then another on its answer. -/
def andThen (t : Attempt σ α) (next : α → Attempt σ β) : Attempt σ β := fun s =>
  match t s with
  | (.ok a, s) => next a s
  | (.error f, s) => (.error f, s)

instance : Monad (Attempt σ) where
  pure := done
  bind := andThen

def look (f : σ → α) : Attempt σ α := fun s => (.ok (f s), s)

def change (f : σ → σ) : Attempt σ Unit := fun s => (.ok (), f s)

/-- Answers with a result that is there already. -/
def ofExcept (r : Except Failure α) : Attempt σ α := fun s => (r, s)

/-- Changes the state to the result of `f`, or breaks off and leaves it. -/
def update (f : σ → Except Failure σ) : Attempt σ Unit := fun s =>
  match f s with
  | .ok s' => (.ok (), s')
  | .error e => (.error e, s)

/-- Carries on with the failure, should the computation break off. -/
def settle (t : Attempt σ α) : Attempt σ (Except Failure α) := fun s => (.ok (t s).1, (t s).2)

/-- Carries on whether or not the computation breaks off. -/
def ignore (t : Attempt σ α) : Attempt σ Unit := fun s => (.ok (), (t s).2)

/-- Does `after` to the state however the computation ends. -/
def afterwards (t : Attempt σ α) (after : σ → σ) : Attempt σ α := fun s => ((t s).1, after (t s).2)

def on {τ : Type} (get : σ → τ) (set : σ → τ → σ) (t : Attempt τ α) : Attempt σ α := fun s =>
  ((t (get s)).1, set s (t (get s)).2)

def each {ι : Type} (t : ι → Attempt σ Unit) : List ι → Attempt σ Unit
  | [] => done ()
  | i :: is => andThen (t i) fun _ => each t is

@[simp] theorem pure_run (a : α) (s : σ) : (pure a : Attempt σ α) s = (.ok a, s) := rfl
@[simp] theorem done_run (a : α) (s : σ) : (done a : Attempt σ α) s = (.ok a, s) := rfl
@[simp] theorem fail_run (f : Failure) (s : σ) : (fail f : Attempt σ α) s = (.error f, s) := rfl
@[simp] theorem look_run (f : σ → α) (s : σ) : look f s = (.ok (f s), s) := rfl
@[simp] theorem change_run (f : σ → σ) (s : σ) : change f s = (.ok (), f s) := rfl
@[simp] theorem ofExcept_run (r : Except Failure α) (s : σ) : ofExcept r s = (r, s) := rfl
@[simp] theorem settle_run (t : Attempt σ α) (s : σ) : settle t s = (.ok (t s).1, (t s).2) := rfl
@[simp] theorem ignore_run (t : Attempt σ α) (s : σ) : ignore t s = (.ok (), (t s).2) := rfl
@[simp] theorem afterwards_run (t : Attempt σ α) (after : σ → σ) (s : σ) :
    afterwards t after s = ((t s).1, after (t s).2) := rfl
@[simp] theorem on_run {τ : Type} (get : σ → τ) (set : σ → τ → σ) (t : Attempt τ α) (s : σ) :
    on get set t s = ((t (get s)).1, set s (t (get s)).2) := rfl

theorem bind_run (t : Attempt σ α) (next : α → Attempt σ β) (s : σ) :
    (t >>= next) s = match t s with
      | (.ok a, s) => next a s
      | (.error f, s) => (.error f, s) := rfl

theorem bind_run_ok {t : Attempt σ α} {next : α → Attempt σ β} {s s' : σ} {a : α} (h : t s = (.ok a, s')) :
    (t >>= next) s = next a s' := by rw [bind_run, h]

theorem bind_run_error {t : Attempt σ α} {next : α → Attempt σ β} {s s' : σ} {f : Failure}
    (h : t s = (.error f, s')) : (t >>= next) s = (.error f, s') := by rw [bind_run, h]

/-- If two computations together do not break off, neither does. -/
theorem bind_ok {t : Attempt σ α} {next : α → Attempt σ β} {s s'' : σ} {b : β} (h : (t >>= next) s = (.ok b, s'')) :
    ∃ a s', t s = (.ok a, s') ∧ next a s' = (.ok b, s'') := by
  rw [bind_run] at h
  split at h
  · rename_i a s' ht
    exact ⟨a, s', ht, h⟩
  · cases h

theorem settle_bind_run (t : Attempt σ α) (next : Except Failure α → Attempt σ β) (s : σ) :
    (settle t >>= next) s = next (t s).1 (t s).2 := rfl

theorem map_run (f : α → β) (t : Attempt σ α) (s : σ) : (f <$> t) s = ((t s).1.map f, (t s).2) := by
  change (t >>= fun a => done (f a)) s = _
  rw [bind_run]
  split <;> rename_i he <;> rw [he] <;> rfl

/-! ## What an attempt comes to -/

/-- From the state `s` the attempt ends with a result and a state that satisfy `Q`. -/
def Ends (t : Attempt σ α) (s : σ) (Q : Except Failure α → σ → Prop) : Prop := Q (t s).1 (t s).2

namespace Ends

variable {s : σ}

theorem mono {t : Attempt σ α} {P Q : Except Failure α → σ → Prop} (ht : Ends t s P)
    (h : ∀ r s', P r s' → Q r s') : Ends t s Q := h _ _ ht

theorem bind {t : Attempt σ α} {next : α → Attempt σ β} {P : Except Failure α → σ → Prop}
    {Q : Except Failure β → σ → Prop} (ht : Ends t s P) (ok : ∀ a s', P (.ok a) s' → Ends (next a) s' Q)
    (error : ∀ f s', P (.error f) s' → Q (.error f) s') : Ends (t >>= next) s Q := by
  unfold Ends at ht ⊢
  rw [bind_run]
  split
  · rename_i a s' he
    rw [he] at ht
    exact ok a s' ht
  · rename_i f s' he
    rw [he] at ht
    exact error f s' ht

theorem look {f : σ → β} {next : β → Attempt σ α} {Q : Except Failure α → σ → Prop} (h : Ends (next (f s)) s Q) :
    Ends (look f >>= next) s Q := h

theorem map {t : Attempt σ α} {f : α → β} {Q : Except Failure β → σ → Prop}
    (h : Ends t s fun r s' => Q (r.map f) s') : Ends (f <$> t) s Q := by
  unfold Ends
  rw [map_run]
  exact h

/-- Goes on from where the first attempt is known to end. -/
theorem next {t : Attempt σ α} {next : α → Attempt σ β} {a : α} {s' : σ} {Q : Except Failure β → σ → Prop}
    (h : t s = (.ok a, s')) (hn : Ends (next a) s' Q) : Ends (t >>= next) s Q := by
  unfold Ends
  rw [bind_run_ok h]
  exact hn

/-- Goes on from either end of the first attempt. -/
theorem settle {t : Attempt σ α} {next : Except Failure α → Attempt σ β} {P : Except Failure α → σ → Prop}
    {Q : Except Failure β → σ → Prop} (ht : Ends t s P) (hn : ∀ r s', P r s' → Ends (next r) s' Q) :
    Ends (settle t >>= next) s Q := hn _ _ ht

end Ends

/-! ## What an attempt answers -/

/-- Every answer of the attempt satisfies `V`. -/
def Answers (V : α → Prop) (t : Attempt σ α) : Prop := ∀ s a, (t s).1 = .ok a → V a

namespace Answers

variable {V : α → Prop}

theorem done {a : α} (h : V a) : Answers V (done a : Attempt σ α) := fun _ _ he => Except.ok.inj he ▸ h

theorem bind {t : Attempt σ β} {next : β → Attempt σ α} (hn : ∀ b, Answers V (next b)) : Answers V (t >>= next) := by
  intro s a he
  rw [bind_run] at he
  split at he
  · exact hn _ _ a he
  · cases he

end Answers

/-! ## What an attempt keeps -/

/-- The state after the attempt stands in `R` to the state before it, however the attempt ends. -/
def Keeps (R : σ → σ → Prop) (t : Attempt σ α) : Prop := ∀ s, R s (t s).2

namespace Keeps

variable {R : σ → σ → Prop}

theorem run {t : Attempt σ α} {s s' : σ} {r : Except Failure α} (ht : Keeps R t) (h : t s = (r, s')) : R s s' := by
  have hs := ht s
  rwa [h] at hs

theorem mono {R' : σ → σ → Prop} {t : Attempt σ α} (ht : Keeps R t) (h : ∀ {s s'}, R s s' → R' s s') :
    Keeps R' t := fun s => h (ht s)

/-- An attempt that leaves the state as it is keeps what is true of it. -/
theorem still [Std.Refl R] {t : Attempt σ α} (ht : ∀ s, (t s).2 = s) : Keeps R t := fun s => by
  rw [ht s]
  exact Std.Refl.refl s

theorem done [Std.Refl R] (a : α) : Keeps R (done a : Attempt σ α) := still fun _ => rfl
theorem fail [Std.Refl R] (f : Failure) : Keeps R (fail f : Attempt σ α) := still fun _ => rfl
theorem look [Std.Refl R] (f : σ → α) : Keeps R (look f) := still fun _ => rfl
theorem ofExcept [Std.Refl R] (r : Except Failure α) : Keeps R (ofExcept r : Attempt σ α) := still fun _ => rfl

/-- The second attempt need only keep `R` on answers that the first can give. -/
theorem bind_of [Trans R R R] {t : Attempt σ α} {next : α → Attempt σ β} {V : α → Prop} (ht : Keeps R t)
    (hv : Answers V t) (hn : ∀ a, V a → Keeps R (next a)) : Keeps R (t >>= next) := by
  intro s
  have h := ht s
  have hv := hv s
  rw [bind_run]
  split
  · rename_i a s' he
    rw [he] at h hv
    exact Trans.trans h (hn a (hv a rfl) s')
  · rename_i f s' he
    rw [he] at h
    exact h

theorem bind [Trans R R R] {t : Attempt σ α} {next : α → Attempt σ β} (ht : Keeps R t)
    (hn : ∀ a, Keeps R (next a)) : Keeps R (t >>= next) :=
  ht.bind_of (V := fun _ => True) (fun _ _ _ => trivial) fun a _ => hn a

/-- What the second attempt keeps stands between the state after the first and the state after both. -/
theorem tail [Std.Refl R] (t : Attempt σ α) {next : α → Attempt σ β} (hn : ∀ a, Keeps R (next a)) (s : σ) :
    R (t s).2 ((t >>= next) s).2 := by
  rw [bind_run]
  split
  · rename_i a s' he
    rw [he]
    exact hn a s'
  · rename_i f s' he
    rw [he]
    exact Std.Refl.refl s'

theorem settle {t : Attempt σ α} (ht : Keeps R t) : Keeps R (settle t) := ht
theorem ignore {t : Attempt σ α} (ht : Keeps R t) : Keeps R (ignore t) := ht

/-- What each item's attempt keeps, going through all of them keeps. -/
theorem each [Std.Refl R] [Trans R R R] {ι : Type} {t : ι → Attempt σ Unit} (ht : ∀ i, Keeps R (t i)) :
    ∀ is, Keeps R (each t is)
  | [] => done ()
  | i :: is => bind (ht i) fun _ => each ht is

end Keeps
end Attempt
end NoteAgent
