import Mathlib.Data.List.Induction
/-!
# Machine — where happenings lead, one after another

A machine has a state at the start, and each happening takes it to another; what the states and the happenings are is left
open.  A run is a list of happenings, and its moments are the beginnings of the list.  Something that holds at the first
moment and goes on holding with each happening holds at each; something that does not hold in the end, but did at some
moment, ceased to hold with some happening.
-/
namespace NoteAgent

structure Machine (σ ε : Type) where
  start : σ
  after : σ → ε → σ

namespace Machine

variable {σ ε : Type} (m : Machine σ ε)

/-- The state that happenings lead to from a state. -/
def runFrom (s : σ) (es : List ε) : σ := es.foldl m.after s

/-- The state that happenings lead to from the start. -/
def run (es : List ε) : σ := m.runFrom m.start es

theorem run_append (es es' : List ε) : m.run (es ++ es') = m.runFrom (m.run es) es' := List.foldl_append

theorem run_concat (es : List ε) (e : ε) : m.run (es ++ [e]) = m.after (m.run es) e := m.run_append es [e]

/-- What goes on holding with each happening holds after all of them. -/
theorem runFrom_keeps {P : σ → Prop} (after : ∀ s e, P s → P (m.after s e)) {s : σ} (h : P s) (es : List ε) :
    P (m.runFrom s es) := by
  induction es generalizing s with
  | nil => exact h
  | cons e es ih => exact ih (after s e h)

end Machine

/-- What holds of no happenings, and goes on holding from one beginning of a run to the next, holds of each. -/
theorem beginnings_induction {α : Type} {P : List α → Prop} {es : List α} (nil : P [])
    (concat : ∀ pre e post, es = pre ++ e :: post → P pre → P (pre ++ [e])) :
    ∀ pre post, es = pre ++ post → P pre := by
  intro pre
  induction pre using List.reverseRecOn with
  | nil => exact fun _ _ => nil
  | append_singleton pre e ih =>
    intro post hes
    have hes' : es = pre ++ e :: post := by rw [hes, List.append_assoc]; rfl
    exact concat pre e post hes' (ih _ hes')

/-- What holds of one beginning of a run and not of the whole ceases to hold with some happening. -/
theorem exists_ceasing {α : Type} {P : List α → Prop} : ∀ (post pre : List α), P pre → ¬P (pre ++ post) →
    ∃ mid e rest, pre ++ post = mid ++ e :: rest ∧ P mid ∧ ¬P (mid ++ [e])
  | [], pre, h, hno => absurd h (by rwa [List.append_nil] at hno)
  | e :: post, pre, h, hno => by
    by_cases hnext : P (pre ++ [e])
    · have hsplit : pre ++ e :: post = (pre ++ [e]) ++ post := by rw [List.append_assoc]; rfl
      rw [hsplit] at hno ⊢
      exact exists_ceasing post (pre ++ [e]) hnext hno
    · exact ⟨pre, e, post, rfl, h, hnext⟩

end NoteAgent
