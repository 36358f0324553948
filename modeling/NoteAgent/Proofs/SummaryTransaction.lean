import NoteAgent.Proofs.ChatTable
/-!
# SummaryTransaction — a summary is stored whole or not at all

Only the last statement of the transaction touches what is stored (`keeps_fold`).  So whichever statement breaks off, of
itself or because it is struck, the tables are stored as they were; and they are stored compacted exactly if none does.
-/
namespace NoteAgent
namespace Chat
namespace Connection

open Attempt (Ends Keeps)

/-- Nothing was committed. -/
def Uncommitted (c c' : Connection) : Prop := c'.stored = c.stored

instance : Std.Refl Uncommitted := ⟨fun _ => rfl⟩
instance : Trans Uncommitted Uncommitted Uncommitted := ⟨fun h h' => Eq.trans h' h⟩

variable {strikes : Strikes}

theorem statement_unstruck {α : Type} {st : Statement} (h : strikes st = none) (t : Attempt Connection α) :
    statement strikes st t = t := by rw [statement, h]

/-- A statement that does not break off was not struck. -/
theorem statement_ok {α : Type} {st : Statement} {t : Attempt Connection α} {c c' : Connection} {a : α}
    (h : statement strikes st t c = (.ok a, c')) : strikes st = none ∧ t c = (.ok a, c') := by
  cases hst : strikes st with
  | some e =>
    rw [statement, hst] at h
    cases h
  | none => exact ⟨rfl, by rwa [statement_unstruck hst] at h⟩

theorem keeps_statement {α : Type} (st : Statement) {t : Attempt Connection α} (ht : Keeps Uncommitted t) :
    Keeps Uncommitted (statement strikes st t) := by
  unfold statement
  split
  · exact .fail _
  · exact ht

theorem write_run (f : Table → Except Failure Table) (c : Connection) :
    write f c = match f c.seen with
      | .ok t => (.ok (), { c with seen := t })
      | .error e => (.error e, c) := by
  simp only [write, Attempt.update]
  cases f c.seen <;> rfl

theorem keeps_write (f : Table → Except Failure Table) : Keeps Uncommitted (write f) := fun c => by
  rw [write_run]
  split <;> rfl

theorem keeps_sessionNamed (uid : String) : Keeps Uncommitted (sessionNamed uid) := by
  refine (Keeps.look _).bind fun found => ?_
  cases found with
  | some s => exact .done _
  | none => exact .fail _

variable (strikes) (uid summary : String) (keepFrom now : Int)

/-- **Nothing is committed before the last statement.** -/
theorem keeps_fold : Keeps Uncommitted (fold strikes uid summary keepFrom now) := by
  refine (keeps_statement _ (.done _)).bind fun _ => (keeps_statement _ (keeps_sessionNamed uid)).bind fun s => ?_
  exact (keeps_statement _ (keeps_write _)).bind fun _ => keeps_statement _ (keeps_write _)

variable {strikes} {uid summary : String} {keepFrom now : Int}

theorem compact_of_none {t : Table} (h : t.session? uid = none) :
    t.compact uid summary keepFrom now = .error (.noSession uid) := by rw [Table.compact, h]

/-- A compaction is the two changes, one after the other. -/
theorem compact_of_some {t : Table} {s : Session} (h : t.session? uid = some s) :
    t.compact uid summary keepFrom now = t.setSummary s.id summary now >>= (·.dropMessages s.id keepFrom) := by
  have hboth : checkColumns [now, keepFrom] = (do checkColumns [now]; checkColumns [keepFrom]) := by
    by_cases hnow : fitsColumn now = true <;> by_cases hfrom : fitsColumn keepFrom = true <;>
      simp [checkColumns, hnow, hfrom] <;> rfl
  simp only [Table.compact, h, Table.setSummary, Table.dropMessages, hboth]
  cases checkColumns [now] <;> cases checkColumns [keepFrom] <;> rfl

/-- Changes that are all made were not struck. -/
theorem fold_ok {c c' : Connection} (h : fold strikes uid summary keepFrom now c = (.ok (), c')) :
    ∀ st, st ≠ .commit → strikes st = none := by
  obtain ⟨_, c₁, hconnect, h⟩ := Attempt.bind_ok h
  obtain ⟨s, c₂, hfind, h⟩ := Attempt.bind_ok h
  obtain ⟨_, c₃, hset, hdrop⟩ := Attempt.bind_ok h
  intro st hst
  cases st with
  | connect => exact (statement_ok hconnect).1
  | find => exact (statement_ok hfind).1
  | setSummary => exact (statement_ok hset).1
  | dropMessages => exact (statement_ok hdrop).1
  | commit => exact absurd rfl hst

/-- Where no statement is struck, the changes are a compaction of the tables. -/
theorem fold_unstruck (uid summary : String) (keepFrom now : Int) (hs : ∀ st, strikes st = none) (c : Connection) :
    Ends (fold strikes uid summary keepFrom now) c fun r c' =>
      (∃ e, c.seen.compact uid summary keepFrom now = .error e ∧ r = .error e) ∨
        r = .ok () ∧ c.seen.compact uid summary keepFrom now = .ok c'.seen := by
  simp only [fold, statement_unstruck (hs _)]
  refine Ends.next rfl ?_
  cases hfound : c.seen.session? uid with
  | none =>
    have hnamed : sessionNamed uid c = (.error (.noSession uid), c) := by simp [sessionNamed, Attempt.bind_run, hfound]
    refine .inl ⟨.noSession uid, compact_of_none hfound, ?_⟩
    rw [Attempt.bind_run_error hnamed]
  | some s =>
    rw [compact_of_some hfound]
    have hnamed : sessionNamed uid c = (.ok s, c) := by simp [sessionNamed, Attempt.bind_run, hfound]
    refine Ends.next hnamed ?_
    cases hset : c.seen.setSummary s.id summary now with
    | error e =>
      refine .inl ⟨e, rfl, ?_⟩
      rw [Attempt.bind_run, write_run, hset]
    | ok t =>
      have hwritten : write (·.setSummary s.id summary now) c = (.ok (), { c with seen := t }) := by rw [write_run, hset]
      refine Ends.next hwritten ?_
      unfold Ends
      rw [write_run]
      cases hdrop : t.dropMessages s.id keepFrom with
      | error e => exact .inl ⟨e, hdrop, rfl⟩
      | ok t' => exact .inr ⟨rfl, hdrop⟩

/-- **The transaction commits the compacted tables, or fails and commits nothing.**  It fails exactly if some statement is
struck, or the tables do not take the compaction. -/
theorem transact_fold (strikes : Strikes) (uid summary : String) (keepFrom now : Int) (t : Table) :
    Ends (transact strikes (fold strikes uid summary keepFrom now)) ⟨t, t⟩ fun r c =>
    (r = .ok () ∧ (∀ st, strikes st = none) ∧ t.compact uid summary keepFrom now = .ok c.stored) ∨
      (∃ e, r = .error e) ∧ c.stored = t ∧
        ¬((∀ st, strikes st = none) ∧ ∃ t', t.compact uid summary keepFrom now = .ok t') := by
  have hkept := keeps_fold strikes uid summary keepFrom now ⟨t, t⟩
  have hexact (hs : ∀ st, strikes st = none) := fold_unstruck uid summary keepFrom now hs ⟨t, t⟩
  unfold Ends at hexact ⊢
  unfold transact
  rw [Attempt.bind_run]
  rcases hfold : fold strikes uid summary keepFrom now ⟨t, t⟩ with ⟨e | u, c⟩
  · rw [hfold] at hkept hexact
    refine .inr ⟨⟨e, rfl⟩, hkept, fun ⟨hs, t', ht'⟩ => ?_⟩
    obtain ⟨e', he', -⟩ | ⟨hr, -⟩ := hexact hs
    · rw [ht'] at he'
      cases he'
    · cases hr
  · rw [hfold] at hkept hexact
    have hfree := fold_ok hfold
    cases hcommit : strikes .commit with
    | some e =>
      simp only [statement, hcommit]
      exact .inr ⟨⟨e, rfl⟩, hkept, fun ⟨hs, _⟩ => by rw [hs] at hcommit; cases hcommit⟩
    | none =>
      have hs : ∀ st, strikes st = none := fun st => by
        by_cases hst : st = .commit
        · rw [hst, hcommit]
        · exact hfree st hst
      simp only [statement_unstruck hcommit]
      obtain ⟨e', -, hr⟩ | ⟨-, hc⟩ := hexact hs
      · cases hr
      · exact .inl ⟨rfl, hs, hc⟩

end Connection
end Chat
end NoteAgent
