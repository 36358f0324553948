import NoteAgent.Lock
/-!
# LockSafety — one writer or many readers, and nobody left waiting

Threads come to the lock, leave it and look again in any order, one thread also several times over.  Whatever happens, the
counters tell who is inside (`Room.Counts`): a write side that is held is the only side held, and a visit that is parked has
something to wait for.  The last is what keeps a wake-up from being lost: counters that keep a side out keep it out when
another side is entered, so it is enough that all parked visits are woken whenever leaving may let one in.
-/
namespace NoteAgent
namespace Lock

/-! ## Counters -/

theorem mayEnter_read {l : Lock} : l.mayEnter .read = false ↔ l.writer = true := by simp [mayEnter]

theorem mayEnter_write {l : Lock} : l.mayEnter .write = false ↔ l.writer = true ∨ 0 < l.readers := by
  simp [mayEnter, Nat.pos_iff_ne_zero]
  cases l.writer <;> simp

/-- **Entering lets nobody in.** -/
theorem mayEnter_enter {l : Lock} {side : Side} (h : l.mayEnter side = false) (entered : Side) :
    (l.enter entered).mayEnter side = false := by
  cases side with
  | read =>
    rw [mayEnter_read] at h ⊢
    cases entered <;> simp [enter, h]
  | write =>
    rw [mayEnter_write] at h ⊢
    cases entered with
    | read => exact .inr (Nat.succ_pos _)
    | write => exact .inl rfl

/-- Leaving without a wake-up lets nobody in: it is a reader that leaves, and another one is still there. -/
theorem mayEnter_leave {l : Lock} {side left : Side} (h : l.mayEnter side = false)
    (hquiet : (l.leave left).wakes left = false) : (l.leave left).mayEnter side = false := by
  cases left with
  | write => cases hquiet
  | read =>
    cases side with
    | read => exact mayEnter_read.2 (mayEnter_read.1 h)
    | write =>
      have hleft : (l.leave .read).readers ≠ 0 := by simpa [wakes] using hquiet
      exact mayEnter_write.2 (.inr (Nat.pos_of_ne_zero hleft))

/-! ## Visits -/

def Visit.holds (side : Side) (v : Visit) : Bool := v.phase == .holding && v.side == side

theorem Visit.holds_of_holding {v : Visit} (hv : v.phase = .holding) (side : Side) :
    v.holds side = decide (v.side = side) := by
  rw [holds, hv]
  rfl

theorem Visit.holds_of_ne {v : Visit} (hv : v.phase ≠ .holding) (side : Side) : v.holds side = false := by
  simp [holds, hv]

/-- How many visits hold a side. -/
def Room.holding (r : Room) (side : Side) : Nat := r.visits.countP (·.holds side)

/-- **The counters tell who is inside**, and a visit that is parked is kept out by them. -/
structure Room.Counts (r : Room) : Prop where
  readers : r.lock.readers = r.holding .read
  writer : r.holding .write = if r.lock.writer then 1 else 0
  apart : r.lock.writer = true → r.lock.readers = 0
  parked : ∀ v ∈ r.visits, v.phase = .parked → r.lock.mayEnter v.side = false

theorem countP_wakeAll (side : Side) (vs : List Visit) :
    (wakeAll vs).countP (·.holds side) = vs.countP (·.holds side) := by
  rw [wakeAll, List.countP_map]
  refine List.countP_congr fun v _ => ?_
  by_cases hp : v.phase = .parked <;> simp [Visit.holds, hp]

theorem not_parked_of_mem_wakeAll {vs : List Visit} {v : Visit} (hv : v ∈ wakeAll vs) : v.phase ≠ .parked := by
  obtain ⟨x, -, rfl⟩ := List.mem_map.1 hv
  by_cases hp : x.phase = .parked <;> simp [hp]

theorem countP_set {vs : List Visit} {i : Nat} {v : Visit} (hv : vs[i]? = some v) (v' : Visit) (p : Visit → Bool) :
    (vs.set i v').countP p + (if p v then 1 else 0) = vs.countP p + (if p v' then 1 else 0) := by
  obtain ⟨hi, rfl⟩ := List.getElem?_eq_some_iff.1 hv
  have hle := List.boole_getElem_le_countP (p := p) (l := vs) hi
  rw [List.countP_set hi]
  omega

namespace Room

variable {r r' : Room} {side : Side}

theorem Counts.enter (h : r.Counts) (hmay : r.lock.mayEnter side = true) (hlock : r'.lock = r.lock.enter side)
    (hholding : ∀ s, r'.holding s = r.holding s + if side = s then 1 else 0)
    (hparked : ∀ v ∈ r'.visits, v.phase = .parked → v ∈ r.visits) : r'.Counts where
  readers := by
    rw [hlock, hholding, ← h.readers]
    cases side <;> rfl
  writer := by
    rw [hlock, hholding, h.writer]
    cases side <;> simp_all [mayEnter, Lock.enter]
  apart := by
    rw [hlock]
    cases side <;> simp_all [mayEnter, Lock.enter]
  parked v hv hp := by
    rw [hlock]
    exact mayEnter_enter (h.parked v (hparked v hv hp) hp) side

/-- A visit that is kept out parks. -/
theorem Counts.park (h : r.Counts) (hlock : r'.lock = r.lock) (hholding : ∀ s, r'.holding s = r.holding s)
    (hparked : ∀ v ∈ r'.visits, v.phase = .parked → v ∈ r.visits ∨ r.lock.mayEnter v.side = false) : r'.Counts where
  readers := by rw [hlock, hholding, h.readers]
  writer := by rw [hlock, hholding, h.writer]
  apart := by
    rw [hlock]
    exact h.apart
  parked v hv hp := by
    rw [hlock]
    exact (hparked v hv hp).elim (fun hold => h.parked v hold hp) id

theorem Counts.leave (h : r.Counts) (hlock : r'.lock = r.lock.leave side)
    (hholding : ∀ s, r'.holding s + (if side = s then 1 else 0) = r.holding s)
    (hparked : ∀ v ∈ r'.visits, v.phase = .parked → v ∈ r.visits ∧ (r.lock.leave side).wakes side = false) :
    r'.Counts where
  readers := by
    have hread := hholding .read
    rw [← h.readers] at hread
    rw [hlock]
    cases side
    · change r.lock.readers - 1 = _
      rw [← hread]
      rfl
    · exact hread.symm
  writer := by
    have hwrite := hholding .write
    rw [h.writer] at hwrite
    rw [hlock]
    cases side
    · exact hwrite
    · change r'.holding .write = 0
      rw [if_pos rfl] at hwrite
      split at hwrite <;> omega
  apart := by
    have hapart := h.apart
    rw [hlock]
    cases side <;> simp_all [Lock.leave]
  parked v hv hp := by
    obtain ⟨hold, hquiet⟩ := hparked v hv hp
    rw [hlock]
    exact mayEnter_leave (h.parked v hold hp) hquiet

theorem counts_empty : empty.Counts := ⟨rfl, rfl, fun _ => rfl, by simp [empty]⟩

theorem Counts.arrive (h : r.Counts) (thread : String) (side : Side) : (r.step (.arrive thread side)).Counts := by
  simp only [step]
  split
  · rename_i hmay
    refine h.enter hmay rfl (fun s => ?_) fun v hv hp => ?_
    · rw [holding, List.countP_append, List.countP_singleton, Visit.holds_of_holding rfl]
      simp [holding]
    · rcases List.mem_append.1 hv with hv | hv
      · exact hv
      · rw [List.mem_singleton.1 hv] at hp
        cases hp
  · rename_i hmay
    refine h.park rfl (fun s => ?_) fun v hv _ => ?_
    · rw [holding, List.countP_append, List.countP_singleton, Visit.holds_of_ne (by simp)]
      rfl
    · rcases List.mem_append.1 hv with hv | hv
      · exact .inl hv
      · rw [List.mem_singleton.1 hv]
        exact .inr (by simpa using hmay)

theorem Counts.leaveAt (h : r.Counts) (i : Nat) : (r.step (.leave i)).Counts := by
  simp only [step]
  split
  · rename_i v hv
    split
    · rename_i hphase
      have hset : ∀ s, (r.visits.set i { v with phase := .gone }).countP (·.holds s) + (if v.side = s then 1 else 0) =
          r.holding s := fun s => by
        have hcount := countP_set hv { v with phase := .gone } (·.holds s)
        rw [Visit.holds_of_holding (by simpa using hphase), Visit.holds_of_ne (by simp)] at hcount
        simpa [holding] using hcount
      refine h.leave rfl (fun s => ?_) fun x hx hp => ?_
      · rw [← hset s, holding]
        split
        · rw [countP_wakeAll]
        · rfl
      · simp only at hx
        split at hx
        · exact absurd hp (not_parked_of_mem_wakeAll hx)
        · rename_i hquiet
          rcases List.mem_or_eq_of_mem_set hx with hx | rfl
          · exact ⟨hx, by simpa using hquiet⟩
          · cases hp
    · exact h
  · exact h

theorem Counts.look (h : r.Counts) (i : Nat) : (r.step (.look i)).Counts := by
  simp only [step]
  split
  · rename_i v hv
    split
    · rename_i hphase
      have hwoken : v.phase ≠ .holding := fun hp => by simp [hp] at hphase
      split
      · rename_i hmay
        refine h.enter hmay rfl (fun s => ?_) fun x hx hp => ?_
        · have hcount := countP_set hv { v with phase := .holding } (·.holds s)
          rw [Visit.holds_of_ne hwoken, Visit.holds_of_holding rfl] at hcount
          simpa [holding] using hcount
        · rcases List.mem_or_eq_of_mem_set hx with hx | rfl
          · exact hx
          · cases hp
      · rename_i hmay
        refine h.park rfl (fun s => ?_) fun x hx _ => ?_
        · have hcount := countP_set hv { v with phase := .parked } (·.holds s)
          rw [Visit.holds_of_ne hwoken, Visit.holds_of_ne (by simp)] at hcount
          simpa [holding] using hcount
        · rcases List.mem_or_eq_of_mem_set hx with hx | rfl
          · exact .inl hx
          · exact .inr (by simpa using hmay)
    · exact h
  · exact h

theorem Counts.step (h : r.Counts) : ∀ e, (r.step e).Counts
  | .arrive thread side => h.arrive thread side
  | .leave i => h.leaveAt i
  | .look i => h.look i

theorem Counts.run (h : r.Counts) (es : List Event) : (r.run es).Counts := by
  induction es generalizing r with
  | nil => exact h
  | cons e es ih => exact ih (h.step e)

/-! ## Every schedule -/

/-- The visits that are inside, by either side. -/
def held (r : Room) : List Visit := r.visits.filter (·.phase == .holding)

theorem countP_held (r : Room) (side : Side) : r.held.countP (·.side == side) = r.holding side := by
  rw [held, List.countP_filter, holding]
  refine List.countP_congr fun v _ => ?_
  simp [Visit.holds, Bool.and_comm]

theorem length_held (r : Room) : r.held.length = r.holding .read + r.holding .write := by
  rw [← countP_held, ← countP_held, List.length_eq_countP_add_countP (·.side == .read)]
  congr 1
  refine List.countP_congr fun v _ => ?_
  cases v.side <;> simp

/-- The lock is safe, and has forgotten nobody. -/
structure Safe (r : Room) : Prop where
  /-- A write side that is held is all that is held. -/
  alone : ∀ v ∈ r.held, v.side = .write → r.held = [v]
  readers : r.lock.readers = r.held.countP (·.side == .read)
  writer : r.lock.writer = true ↔ ∃ v ∈ r.held, v.side = .write
  /-- A reader that is parked, not woken since, waits for a writer. -/
  readerWaits : ∀ v ∈ r.visits, v.phase = .parked → v.side = .read → r.lock.writer = true
  /-- A writer that is parked, not woken since, waits for a writer or for readers. -/
  writerWaits : ∀ v ∈ r.visits, v.phase = .parked → v.side = .write → r.lock.writer = true ∨ 0 < r.lock.readers

theorem Counts.writer_of_mem (h : r.Counts) {v : Visit} (hv : v ∈ r.held) (hside : v.side = .write) :
    r.lock.writer = true := by
  have hpos : 0 < r.holding .write := by
    rw [← countP_held, List.countP_pos_iff]
    exact ⟨v, hv, by simp [hside]⟩
  cases hwriter : r.lock.writer with
  | true => rfl
  | false =>
    rw [h.writer, hwriter] at hpos
    cases hpos

theorem Counts.safe (h : r.Counts) : r.Safe where
  alone v hv hside := by
    have hwriter := h.writer_of_mem hv hside
    have hlength : r.held.length = 1 := by
      rw [length_held, ← h.readers, h.apart hwriter, h.writer, if_pos hwriter]
    obtain ⟨x, hx⟩ := List.length_eq_one_iff.1 hlength
    rw [hx] at hv ⊢
    rw [List.mem_singleton.1 hv]
  readers := by rw [countP_held, h.readers]
  writer := by
    refine ⟨fun hwriter => ?_, fun ⟨v, hv, hside⟩ => h.writer_of_mem hv hside⟩
    have hone : 0 < r.held.countP (·.side == .write) := by
      rw [countP_held, h.writer, if_pos hwriter]
      exact Nat.one_pos
    obtain ⟨v, hv, hside⟩ := List.countP_pos_iff.1 hone
    exact ⟨v, hv, by simpa using hside⟩
  readerWaits v hv hp hside := mayEnter_read.1 (hside ▸ h.parked v hv hp)
  writerWaits v hv hp hside := mayEnter_write.1 (hside ▸ h.parked v hv hp)

/-- **Whatever threads do, in whatever order those woken look again, the lock is safe.** -/
theorem safe_run (es : List Event) : (empty.run es).Safe := (counts_empty.run es).safe

/-- When everybody has left, nobody is parked. -/
theorem not_parked_of_held_eq_nil (es : List Event) (hempty : (empty.run es).held = []) :
    ∀ v ∈ (empty.run es).visits, v.phase ≠ .parked := by
  intro v hv hp
  have hsafe := (counts_empty.run es).safe
  have hreaders : (empty.run es).lock.readers = 0 := by rw [hsafe.readers, hempty, List.countP_nil]
  have hwriter : (empty.run es).lock.writer ≠ true := fun hwriter => by
    obtain ⟨x, hx, -⟩ := hsafe.writer.1 hwriter
    rw [hempty] at hx
    cases hx
  cases hside : v.side with
  | read => exact hwriter (hsafe.readerWaits v hv hp hside)
  | write =>
    rcases hsafe.writerWaits v hv hp hside with hwaits | hwaits
    · exact hwriter hwaits
    · omega

end Room
end Lock
end NoteAgent
