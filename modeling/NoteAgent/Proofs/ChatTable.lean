import Mathlib.Data.List.Nodup
import NoteAgent.Chat.Compaction
/-!
# ChatTable — sessions and messages keep their order

A uid and a number name one session, the numbers of messages rise in the order the messages came, and no number above the
largest given is in use (`Sound`).  A session that is made and whatever a turn does keep this.  A turn of a chat only adds
messages to its session, each with the next number, and touches no summary (`Grows`); the compaction before it drops the
messages below a bound.  The bound parts the messages that were listed: all the old ones are below it, all the recent ones
are not, and neither is any message that came after the listing (`firstKept_parts`).
-/
namespace NoteAgent
namespace Chat
namespace Table

/-- The tables with a summary stored in the session with a uid and its messages numbered below `keepFrom` dropped. -/
def compact (t : Table) (uid summary : String) (keepFrom now : Int) : Except Failure Table :=
  match t.session? uid with
  | none => .error (.noSession uid)
  | some s => do
    checkColumns [now, keepFrom]
    .ok { t with
      sessions := t.sessions.map fun x => if x.id == s.id then { x with summary := summary, updated := now } else x
      messages := t.messages.filter fun m => !(m.session == s.id && m.id < keepFrom) }

/-- A uid and a number name one session, and the numbers of messages rise; no number is above the largest given. -/
structure Sound (t : Table) : Prop where
  uids : (t.sessions.map (·.uid)).Nodup
  ids : (t.sessions.map (·.id)).Nodup
  known : ∀ s ∈ t.sessions, s.id ≤ t.lastSession
  rising : t.messages.Pairwise (·.id < ·.id)
  bounded : ∀ m ∈ t.messages, m.id ≤ t.lastMessage

theorem mem_live {t : Table} {session : Int} {m : Message} :
    m ∈ t.live session ↔ m ∈ t.messages ∧ m.session = session := by
  simp [live]

theorem Sound.live_rising {t : Table} (h : t.Sound) (session : Int) : (t.live session).Pairwise (·.id < ·.id) :=
  h.rising.filter _

theorem live_append {t t' : Table} {added : List Message} {session : Int} (h : t'.messages = t.messages ++ added)
    (ha : ∀ m ∈ added, m.session = session) : t'.live session = t.live session ++ added := by
  have hadded : added.filter (·.session == session) = added :=
    List.filter_eq_self.2 fun m hm => by simpa using ha m hm
  rw [live, h, List.filter_append, hadded]
  rfl

/-! ## Sessions -/

theorem session?_some {t : Table} {uid : String} {s : Session} (h : t.session? uid = some s) :
    s ∈ t.sessions ∧ s.uid = uid :=
  ⟨List.mem_of_find?_eq_some h, by simpa using List.find?_some h⟩

theorem Sound.eq_of_uid {t : Table} (h : t.Sound) {a b : Session} (ha : a ∈ t.sessions) (hb : b ∈ t.sessions)
    (huid : a.uid = b.uid) : a = b := List.inj_on_of_nodup_map h.uids ha hb huid

/-- A change of sessions that leaves what names them. -/
def KeepsNames (f : Session → Session) : Prop := ∀ s, (f s).id = s.id ∧ (f s).uid = s.uid

theorem session?_map {t t' : Table} {f : Session → Session} (hf : KeepsNames f) (h : t'.sessions = t.sessions.map f)
    (uid : String) : t'.session? uid = (t.session? uid).map f := by
  unfold session?
  rw [h, List.find?_map]
  congr 2
  funext s
  simp [(hf s).2]

theorem session?_eraseSession {target uid : String} (h : target ≠ uid) (t : Table) :
    (t.eraseSession target).session? uid = t.session? uid := by
  rw [session?, eraseSession, List.find?_filter]
  refine congrFun (congrArg _ (funext fun s => ?_)) _
  by_cases hs : s.uid = uid
  · simp [hs, h.symm]
  · simp [hs]

theorem Sound.of_map {t t' : Table} (hs : t.Sound) {f : Session → Session} (hf : KeepsNames f)
    (h : t'.sessions = t.sessions.map f) (hlast : t'.lastSession = t.lastSession)
    (rising : t'.messages.Pairwise (·.id < ·.id)) (bounded : ∀ m ∈ t'.messages, m.id ≤ t'.lastMessage) : t'.Sound := by
  refine ⟨?_, ?_, fun s hmem => ?_, rising, bounded⟩
  · have huid : (fun s : Session => s.uid) ∘ f = (·.uid) := funext fun s => (hf s).2
    rw [h, List.map_map, huid]
    exact hs.uids
  · have hid : (fun s : Session => s.id) ∘ f = (·.id) := funext fun s => (hf s).1
    rw [h, List.map_map, hid]
    exact hs.ids
  · rw [h] at hmem
    obtain ⟨x, hx, rfl⟩ := List.mem_map.1 hmem
    rw [(hf x).1, hlast]
    exact hs.known x hx

/-! ## Statements -/

theorem addMessage_ok {t t' : Table} {session now : Int} {role content toolName : String} {m : Message}
    (h : t.addMessage session role content toolName now = .ok (m, t')) :
    m.id = t.lastMessage + 1 ∧ m.session = session ∧
      t' = { t with messages := t.messages ++ [m], lastMessage := t.lastMessage + 1 } := by
  unfold addMessage at h
  split at h
  · cases h
  · split at h
    · cases h
    · cases hc : checkColumns [session, now] with
      | error e => rw [hc] at h; cases h
      | ok u =>
        rw [hc] at h
        change (if _ then _ else _) = _ at h
        split at h
        · cases h
          exact ⟨rfl, rfl, rfl⟩
        · cases h

theorem revise_ok {t t' : Table} {uid : String} {title summary : Option String} {now : Int}
    (h : t.revise uid title summary now = .ok t') :
    t' = { t with sessions := t.sessions.map fun s =>
      if s.uid == uid then Session.revised title summary now s else s } := by
  unfold revise at h
  cases hc : checkColumns [now] with
  | error e => rw [hc] at h; cases h
  | ok u => rw [hc] at h; cases h; rfl

/-- The session with this number has another summary, and a new time of change. -/
def Session.summed (id : Int) (summary : String) (now : Int) (s : Session) : Session :=
  if s.id == id then { s with summary := summary, updated := now } else s

theorem keepsNames_summed (id : Int) (summary : String) (now : Int) : KeepsNames (Session.summed id summary now) := by
  intro s
  unfold Session.summed
  split <;> exact ⟨rfl, rfl⟩

theorem compact_ok {t t' : Table} {uid summary : String} {bound now : Int}
    (h : t.compact uid summary bound now = .ok t') : ∃ s, t.session? uid = some s ∧
      t' = { t with
        sessions := t.sessions.map (Session.summed s.id summary now)
        messages := t.messages.filter fun m => !(m.session == s.id && m.id < bound) } := by
  unfold compact at h
  split at h
  · cases h
  · rename_i s hs
    cases hc : checkColumns [now, bound] with
    | error e => rw [hc] at h; cases h
    | ok u => rw [hc] at h; cases h; exact ⟨s, hs, rfl⟩

/-! ## A bound parts the messages that were listed -/

/-- **The bound of a compaction is above every old message, and above no recent one and none that came later.** -/
theorem firstKept_parts {old recent : List Message} {bound : Int} (h : (old ++ recent).Pairwise (·.id < ·.id))
    (hb : Compaction.firstKept old recent = .ok bound) :
    (∀ m ∈ old, m.id < bound) ∧ (∀ m ∈ recent, bound ≤ m.id) ∧
      ∀ n : Int, (∀ m ∈ old ++ recent, m.id < n) → bound ≤ n := by
  obtain ⟨ho, hr, hor⟩ := List.pairwise_append.1 h
  cases recent with
  | cons m recent =>
    cases hb
    refine ⟨fun x hx => hor x hx m List.mem_cons_self, fun x hx => ?_, fun n hn => ?_⟩
    · rcases List.mem_cons.1 hx with rfl | hx
      · exact Int.le_refl _
      · exact Int.le_of_lt (List.rel_of_pairwise_cons hr hx)
    · exact Int.le_of_lt (hn m (List.mem_append_right _ List.mem_cons_self))
  | nil =>
    -- everything listed is old, and the bound is one above the last of it
    cases hl : old.getLast? with
    | none => simp [Compaction.firstKept, hl] at hb
    | some m =>
      have hb : bound = m.id + 1 := by
        simp only [Compaction.firstKept, hl, Except.ok.injEq] at hb
        exact hb.symm
      obtain ⟨front, rfl⟩ := List.getLast?_eq_some_iff.1 hl
      refine ⟨fun x hx => ?_, List.forall_mem_nil _, fun n hn => ?_⟩
      · rcases List.mem_append.1 hx with hx | hx
        · have := (List.pairwise_append.1 ho).2.2 x hx m List.mem_cons_self
          omega
        · rw [List.mem_singleton.1 hx]
          omega
      · have := hn m (by simp)
        omega

theorem filter_parts {old recent : List Message} {bound : Int} (h : (old ++ recent).Pairwise (·.id < ·.id))
    (hb : Compaction.firstKept old recent = .ok bound) :
    (old ++ recent).filter (fun m => decide (bound ≤ m.id)) = recent := by
  obtain ⟨ho, hr, -⟩ := firstKept_parts h hb
  rw [List.filter_append, List.filter_eq_nil_iff.2 fun m hm => by have := ho m hm; simp; omega,
    List.filter_eq_self.2 fun m hm => by simpa using hr m hm, List.nil_append]

/-! ## Compacting -/

theorem Sound.compact {t t' : Table} (hs : t.Sound) {uid summary : String} {bound now : Int}
    (h : t.compact uid summary bound now = .ok t') : t'.Sound := by
  obtain ⟨s, -, rfl⟩ := compact_ok h
  exact hs.of_map (keepsNames_summed _ _ _) rfl rfl (hs.rising.filter _) fun m hm => hs.bounded m (List.mem_filter.1 hm).1

theorem session?_compact {t t' : Table} {uid summary : String} {bound now : Int} {s : Session}
    (hs : t.session? uid = some s) (h : t.compact uid summary bound now = .ok t') :
    t'.session? uid = some { s with summary := summary, updated := now } := by
  obtain ⟨s', hs', rfl⟩ := compact_ok h
  cases hs.symm.trans hs'
  rw [session?_map (keepsNames_summed _ _ _) rfl, hs, Option.map_some, Session.summed, if_pos (by simp)]

theorem live_compact {t t' : Table} {uid summary : String} {bound now : Int} {s : Session}
    (hs : t.session? uid = some s) (h : t.compact uid summary bound now = .ok t') :
    t'.live s.id = (t.live s.id).filter fun m => decide (bound ≤ m.id) := by
  obtain ⟨s', hs', rfl⟩ := compact_ok h
  cases hs.symm.trans hs'
  unfold live
  rw [List.filter_filter, List.filter_filter]
  refine List.filter_congr fun m _ => ?_
  have hlt : decide (m.id < bound) = !decide (bound ≤ m.id) := by
    rw [← decide_not]
    exact decide_eq_decide.2 Int.not_le.symm
  rw [hlt]
  cases m.session == s.id <;> simp

/-- The summary of a session has been extended by a text, and the messages below the recent ones dropped. -/
def Stored (s : Session) (old recent : List Message) (text : String) (t t' : Table) : Prop :=
  ∃ bound now, Compaction.firstKept old recent = .ok bound ∧
    t.compact s.uid (Compaction.extend s.summary text) bound now = .ok t'

namespace Stored

variable {s : Session} {old recent : List Message} {text : String} {t t' : Table}

theorem sound (h : Stored s old recent text t t') (ht : t.Sound) : t'.Sound := by
  obtain ⟨bound, now, -, hc⟩ := h
  exact ht.compact hc

theorem lastMessage (h : Stored s old recent text t t') : t'.lastMessage = t.lastMessage := by
  obtain ⟨bound, now, -, hc⟩ := h
  obtain ⟨x, -, rfl⟩ := compact_ok hc
  rfl

theorem session? (h : Stored s old recent text t t') {x : Session} (hx : t.session? s.uid = some x) :
    ∃ x', t'.session? s.uid = some x' ∧ x'.id = x.id ∧ x'.summary = Compaction.extend s.summary text := by
  obtain ⟨bound, now, -, hc⟩ := h
  exact ⟨_, session?_compact hx hc, rfl, rfl⟩

/-- **When all that is there is listed, the recent messages stay.** -/
theorem live (h : Stored s old recent text t t') (ht : t.Sound) (hs : t.session? s.uid = some s)
    (hl : t.live s.id = old ++ recent) : t'.live s.id = recent := by
  obtain ⟨bound, now, hb, hc⟩ := h
  rw [live_compact hs hc, hl, filter_parts (hl ▸ ht.live_rising s.id) hb]

theorem live_of_ne (h : Stored s old recent text t t') (hs : t.session? s.uid = some s) {other : Int}
    (hne : other ≠ s.id) : t'.live other = t.live other := by
  obtain ⟨bound, now, -, hc⟩ := h
  obtain ⟨x, hx, rfl⟩ := compact_ok hc
  cases hs.symm.trans hx
  unfold Table.live
  rw [List.filter_filter]
  refine List.filter_congr fun m _ => ?_
  by_cases hm : m.session = other
  · simp [hm, hne]
  · simp [hm]

theorem ne_nil (h : Stored s old recent text t t') : old ++ recent ≠ [] := by
  obtain ⟨bound, now, hb, -⟩ := h
  rintro hnil
  obtain ⟨rfl, rfl⟩ := List.append_eq_nil_iff.1 hnil
  cases hb

end Stored

/-! ## Growing -/

/-- The messages carry the numbers after `n`, one after the other. -/
def Numbered : Int → List Message → Prop
  | _, [] => True
  | n, m :: ms => m.id = n + 1 ∧ Numbered (n + 1) ms

theorem Numbered.append : ∀ {n : Int} {ms ms' : List Message}, Numbered n ms → Numbered (n + ms.length) ms' →
    Numbered n (ms ++ ms')
  | n, [], ms', _, h => by simpa using h
  | n, m :: ms, ms', ⟨hm, h⟩, h' => ⟨hm, Numbered.append h (by
      rw [List.length_cons] at h'
      rwa [show n + 1 + (ms.length : Int) = n + ((ms.length + 1 : Nat) : Int) by omega])⟩

theorem Numbered.lt_of_mem : ∀ {n : Int} {ms : List Message}, Numbered n ms → ∀ m ∈ ms, n < m.id
  | _, _ :: _, ⟨hm, h⟩, x, hx => by
    rcases List.mem_cons.1 hx with rfl | hx
    · omega
    · have := h.lt_of_mem x hx
      omega

theorem Numbered.le_of_mem : ∀ {n : Int} {ms : List Message}, Numbered n ms → ∀ m ∈ ms, m.id ≤ n + ms.length
  | n, a :: ms, ⟨hm, h⟩, x, hx => by
    rw [List.length_cons]
    rcases List.mem_cons.1 hx with rfl | hx
    · omega
    · have := h.le_of_mem x hx
      omega

theorem Numbered.rising : ∀ {n : Int} {ms : List Message}, Numbered n ms → ms.Pairwise (·.id < ·.id)
  | _, [], _ => .nil
  | _, m :: ms, ⟨hm, h⟩ => .cons (fun x hx => by have := h.lt_of_mem x hx; omega) h.rising

/-- Messages of the session have been added under the next numbers, and sessions have changed, if at all, in what is no
name and no summary. -/
structure Grows (session : Int) (t t' : Table) : Prop where
  sessions : ∃ f : Session → Session, KeepsNames f ∧ (∀ s, (f s).summary = s.summary) ∧ t'.sessions = t.sessions.map f
  lastSession : t'.lastSession = t.lastSession
  messages : ∃ added, t'.messages = t.messages ++ added ∧ (∀ m ∈ added, m.session = session) ∧
    Numbered t.lastMessage added ∧ t'.lastMessage = t.lastMessage + added.length

variable {session : Int}

theorem Grows.refl (session : Int) (t : Table) : Grows session t t :=
  ⟨⟨id, fun _ => ⟨rfl, rfl⟩, fun _ => rfl, (List.map_id _).symm⟩, rfl,
    ⟨[], (List.append_nil _).symm, List.forall_mem_nil _, trivial, (Int.add_zero _).symm⟩⟩

theorem Grows.trans {t t' t'' : Table} (h : Grows session t t') (h' : Grows session t' t'') : Grows session t t'' := by
  obtain ⟨⟨f, hf, hfs, hs⟩, hlast, added, hm, ha, hn, hl⟩ := h
  obtain ⟨⟨f', hf', hfs', hs'⟩, hlast', added', hm', ha', hn', hl'⟩ := h'
  refine ⟨⟨f' ∘ f, fun s => ⟨(hf' _).1.trans (hf s).1, (hf' _).2.trans (hf s).2⟩, fun s => (hfs' _).trans (hfs s), ?_⟩,
    hlast'.trans hlast, ⟨added ++ added', ?_, fun m hmem => ?_, hn.append (hl ▸ hn'), ?_⟩⟩
  · rw [hs', hs, List.map_map]
  · rw [hm', hm, List.append_assoc]
  · exact (List.mem_append.1 hmem).elim (ha m) (ha' m)
  · rw [hl', hl, List.length_append]
    omega

theorem grows_addMessage {t t' : Table} {now : Int} {role content toolName : String} {m : Message}
    (h : t.addMessage session role content toolName now = .ok (m, t')) : Grows session t t' := by
  obtain ⟨hid, hs, rfl⟩ := addMessage_ok h
  exact ⟨(Grows.refl session t).sessions, rfl, [m], rfl, fun x hx => List.mem_singleton.1 hx ▸ hs, ⟨hid, trivial⟩, rfl⟩

theorem grows_revise {t t' : Table} {uid : String} {title : Option String} {now : Int}
    (h : t.revise uid title none now = .ok t') : Grows session t t' := by
  rw [revise_ok h]
  refine ⟨⟨_, fun s => ?_, fun s => ?_, rfl⟩, rfl, (Grows.refl session t).messages⟩
  · split <;> exact ⟨rfl, rfl⟩
  · split <;> rfl

theorem Sound.grows {t t' : Table} (hs : t.Sound) (h : Grows session t t') : t'.Sound := by
  obtain ⟨⟨f, hf, -, hsess⟩, hlast, added, hm, -, hn, hl⟩ := h
  refine hs.of_map hf hsess hlast ?_ fun m hmem => ?_
  · rw [hm]
    refine List.pairwise_append.2 ⟨hs.rising, hn.rising, fun a ha b hb => ?_⟩
    have := hs.bounded a ha
    have := hn.lt_of_mem b hb
    omega
  · rw [hm] at hmem
    rw [hl]
    rcases List.mem_append.1 hmem with hmem | hmem
    · have := hs.bounded m hmem
      omega
    · exact hn.le_of_mem m hmem

theorem Grows.live {t t' : Table} (ht : t.Sound) (h : Grows session t t') : ∃ added,
    t'.live session = t.live session ++ added ∧
      (t'.live session).filter (fun m => decide (t.lastMessage < m.id)) = added ∧
      Numbered t.lastMessage added ∧ t'.lastMessage = t.lastMessage + added.length := by
  obtain ⟨-, -, added, hm, hadded, hn, hl⟩ := h
  have happ := live_append hm hadded
  refine ⟨added, happ, ?_, hn, hl⟩
  have hold : ∀ m ∈ t.live session, ¬t.lastMessage < m.id := fun m hm => by
    have := ht.bounded m (mem_live.1 hm).1
    omega
  rw [happ, List.filter_append, List.filter_eq_nil_iff.2 (by simpa using hold),
    List.filter_eq_self.2 (by simpa using hn.lt_of_mem), List.nil_append]

theorem Grows.live_of_ne {t t' : Table} (h : Grows session t t') {other : Int} (hne : session ≠ other) :
    t'.live other = t.live other := by
  obtain ⟨-, -, added, hm, hadded, -⟩ := h
  have hnone : added.filter (·.session == other) = [] :=
    List.filter_eq_nil_iff.2 fun m hmem => by simpa [hadded m hmem] using hne
  rw [Table.live, hm, List.filter_append, hnone, List.append_nil]
  rfl

theorem Grows.live_ne_nil {t t' : Table} (h : Grows session t t') (hne : t.live session ≠ []) : t'.live session ≠ [] := by
  obtain ⟨-, -, added, hm, hadded, -⟩ := h
  rw [live_append hm hadded]
  exact List.append_ne_nil_of_left_ne_nil hne _

theorem Grows.session? {t t' : Table} (h : Grows session t t') {uid : String} {s : Session}
    (hs : t.session? uid = some s) : ∃ s', t'.session? uid = some s' ∧ s'.id = s.id ∧ s'.summary = s.summary := by
  obtain ⟨⟨f, hf, hfs, hsess⟩, -⟩ := h
  exact ⟨f s, by rw [session?_map hf hsess, hs]; rfl, (hf s).1, hfs s⟩

/-! ## Later -/

/-- The sessions are still there under their names, and messages that were not there before carry larger numbers than any
given before. -/
structure Later (t t' : Table) : Prop where
  names : ∀ s ∈ t.sessions, ∃ s' ∈ t'.sessions, s'.id = s.id ∧ s'.uid = s.uid
  last : t.lastMessage ≤ t'.lastMessage
  fresh : ∀ m ∈ t'.messages, m ∈ t.messages ∨ t.lastMessage < m.id

theorem Later.refl (t : Table) : Later t t := ⟨fun s h => ⟨s, h, rfl, rfl⟩, Int.le_refl _, fun _ h => .inl h⟩

theorem Later.trans {t t' t'' : Table} (h : Later t t') (h' : Later t' t'') : Later t t'' := by
  refine ⟨fun s hs => ?_, Int.le_trans h.last h'.last, fun m hm => ?_⟩
  · obtain ⟨s', hs', hid, huid⟩ := h.names s hs
    obtain ⟨s'', hs'', hid', huid'⟩ := h'.names s' hs'
    exact ⟨s'', hs'', hid'.trans hid, huid'.trans huid⟩
  · rcases h'.fresh m hm with hm | hm
    · exact h.fresh m hm
    · exact .inr (Int.lt_of_le_of_lt h.last hm)

theorem Grows.later {t t' : Table} (h : Grows session t t') : Later t t' := by
  obtain ⟨⟨f, hf, -, hs⟩, -, added, hm, -, hn, hl⟩ := h
  refine ⟨fun s hmem => ⟨f s, hs ▸ List.mem_map_of_mem hmem, hf s⟩, by omega, fun m hmem => ?_⟩
  rw [hm] at hmem
  rcases List.mem_append.1 hmem with hmem | hmem
  · exact .inl hmem
  · exact .inr (hn.lt_of_mem m hmem)

theorem Stored.later {s : Session} {old recent : List Message} {text : String} {t t' : Table}
    (h : Stored s old recent text t t') : Later t t' := by
  obtain ⟨bound, now, -, hc⟩ := h
  obtain ⟨y, -, rfl⟩ := compact_ok hc
  exact ⟨fun x hx => ⟨_, List.mem_map_of_mem hx, keepsNames_summed _ _ _ x⟩, Int.le_refl _,
    fun m hm => .inl (List.mem_filter.1 hm).1⟩

theorem Later.session? {t t' : Table} (h : Later t t') (ht' : t'.Sound) {uid : String} {s : Session}
    (hs : t.session? uid = some s) : ∃ s', t'.session? uid = some s' ∧ s'.id = s.id := by
  obtain ⟨hmem, huid⟩ := session?_some hs
  obtain ⟨x, hx, hid, hxuid⟩ := h.names s hmem
  cases hfound : t'.session? uid with
  | none => exact absurd (hxuid.trans huid) (by simpa using List.find?_eq_none.1 hfound x hx)
  | some y =>
    obtain ⟨hy, hyuid⟩ := session?_some hfound
    have hyx : y = x := ht'.eq_of_uid hy hx (hyuid.trans (hxuid.trans huid).symm)
    exact ⟨y, rfl, hyx ▸ hid⟩

/-- A message that is gone under a number given before stays away. -/
theorem Later.gone {t t' : Table} (h : Later t t') {m : Message} (hm : m ∉ t.messages) (hlast : m.id ≤ t.lastMessage) :
    m ∉ t'.messages := by
  intro hmem
  rcases h.fresh m hmem with hmem | hlt
  · exact hm hmem
  · omega

/-! ## Sound from the empty tables on -/

theorem sound_empty : empty.Sound := ⟨.nil, .nil, List.forall_mem_nil _, .nil, List.forall_mem_nil _⟩

theorem addSession_ok {t t' : Table} {uid title : String} {owner now : Int} {s : Session}
    (h : t.addSession uid owner title now = .ok (s, t')) :
    (∀ x ∈ t.sessions, x.uid ≠ uid) ∧ s.uid = uid ∧ s.id = t.lastSession + 1 ∧
      t' = { t with sessions := t.sessions ++ [s], lastSession := s.id } := by
  unfold addSession at h
  cases hc : checkColumns [owner, now] with
  | error e => rw [hc] at h; cases h
  | ok u =>
    rw [hc] at h
    change (if _ then _ else _) = _ at h
    split at h
    · cases h
    · rename_i hfree
      cases h
      simp only [List.any_eq_true, beq_iff_eq, not_exists, not_and] at hfree
      exact ⟨hfree, rfl, rfl, rfl⟩

theorem Sound.addSession {t t' : Table} (hs : t.Sound) {uid title : String} {owner now : Int} {s : Session}
    (h : t.addSession uid owner title now = .ok (s, t')) : t'.Sound := by
  obtain ⟨hfree, huid, hid, rfl⟩ := addSession_ok h
  refine ⟨?_, ?_, fun x hx => ?_, hs.rising, hs.bounded⟩
  · rw [List.map_append, List.nodup_append]
    refine ⟨hs.uids, List.nodup_singleton _, fun a ha b hb => ?_⟩
    obtain ⟨x, hx, rfl⟩ := List.mem_map.1 ha
    cases List.mem_singleton.1 hb
    change x.uid ≠ s.uid
    rw [huid]
    exact hfree x hx
  · rw [List.map_append, List.nodup_append]
    refine ⟨hs.ids, List.nodup_singleton _, fun a ha b hb => ?_⟩
    obtain ⟨x, hx, rfl⟩ := List.mem_map.1 ha
    cases List.mem_singleton.1 hb
    change x.id ≠ s.id
    have := hs.known x hx
    omega
  · rcases List.mem_append.1 hx with hx | hx
    · have := hs.known x hx
      simp only [hid]
      omega
    · exact Int.le_of_eq (congrArg Session.id (List.mem_singleton.1 hx))

theorem session?_addSession {t t' : Table} {uid title : String} {owner now : Int} {s : Session}
    (h : t.addSession uid owner title now = .ok (s, t')) : t'.session? s.uid = some s := by
  obtain ⟨hfree, huid, -, rfl⟩ := addSession_ok h
  have hnone : t.sessions.find? (·.uid == s.uid) = none :=
    List.find?_eq_none.2 fun x hx => by simpa [huid] using hfree x hx
  rw [session?, List.find?_append, hnone]
  simp

/-- A session that was just added has no messages, where all messages belong to sessions. -/
theorem Sound.live_addSession {t t' : Table} (hs : t.Sound)
    (hbelongs : ∀ m ∈ t.messages, ∃ x ∈ t.sessions, x.id = m.session) {uid title : String} {owner now : Int} {s : Session}
    (h : t.addSession uid owner title now = .ok (s, t')) : t'.live s.id = [] := by
  obtain ⟨-, -, hid, rfl⟩ := addSession_ok h
  refine List.filter_eq_nil_iff.2 fun m hm => ?_
  obtain ⟨x, hx, hsession⟩ := hbelongs m hm
  have hknown := hs.known x hx
  rw [beq_iff_eq]
  omega

theorem Sound.addMessage {t t' : Table} (hs : t.Sound) {session now : Int} {role content toolName : String} {m : Message}
    (h : t.addMessage session role content toolName now = .ok (m, t')) : t'.Sound := hs.grows (grows_addMessage h)

theorem Sound.revise {t t' : Table} (hs : t.Sound) {uid : String} {title summary : Option String} {now : Int}
    (h : t.revise uid title summary now = .ok t') : t'.Sound := by
  rw [revise_ok h]
  refine hs.of_map (fun s => ?_) rfl rfl hs.rising hs.bounded
  split <;> exact ⟨rfl, rfl⟩

end Table
end Chat
end NoteAgent
