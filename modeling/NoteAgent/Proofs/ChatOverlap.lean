import Mathlib.Logic.Function.Basic
import NoteAgent.Proofs.ChatSteps
/-!
# ChatOverlap — compactions that overlap delete only what they were shown

Any number of requests are under way at once, each at a stage of its own, and messages are stored in any sessions at any
time (`Hall`).  A compaction deletes by a bound on numbers that it took from a listing which may be old by then.  What makes
this safe is kept by every step for every request (`Stage.Sees`): a message of the session that is there is in the listing
or has a larger number than any message of it.
-/
namespace NoteAgent
namespace Chat

open Compaction (promptFor)
open Table (Later Stored)

/-! ## What a listing stays good for -/

/-- The session is in the tables under its name and its number. -/
def Named (t : Table) (uid : String) (s : Session) : Prop := s.uid = uid ∧ ∃ x ∈ t.sessions, x.id = s.id ∧ x.uid = uid

/-- A listing of a session that may be old: whatever is in the session is listed or came later. -/
structure Listing (t : Table) (s : Session) (old recent : List Message) : Prop where
  rising : (old ++ recent).Pairwise (·.id < ·.id)
  own : ∀ m ∈ old ++ recent, m.session = s.id
  given : ∀ m ∈ old ++ recent, m.id ≤ t.lastMessage
  rest : ∀ m ∈ t.live s.id, m ∈ old ++ recent ∨ ∀ x ∈ old ++ recent, x.id < m.id
  some : old = [] → recent = []

/-- **What a stage can rely on**, however long ago it was reached. -/
def Stage.Sees (uid : String) (w : World) : Stage → Prop
  | .waiting => True
  | .loaded s => Named w.chats uid s
  | .listed s old recent => Named w.chats uid s ∧ Listing w.chats s old recent
  | .summarised s old recent _ =>
      Named w.chats uid s ∧ Listing w.chats s old recent ∧ promptFor old ∈ w.model.prompts
  | .over (some (old, _)) => promptFor old ∈ w.model.prompts ∧ old ≠ [] ∧
      ∀ m ∈ old, m ∉ w.chats.messages ∧ m.id ≤ w.chats.lastMessage
  | .over none => True
  | .failed => True

theorem Named.later {t t' : Table} {uid : String} {s : Session} (h : Named t uid s) (ht : Later t t') :
    Named t' uid s := by
  obtain ⟨huid, x, hx, hid, hname⟩ := h
  obtain ⟨x', hx', hid', hname'⟩ := ht.names x hx
  exact ⟨huid, x', hx', hid'.trans hid, hname'.trans hname⟩

theorem Named.id_eq {t : Table} {uid : String} {s x : Session} (h : Named t uid s) (ht : t.Sound)
    (hx : t.session? uid = some x) : x.id = s.id := by
  obtain ⟨-, y, hy, hid, hname⟩ := h
  obtain ⟨hmem, huid⟩ := Table.session?_some hx
  have hxy : x = y := ht.eq_of_uid hmem hy (huid.trans hname.symm)
  rw [hxy, hid]

theorem listing_split {t : Table} (ht : t.Sound) {policy : Compaction.Policy} {s : Session} {n : Nat}
    (hn : Compaction.oldCount? policy (t.live s.id) = some n) :
    Listing t s ((t.live s.id).take n) ((t.live s.id).drop n) := by
  have hlive := List.take_append_drop n (t.live s.id)
  refine ⟨hlive.symm ▸ ht.live_rising s.id, fun m hm => ?_, fun m hm => ?_, fun m hm => .inl (hlive.symm ▸ hm), ?_⟩
  · rw [hlive] at hm
    exact (Table.mem_live.1 hm).2
  · rw [hlive] at hm
    exact ht.bounded m (Table.mem_live.1 hm).1
  · intro hold
    have hpos := Compaction.oldCount?_pos hn
    rcases List.take_eq_nil_iff.1 hold with hzero | hnil
    · omega
    · rw [hnil, List.drop_nil]

theorem Listing.later {t t' : Table} {s : Session} {old recent : List Message} (h : Listing t s old recent)
    (ht : Later t t') : Listing t' s old recent where
  rising := h.rising
  own := h.own
  given m hm := Int.le_trans (h.given m hm) ht.last
  rest m hm := by
    obtain ⟨hmem, hs⟩ := Table.mem_live.1 hm
    rcases ht.fresh m hmem with hmem | hlt
    · exact h.rest m (Table.mem_live.2 ⟨hmem, hs⟩)
    · exact .inr fun x hx => Int.lt_of_le_of_lt (h.given x hx) hlt
  some := h.some

/-- **What a stage relies on stays true.** -/
theorem Stage.Sees.later {uid : String} {w w' : World} (ht : Later w.chats w'.chats) (ho : w.Onward w') :
    ∀ {st : Stage}, st.Sees uid w → st.Sees uid w'
  | .waiting, _ => trivial
  | .loaded _, h => Named.later h ht
  | .listed .., ⟨hn, hl⟩ => ⟨hn.later ht, hl.later ht⟩
  | .summarised .., ⟨hn, hl, hp⟩ => ⟨hn.later ht, hl.later ht, ho.prompts.subset hp⟩
  | .over (some _), ⟨hp, hne, hgone⟩ => ⟨ho.prompts.subset hp, hne, fun m hm =>
      ⟨ht.gone (hgone m hm).1 (hgone m hm).2, Int.le_trans (hgone m hm).2 ht.last⟩⟩
  | .over none, _ => trivial
  | .failed, _ => trivial

/-! ## What a compaction deletes -/

section
variable {t t' : Table} {uid text : String} {s : Session} {old recent : List Message}

/-- **A compaction deletes messages of its own session that it was shown**, however old its listing is. -/
theorem Listing.deletes (h : Listing t s old recent) (hn : Named t uid s) (ht : t.Sound)
    (hstored : Stored s old recent text t t') {m : Message} (hm : m ∈ t.messages) (hgone : m ∉ t'.messages) :
    m.session = s.id ∧ m ∈ old := by
  obtain ⟨bound, now, hb, hc⟩ := hstored
  obtain ⟨x, hx, rfl⟩ := Table.compact_ok hc
  rw [hn.1] at hx
  have hid := hn.id_eq ht hx
  obtain ⟨-, hrecent, hlater⟩ := Table.firstKept_parts h.rising hb
  have hboth : m.session = x.id ∧ m.id < bound := by
    by_contra hno
    refine hgone (List.mem_filter.2 ⟨hm, ?_⟩)
    have hkept := not_and_or.1 hno
    simpa using hkept
  have hs : m.session = s.id := hboth.1.trans hid
  refine ⟨hs, ?_⟩
  -- what is recent, and what came after the listing, is not below the bound
  rcases h.rest m (Table.mem_live.2 ⟨hm, hs⟩) with hlisted | hnewer
  · rcases List.mem_append.1 hlisted with hold | hkept
    · exact hold
    · have := hrecent m hkept
      omega
  · have := hlater m.id hnewer
    omega

theorem Listing.deleted (h : Listing t s old recent) (hn : Named t uid s) (ht : t.Sound)
    (hstored : Stored s old recent text t t') : ∀ m ∈ old, m ∉ t'.messages ∧ m.id ≤ t'.lastMessage := by
  intro m hm
  rw [hstored.lastMessage]
  refine ⟨fun hmem => ?_, h.given m (List.mem_append_left _ hm)⟩
  obtain ⟨bound, now, hb, hc⟩ := hstored
  obtain ⟨hold, -, -⟩ := Table.firstKept_parts h.rising hb
  obtain ⟨x, hx, rfl⟩ := Table.compact_ok hc
  rw [hn.1] at hx
  have hs := h.own m (List.mem_append_left _ hm)
  have hkept := (List.mem_filter.1 hmem).2
  simp [hs, hn.id_eq ht hx, hold m hm] at hkept

end

/-! ## Every step keeps it -/

/-- What one step does: the tables stay sound and go on, and the request can rely on its new stage. -/
theorem Stage.sees_advance {q : Request} {st : Stage} {w : World} (hw : w.chats.Sound) (h : st.Sees q.uid w) :
    (st.advance q w).2.chats.Sound ∧ Later w.chats (st.advance q w).2.chats ∧
      (st.advance q w).1.Sees q.uid (st.advance q w).2 := by
  have honward := advance_onward q st w
  have hmoves := advance_moves q st w
  generalize (st.advance q w).1 = st' at hmoves ⊢
  generalize (st.advance q w).2 = w' at honward hmoves ⊢
  cases hmoves with
  | loads hc hfound =>
    obtain ⟨hmem, huid⟩ := Table.session?_some hfound
    rw [Sees, hc]
    exact ⟨hw, .refl _, huid, _, hmem, rfl, huid⟩
  | passes hc =>
    rw [hc]
    exact ⟨hw, .refl _, trivial⟩
  | lists hc hn =>
    rw [Sees, hc]
    exact ⟨hw, .refl _, h, listing_split hw hn⟩
  | summarises hc hasked =>
    rw [Sees, hc]
    exact ⟨hw, .refl _, h.1, h.2, hasked⟩
  | stores hstored =>
    obtain ⟨hn, hl, hasked⟩ := h
    refine ⟨hstored.sound hw, hstored.later, honward.prompts.subset hasked, ?_, hl.deleted hn hw hstored⟩
    rintro rfl
    exact hstored.ne_nil (hl.some rfl)
  | loses _ hstored => exact ⟨hstored.sound hw, hstored.later, trivial⟩
  | fails hc =>
    rw [hc]
    exact ⟨hw, .refl _, trivial⟩
  | rests hc =>
    have hlater : Later w.chats w'.chats := hc ▸ .refl _
    exact ⟨hc ▸ hw, hlater, h.later hlater honward⟩

namespace Hall

variable {qs : Nat → Request} {h : Hall}

/-- The tables are sound, and every request can rely on its stage. -/
structure Sees (qs : Nat → Request) (h : Hall) : Prop where
  sound : h.world.chats.Sound
  stages : ∀ i, (h.stages i).Sees (qs i).uid h.world

theorem sees_start {w : World} (hw : w.chats.Sound) : Sees qs (machine qs w).start := ⟨hw, fun _ => trivial⟩

/-- The tables go on, and no prompt is forgotten. -/
structure Onward (h h' : Hall) : Prop where
  chats : Later h.world.chats h'.world.chats
  world : h.world.Onward h'.world

theorem after_post (qs : Nat → Request) (h : Hall) (session : Int) (role content toolName : String) :
    Table.Grows session h.world.chats (after qs h (.post session role content toolName)).world.chats ∧
      h.world.Onward (after qs h (.post session role content toolName)).world := by
  obtain ⟨hb, hsame | ⟨m, hm⟩⟩ := World.addMessage_ends session role content toolName h.world
  · refine ⟨?_, hb.onward⟩
    rw [after, hsame]
    exact .refl _ _
  · exact ⟨Table.grows_addMessage hm, hb.onward⟩

/-- The request whose turn it is moves, and no other. -/
theorem after_step (qs : Nat → Request) (h : Hall) (i : Nat) :
    Stage.Moves (qs i) h.world (after qs h (.step i)).world (h.stages i) ((after qs h (.step i)).stages i) ∧
      ∀ j, j ≠ i → (after qs h (.step i)).stages j = h.stages j := by
  refine ⟨?_, fun j hj => Function.update_of_ne hj _ _⟩
  have hi : (after qs h (.step i)).stages i = ((h.stages i).advance (qs i) h.world).1 := Function.update_self _ _ _
  rw [hi]
  exact Stage.advance_moves _ _ _

/-- **Whatever happens, every request can rely on its stage.** -/
theorem Sees.after (hs : Sees qs h) (e : Happening) : Sees qs (after qs h e) ∧ Onward h (Hall.after qs h e) := by
  cases e with
  | step i =>
    have honward := Stage.advance_onward (qs i) (h.stages i) h.world
    obtain ⟨hsound, hlater, hsees⟩ := Stage.sees_advance hs.sound (hs.stages i)
    refine ⟨⟨hsound, fun j => ?_⟩, hlater, honward⟩
    by_cases hj : j = i
    · subst hj
      simpa [Hall.after] using hsees
    · rw [(after_step qs h i).2 j hj]
      exact (hs.stages j).later hlater honward
  | post session role content toolName =>
    obtain ⟨hgrows, honward⟩ := after_post qs h session role content toolName
    exact ⟨⟨hs.sound.grows hgrows, fun j => (hs.stages j).later hgrows.later honward⟩, hgrows.later, honward⟩
  | wait clock =>
    have honward : h.world.Onward (Hall.after qs h (.wait clock)).world := ⟨rfl, List.prefix_rfl⟩
    have hlater : Later h.world.chats (Hall.after qs h (.wait clock)).world.chats := .refl _
    exact ⟨⟨hs.sound, fun j => (hs.stages j).later hlater honward⟩, hlater, honward⟩

theorem Sees.runFrom (hs : Sees qs h) (w : World) (es : List Happening) :
    Sees qs ((machine qs w).runFrom h es) ∧ Onward h ((machine qs w).runFrom h es) := by
  refine (machine qs w).runFrom_keeps (P := fun h' => Sees qs h' ∧ Onward h h') ?_ ⟨hs, .refl _, .refl _⟩ es
  rintro h' e ⟨hs', ho⟩
  obtain ⟨hs'', ho'⟩ := hs'.after e
  exact ⟨hs'', ho.chats.trans ho'.chats, ho.world.trans ho'.world⟩

theorem sees_run {w : World} (hw : w.chats.Sound) (es : List Happening) : Sees qs ((machine qs w).run es) :=
  ((sees_start hw).runFrom w es).1

/-- A message that is gone after a step was deleted by a compaction that was shown it. -/
theorem Sees.deletes (hs : Sees qs h) {e : Happening} {m : Message} (hm : m ∈ h.world.chats.messages)
    (hgone : m ∉ (Hall.after qs h e).world.chats.messages) : ∃ i s old recent text,
      e = .step i ∧ h.stages i = .summarised s old recent text ∧ m.session = s.id ∧ m ∈ old := by
  cases e with
  | post session role content toolName =>
    obtain ⟨added, hmessages, -⟩ := (after_post qs h session role content toolName).1.messages
    rw [hmessages] at hgone
    exact absurd (List.mem_append_left _ hm) hgone
  | wait clock => exact absurd hm hgone
  | step i =>
    have hsees := hs.stages i
    obtain hsame | ⟨s, old, recent, text, hst, -, hstored⟩ := (after_step qs h i).1.chats
    · exact absurd (hsame ▸ hm) hgone
    · rw [hst] at hsees
      obtain ⟨hn, hl, -⟩ := hsees
      exact ⟨i, s, old, recent, text, rfl, hst, hl.deletes hn hs.sound hstored hm hgone⟩

/-- **A compaction deletes only messages of its own session that the model was shown for it**, in whatever order requests
take their steps and messages are stored: whatever is gone after something happened was old in the listing of a request
that stored its summary just then, and was there already at every moment since that listing. -/
theorem after_deletes_shown (qs : Nat → Request) {w : World} (hw : w.chats.Sound) (es : List Happening) (e : Happening)
    {m : Message} (hm : m ∈ ((machine qs w).run es).world.chats.messages)
    (hgone : m ∉ (after qs ((machine qs w).run es) e).world.chats.messages) :
    ∃ i s old recent text, e = .step i ∧ ((machine qs w).run es).stages i = .summarised s old recent text ∧
      Named ((machine qs w).run es).world.chats (qs i).uid s ∧ m.session = s.id ∧ m ∈ old ∧
      promptFor old ∈ ((machine qs w).run es).world.model.prompts ∧
      ∀ pre post, es = pre ++ post → ((machine qs w).run pre).stages i = .listed s old recent →
        m ∈ ((machine qs w).run pre).world.chats.messages := by
  have hs : Sees qs ((machine qs w).run es) := sees_run hw es
  obtain ⟨i, s, old, recent, text, he, hstage, hsession, hold⟩ := hs.deletes hm hgone
  have hsees := hs.stages i
  rw [hstage] at hsees
  refine ⟨i, s, old, recent, text, he, hstage, hsees.1, hsession, hold, hsees.2.2, ?_⟩
  rintro pre post rfl hlisted
  have hpre : Sees qs ((machine qs w).run pre) := sees_run hw pre
  have hsees' := hpre.stages i
  rw [hlisted] at hsees'
  rw [Machine.run_append] at hm
  -- were it not there at the listing, its number would keep it away for good
  by_contra hno
  exact (hpre.runFrom w post).2.chats.gone hno (hsees'.2.given m (List.mem_append_left _ hold)) hm

/-- Whenever there is something, all of it is folded away. -/
def keepNone : Nat → Request := fun _ => ⟨1, "s", ⟨0, 0⟩⟩

/-- The message that a request lists, and the one that is stored when it has. -/
def early : Message := ⟨1, 1, userRole, "hello", "", 1, 5⟩
def late : Message := ⟨2, 1, userRole, "wait", "", 1, 5⟩

/-- A request up to the storing of its summary. -/
def aboutToStore : Hall :=
  (machine keepNone newSession).run
    [.post 1 userRole "hello" "", .step 0, .step 0, .post 1 userRole "wait" "", .step 0]

theorem after_deletes_shown_early :
    aboutToStore.world.chats.messages = [early, late] ∧
      (after keepNone aboutToStore (.step 0)).world.chats.messages = [late] ∧
      ∃ s old recent text, aboutToStore.stages 0 = .summarised s old recent text ∧ early ∈ old := by
  have hsound : newSession.chats.Sound := ⟨by decide, by decide, by decide, .nil, List.forall_mem_nil _⟩
  have hthere : early ∈ aboutToStore.world.chats.messages := by decide +kernel
  have hgone : early ∉ (after keepNone aboutToStore (.step 0)).world.chats.messages := by decide +kernel
  obtain ⟨i, s, old, recent, text, hi, hstage, -, -, hold, -⟩ :=
    after_deletes_shown keepNone hsound _ (.step 0) hthere hgone
  cases hi
  exact ⟨by decide +kernel, by decide +kernel, s, old, recent, text, hstage, hold⟩

end Hall
end Chat
end NoteAgent
