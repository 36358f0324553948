import NoteAgent.Chat.Deed
import NoteAgent.Proofs.TurnReach
/-!
# ChatLedger — nothing said in a session is lost over turns

Beside the world a ledger is kept of one session: the messages that were stored in it, and what its compactions folded into
which texts.  The entry of a turn is read off its two ends and off the stage that its compaction came to.  For turns one
after another the ledger balances: what was stored is what was folded, in order, and then what is there; the summary is the
texts, in order, with blank lines between them (`afterTurns_balances`).
-/
namespace NoteAgent
namespace Chat

open Compaction (extend promptFor)
open Table (Numbered Grows Stored)
open World (Growing)

/-! ## One compaction that nothing comes between -/

/-- What a request that nothing comes between has done by the time it is at a stage. -/
def Stage.Sole (s : Session) (w w' : World) : Stage → Prop
  | .waiting => w'.chats = w.chats
  | .loaded x => w'.chats = w.chats ∧ x = s
  | .listed x old recent => w'.chats = w.chats ∧ x = s ∧ w.chats.live s.id = old ++ recent
  | .summarised x old recent text => w'.chats = w.chats ∧ x = s ∧ w.chats.live s.id = old ++ recent ∧ text ≠ "" ∧
      promptFor old ∈ w'.model.prompts
  | .over (some (old, text)) => text ≠ "" ∧ promptFor old ∈ w'.model.prompts ∧
      ∃ recent, w.chats.live s.id = old ++ recent ∧ Stored s old recent text w.chats w'.chats
  | .over none => w'.chats = w.chats
  | .failed => w'.chats = w.chats

theorem Stage.Sole.same {s : Session} {w w' : World} : ∀ {st : Stage}, st.Sole s w w' → st.folded = none →
    w'.chats = w.chats
  | .waiting, h, _ => h
  | .loaded _, h, _ => h.1
  | .listed .., h, _ => h.1
  | .summarised .., h, _ => h.1
  | .over none, h, _ => h
  | .failed, h, _ => h

namespace Request

variable {q : Request} {s : Session} {w w' : World}

theorem sole_step (hw' : w'.Steady) (hs : w.chats.session? q.uid = some s) {st : Stage} (h : st.Sole s w w') :
    (q.step (st, w')).1.Sole s w (q.step (st, w')).2 := by
  have honward := Stage.advance_onward q st w'
  have hmoves := Stage.advance_moves q st w'
  change (st.advance q w').1.Sole s w (st.advance q w').2
  generalize (st.advance q w').1 = st' at hmoves ⊢
  generalize (st.advance q w').2 = w'' at honward hmoves ⊢
  cases hmoves with
  | loads hc hfound =>
    rw [h, hs] at hfound
    cases hfound
    exact ⟨hc.trans h, rfl⟩
  | passes hc => exact hc.trans h.1
  | lists hc hn =>
    obtain ⟨hsame, rfl⟩ := h
    exact ⟨hc.trans hsame, rfl, by rw [hsame, List.take_append_drop]⟩
  | summarises hc hasked htext =>
    obtain ⟨hsame, hx, hl⟩ := h
    exact ⟨hc.trans hsame, hx, hl, htext, hasked⟩
  | stores hstored =>
    obtain ⟨hsame, rfl, hl, htext, hasked⟩ := h
    rw [hsame] at hstored
    exact ⟨htext, honward.prompts.subset hasked, _, hl, hstored⟩
  | loses struck => exact absurd hw' struck
  | fails hc unfinished =>
    have hnone : st.folded = none := by
      unfold Stage.folded
      split
      · exact absurd rfl (unfinished _)
      · rfl
    exact hc.trans (h.same hnone)
  | @rests folded hc =>
    rcases folded with _ | ⟨old, text⟩
    · exact hc.trans h
    · obtain ⟨htext, hasked, recent, hl, hstored⟩ := h
      exact ⟨htext, honward.prompts.subset hasked, recent, hl, hc ▸ hstored⟩

theorem step_onward (q : Request) (p : Stage × World) : p.2.Onward (q.step p).2 := Stage.advance_onward q p.1 p.2

theorem alone_onward (q : Request) (w : World) : w.Onward (q.alone w).2 :=
  (((step_onward q (.waiting, w)).trans (step_onward q _)).trans (step_onward q _)).trans (step_onward q _)

/-- **A request that nothing comes between either leaves the chats or stores what it folded away**, all that was there but
the recent messages. -/
theorem sole_alone (hw : w.Steady) (hs : w.chats.session? q.uid = some s) : (q.alone w).1.Sole s w (q.alone w).2 := by
  have hsteady : ∀ p : Stage × World, w.Onward p.2 → p.2.Steady := fun p h => hw.of_strikes h.strikes
  have h₁ := step_onward q (.waiting, w)
  have h₂ := h₁.trans (step_onward q _)
  have h₃ := h₂.trans (step_onward q _)
  have hsole : Stage.Sole s w w .waiting := rfl
  exact sole_step (hsteady _ h₃) hs (sole_step (hsteady _ h₂) hs (sole_step (hsteady _ h₁) hs (sole_step hw hs hsole)))

end Request

/-! ## The ledger -/

/-- What was stored in a session, and what its compactions folded into which texts. -/
structure Ledger where
  stored : List Message
  folded : List (List Message × String)

namespace Ledger

def empty : Ledger := ⟨[], []⟩

/-- The ledger after a turn: the messages above the largest number before it have been stored, and its compaction has
folded what it came to. -/
def enter (l : Ledger) (session : Int) (before after : Table) (compaction : Stage) : Ledger where
  stored := l.stored ++ (after.live session).filter (before.lastMessage < ·.id)
  folded := l.folded ++ compaction.folded.toList

/-- The texts of the compactions, with blank lines between them. -/
def summary (l : Ledger) : String := "\n\n".intercalate (l.folded.map (·.2))

/-- The ledger of a session balances. -/
structure Balances (session : Int) (uid : String) (start : Int) (w : World) (l : Ledger) : Prop where
  steady : w.Steady
  sound : w.chats.Sound
  here : ∃ s, w.chats.session? uid = some s ∧ s.id = session ∧ s.summary = l.summary
  texts : ∀ f ∈ l.folded, f.2 ≠ ""
  asked : ∀ f ∈ l.folded, promptFor f.1 ∈ w.model.prompts
  stored : l.stored = (l.folded.map (·.1)).flatten ++ w.chats.live session
  numbered : Numbered start l.stored
  counted : w.chats.lastMessage = start + l.stored.length

theorem summary_append {l : Ledger} (h : ∀ f ∈ l.folded, f.2 ≠ "") (stored old : List Message) (text : String) :
    (⟨stored, l.folded ++ [(old, text)]⟩ : Ledger).summary = extend l.summary text := by
  unfold summary
  rw [List.map_append]
  cases hl : l.folded with
  | nil => exact (Compaction.extend_empty text).symm
  | cons f fs =>
    have hf : f.2 ≠ "" := h f (hl ▸ List.mem_cons_self)
    have hne : "\n\n".intercalate ((f :: fs).map (·.2)) ≠ "" := by
      cases fs with
      | nil => simpa using hf
      | cons g gs => simp [String.append_eq_empty_iff]
    rw [Compaction.extend_of_ne hne, String.intercalate_append_of_ne_nil (by simp) (by simp)]
    simp

variable {session : Int} {uid : String} {start : Int} {w w₁ w' : World} {l : Ledger}

/-- A compaction moves the old messages to what was folded, and its text to the summary. -/
theorem Balances.fold (h : l.Balances session uid start w) {s : Session} (hs : w.chats.session? uid = some s)
    {old recent : List Message} {text : String} (hl : w.chats.live s.id = old ++ recent)
    (hstored : Stored s old recent text w.chats w₁.chats) (htext : text ≠ "")
    (honward : w.Onward w₁) (hasked : promptFor old ∈ w₁.model.prompts) :
    (⟨l.stored, l.folded ++ [(old, text)]⟩ : Ledger).Balances session uid start w₁ := by
  obtain ⟨s', hs', rfl, hsummary⟩ := h.here
  cases hs.symm.trans hs'
  obtain ⟨-, rfl⟩ := Table.session?_some hs
  obtain ⟨x, hx, hid, hextended⟩ := hstored.session? hs
  have hlive := hstored.live h.sound hs hl
  refine ⟨h.steady.of_strikes honward.strikes, hstored.sound h.sound, ⟨x, hx, hid, ?_⟩, fun f hf => ?_, fun f hf => ?_,
    ?_, h.numbered, hstored.lastMessage.trans h.counted⟩
  · rw [summary_append h.texts, ← hsummary, hextended]
  · rcases List.mem_append.1 hf with hf | hf
    · exact h.texts f hf
    · rw [List.mem_singleton.1 hf]
      exact htext
  · rcases List.mem_append.1 hf with hf | hf
    · exact honward.prompts.subset (h.asked f hf)
    · rw [List.mem_singleton.1 hf]
      exact hasked
  · rw [hlive, h.stored, hl, List.map_append, List.flatten_append]
    simp

theorem Balances.enter_same (h : l.Balances session uid start w) (honward : w.Onward w') {st : Stage}
    (hst : st.folded = none) (hg : Grows session w.chats w'.chats) :
    (l.enter session w.chats w'.chats st).Balances session uid start w' := by
  obtain ⟨s, hs, hid, hsummary⟩ := h.here
  obtain ⟨s', hs', hid', hsummary'⟩ := hg.session? hs
  obtain ⟨added, hlive, hnew, hnumbered, hcounted⟩ := hg.live h.sound
  have henter : l.enter session w.chats w'.chats st = ⟨l.stored ++ added, l.folded⟩ := by
    rw [enter, hnew, hst, Option.toList_none, List.append_nil]
  rw [henter]
  refine ⟨h.steady.of_strikes honward.strikes, h.sound.grows hg, ⟨s', hs', hid'.trans hid, hsummary'.trans hsummary⟩,
    h.texts, fun f hf => honward.prompts.subset (h.asked f hf), ?_, ?_, ?_⟩
  · rw [h.stored, hlive, List.append_assoc]
  · exact h.numbered.append (h.counted ▸ hnumbered)
  · rw [hcounted, h.counted, List.length_append]
    omega

/-- **The ledger balances after a turn** whose compaction came to some stage in the world `w₁`. -/
theorem Balances.enter (h : l.Balances session uid start w) {s : Session} (hs : w.chats.session? uid = some s)
    {st : Stage} (honward : w.Onward w₁) (hst : st.Sole s w w₁) (hg : Growing session w₁ w') :
    (l.enter session w.chats w'.chats st).Balances session uid start w' := by
  cases hfolded : st.folded with
  | none => exact h.enter_same (honward.trans hg.onward) hfolded (hst.same hfolded ▸ hg.grows)
  | some folded =>
    obtain ⟨old, text⟩ := folded
    rw [Stage.folded_eq_some.1 hfolded] at hst ⊢
    obtain ⟨htext, hasked, recent, hl, hstored⟩ := hst
    -- the compaction is entered by itself, and the rest as a turn whose compaction folded nothing
    have hfold := h.fold hs hl hstored htext honward hasked
    have hnone : Stage.failed.folded = none := rfl
    have henter := hfold.enter_same hg.onward hnone hg.grows
    rw [Ledger.enter, hstored.lastMessage, hnone, Option.toList_none, List.append_nil] at henter
    exact henter

end Ledger

/-! ## Turns one after another -/

/-- The world and the ledger after a turn in a session, which begins with loading the session. -/
def afterTurn (s : Session) (p : World × Ledger) (o : Order) : World × Ledger :=
  let before := { p.1 with clock := o.clock }
  let after := (Http.visit o.settings o.who s.uid o.text before).2
  let compaction := (Request.alone ⟨o.who.user, s.uid, o.settings.policy⟩ before).1
  (after, p.2.enter s.id before.chats after.chats compaction)

/-- The world and the ledger after turns in a session one after another. -/
def afterTurns (s : Session) (w : World) (os : List Order) : World × Ledger := os.foldl (afterTurn s) (w, .empty)

theorem balances_afterTurn {s : Session} {start : Int} {p : World × Ledger} (h : p.2.Balances s.id s.uid start p.1)
    (o : Order) : (afterTurn s p o).2.Balances s.id s.uid start (afterTurn s p o).1 := by
  have hclock : p.2.Balances s.id s.uid start { p.1 with clock := o.clock } := { h with }
  obtain ⟨x, hx, hid, -⟩ := h.here
  have hgrows := Turn.visit_growing o.settings o.who o.text (w := { p.1 with clock := o.clock }) hx
  rw [hid] at hgrows
  exact hclock.enter hx (Request.alone_onward _ _) (Request.sole_alone hclock.steady hx) hgrows

theorem balances_afterTurns {s : Session} {start : Int} {p : World × Ledger} (h : p.2.Balances s.id s.uid start p.1)
    (os : List Order) : (os.foldl (afterTurn s) p).2.Balances s.id s.uid start (os.foldl (afterTurn s) p).1 := by
  induction os generalizing p with
  | nil => exact h
  | cons o os ih =>
    rw [List.foldl_cons]
    exact ih (balances_afterTurn h o)

/-- **Nothing said in a session is lost over turns**, however they are run and whatever the model answers: all messages
that were ever stored are those that compactions folded, in order, and then the ones that are there; each compaction showed
the model exactly what it folded; and the summary is the texts that came back, in order, a blank line between them.  That
the stored messages are all that were is their numbers, which leave none out. -/
theorem afterTurns_lose_nothing {w : World} {s : Session} (hw : w.Steady) (ht : w.chats.Sound)
    (hs : w.chats.session? s.uid = some s) (hlive : w.chats.live s.id = []) (hsummary : s.summary = "")
    (os : List Order) :
    let w' := (afterTurns s w os).1
    let l := (afterTurns s w os).2
    l.stored = (l.folded.map (·.1)).flatten ++ w'.chats.live s.id ∧
    (∃ s', w'.chats.session? s.uid = some s' ∧ s'.id = s.id ∧ s'.summary = "\n\n".intercalate (l.folded.map (·.2))) ∧
    (∀ f ∈ l.folded, promptFor f.1 ∈ w'.model.prompts) ∧
    Numbered w.chats.lastMessage l.stored ∧ w'.chats.lastMessage = w.chats.lastMessage + l.stored.length := by
  have hstart : Ledger.empty.Balances s.id s.uid w.chats.lastMessage w :=
    ⟨hw, ht, ⟨s, hs, rfl, hsummary⟩, List.forall_mem_nil _, List.forall_mem_nil _, hlive.symm, trivial,
      (Int.add_zero _).symm⟩
  have h := balances_afterTurns (p := (w, .empty)) hstart os
  exact ⟨h.stored, h.here, h.asked, h.numbered, h.counted⟩

/-- Turns that keep one message, or all of what is there. -/
def fourOrders : List Order :=
  [1, 1, 0, 1].map fun keepRecent => ⟨9, { policy := ⟨0, keepRecent⟩ }, { user := 1, indexed := false }, "well?"⟩

theorem afterTurns_lose_nothing_fourOrders :
    let s : Session := ⟨1, "s", 1, defaultTitle, "", 0, 0⟩
    let after := afterTurns s newSession fourOrders
    newSession.Steady ∧ newSession.chats.Sound ∧ newSession.chats.session? "s" = some s ∧
    after.2.folded.map (fun f => (f.1.map (·.id), f.2)) = [([1], "first"), ([2, 3, 4, 5], "last")] ∧
    (after.1.chats.live 1).map (·.id) = [6, 7, 8] ∧
    after.2.stored = (after.2.folded.map (·.1)).flatten ++ after.1.chats.live 1 := by
  have hsteady : newSession.Steady := fun _ _ => rfl
  have hsound : newSession.chats.Sound := ⟨by decide, by decide, by decide, .nil, List.forall_mem_nil _⟩
  refine ⟨hsteady, hsound, by decide, by decide +kernel, by decide +kernel, ?_⟩
  exact (afterTurns_lose_nothing hsteady hsound (by decide) (by decide) rfl fourOrders).1

end Chat
end NoteAgent
