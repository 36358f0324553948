import Mathlib.Data.List.DropRight
import NoteAgent.Proofs.TurnSpeech
/-!
# TurnHistory — what a turn goes on with after its compaction

Where no fault strikes the chat store, a compaction folds the old messages into the summary, or there is nothing to fold, or
it fails with nothing done.  So a turn goes on with the last messages or with all of them (`Turn.kept`), and these are the
ones that its session has then, under the summary that the session has then (`Turn.compacted_settled`).
-/
namespace NoteAgent
namespace Chat

open Attempt (Ends Keeps)
open Compaction (Policy oldCount? firstKept promptFor)
open Table (Stored)
open World (Unturned Able)

namespace Compaction

theorem unturned_fold (policy : Policy) (s : Session) (ms : List Message) : Keeps Unturned (fold policy s ms) :=
  keeps_fold (fun _ => World.unturned_complete (by decide) _)
    (fun uid summary bound w => (World.foldHistory_ends uid summary bound w).1.unturned) policy s ms

theorem store_eq (s : Session) (old recent : List Message) (text : String) : store s old recent text = do
    let bound ← .ofExcept (firstKept old recent)
    match ← (World.foldHistory s.uid (extend s.summary text) bound).settle with
    | .error e => .fail (.summaryNotStored e.message)
    | .ok updated => return (recent, updated) := rfl

/-- Where something is old there is a bound: the number of a message, or the next one. -/
theorem firstKept_ok {old : List Message} (hold : old ≠ []) (recent : List Message) : ∃ bound,
    firstKept old recent = .ok bound ∧ ∃ m ∈ old ++ recent, bound = m.id ∨ bound = m.id + 1 := by
  cases recent with
  | cons m ms => exact ⟨m.id, rfl, m, List.mem_append_right _ List.mem_cons_self, .inl rfl⟩
  | nil =>
    refine ⟨(old.getLast hold).id + 1, ?_, old.getLast hold, List.mem_append_left _ (List.getLast_mem hold), .inr rfl⟩
    simp only [firstKept, List.getLast?_eq_some_getLast hold]

/-- Where the store does not fail, a summary is stored, or its failure is one that a turn carries on after. -/
theorem store_steady {s : Session} {old recent : List Message} (text : String) {w : World} (hw : w.Steady)
    (hold : old ≠ []) : Ends (store s old recent text) w fun r w' =>
      (∃ e, r = .error e ∧ isFailure e = true ∧ w'.chats = w.chats) ∨
        ∃ x, r = .ok (recent, some x) ∧ Stored s old recent text w.chats w'.chats ∧
          w'.chats.session? s.uid = some x := by
  obtain ⟨bound, hbound, -⟩ := firstKept_ok hold recent
  have hends := World.foldHistory_ends s.uid (extend s.summary text) bound w
  have hsome : (World.foldHistory s.uid (extend s.summary text) bound w).1 ≠ .ok none := World.chatMethod_ne_none hw _ _
  rw [store_eq, hbound]
  unfold Ends at hends ⊢
  rw [Attempt.bind_run_ok (Attempt.ofExcept_run _ _), Attempt.settle_bind_run]
  generalize World.foldHistory s.uid (extend s.summary text) bound w = ran at hends hsome ⊢
  obtain ⟨_ | _ | x, w'⟩ := ran
  · obtain ⟨-, ⟨hsame, -⟩ | ⟨-, -, hsteady⟩⟩ := hends
    · exact .inl ⟨_, rfl, rfl, hsame⟩
    · obtain ⟨x, hx⟩ := hsteady hw
      cases hx
  · exact absurd rfl hsome
  · obtain ⟨-, ⟨-, hno⟩ | ⟨hc, hread, -⟩⟩ := hends
    · exact absurd rfl (hno x)
    · exact .inr ⟨x, rfl, ⟨bound, w.clock, hbound, hc⟩, hread x rfl⟩

theorem summarise_fails {old : List Message} {w : World} {e : Failure} (h : (summarise old w).1 = .error e) :
    isFailure e = true := by
  unfold summarise at h
  rw [Attempt.settle_bind_run] at h
  generalize World.asking (Model.Client.complete .summary (promptFor old)) w = asked at h
  obtain ⟨_ | text, w₁⟩ := asked
  · cases h
    rfl
  · by_cases hblank : (Text.strip text).isEmpty = true
    · simp only [hblank, if_true] at h
      cases h
      rfl
    · simp only [hblank] at h
      cases h

/-- **Where the store does not fail, a compaction folds, or has nothing to fold, or fails with nothing done** in a way that
a turn carries on after. -/
theorem fold_steady (policy : Policy) (hkeep : 0 ≤ policy.keepRecent) (s : Session) (ms : List Message) {w : World}
    (hw : w.Steady) : Ends (fold policy s ms) w fun r w' =>
      (oldCount? policy ms = none ∧ r = .ok (ms, some s) ∧ w'.chats = w.chats) ∨
      (∃ e, r = .error e ∧ isFailure e = true ∧ w'.chats = w.chats) ∨
      ∃ n text x, oldCount? policy ms = some n ∧ r = .ok (ms.drop n, some x) ∧
        Stored s (ms.take n) (ms.drop n) text w.chats w'.chats ∧ w'.chats.session? s.uid = some x := by
  cases hn : oldCount? policy ms with
  | none =>
    rw [fold_none hn]
    exact .inl ⟨rfl, rfl, rfl⟩
  | some n =>
    have hold : ms.take n ≠ [] := by
      have hpos := oldCount?_pos hn
      rw [ne_eq, List.take_eq_nil_iff, not_or]
      refine ⟨by omega, fun hnil => ?_⟩
      rw [hnil] at hn
      unfold oldCount? at hn
      split at hn
      · cases hn
      · rw [if_pos (by simpa using hkeep)] at hn
        cases hn
    rw [fold_some hn]
    refine Ends.bind (P := fun r w' => w'.chats = w.chats ∧ w'.Steady ∧ ∀ e, r = .error e → isFailure e = true) ?_ ?_ ?_
    · obtain ⟨hchats, honward, -⟩ := summarise_ends (ms.take n) w
      refine ⟨hchats, hw.of_strikes honward.strikes, fun e he => ?_⟩
      exact summarise_fails he
    · rintro text w₁ ⟨hchats, hsteady, -⟩
      refine (store_steady text hsteady hold).mono fun r w' h => .inr ?_
      rw [hchats] at h
      obtain ⟨e, he, hfailure, hsame⟩ | ⟨x, hx, hstored, hread⟩ := h
      · exact .inl ⟨e, he, hfailure, hsame⟩
      · exact .inr ⟨n, text, x, rfl, hx, hstored, hread⟩
    · rintro e w₁ ⟨hchats, -, hfailure⟩
      exact .inr (.inl ⟨e, rfl, hfailure e rfl, hchats⟩)

end Compaction

namespace Turn

/-! ## What a turn goes on with -/

/-- The world after the compaction of a turn. -/
def folded (policy : Policy) (s : Session) (w : World) : World :=
  (Compaction.fold policy s (w.chats.live s.id) w.chatUsed).2

/-- The messages that a turn goes on with: the last ones if its compaction folded the others into the summary, and all of
them otherwise. -/
def kept (policy : Policy) (s : Session) (w : World) : List Message :=
  match oldCount? policy (w.chats.live s.id), (Compaction.fold policy s (w.chats.live s.id) w.chatUsed).1 with
  | some _, .ok _ => (w.chats.live s.id).rtake policy.keepRecent.toNat
  | _, _ => w.chats.live s.id

theorem kept_of_folded {policy : Policy} {s : Session} {w : World} {n : Nat} {r : List Message × Option Session}
    (hn : oldCount? policy (w.chats.live s.id) = some n)
    (hr : (Compaction.fold policy s (w.chats.live s.id) w.chatUsed).1 = .ok r) :
    kept policy s w = (w.chats.live s.id).rtake policy.keepRecent.toNat := by
  rw [kept, hn, hr]

theorem kept_of_none {policy : Policy} {s : Session} {w : World}
    (hn : oldCount? policy (w.chats.live s.id) = none) : kept policy s w = w.chats.live s.id := by
  rw [kept, hn]

theorem kept_of_error {policy : Policy} {s : Session} {w : World} {e : Failure}
    (hr : (Compaction.fold policy s (w.chats.live s.id) w.chatUsed).1 = .error e) :
    kept policy s w = w.chats.live s.id := by
  rw [kept, hr]
  cases oldCount? policy (w.chats.live s.id) <;> rfl

theorem drop_eq_rtake {policy : Policy} (hkeep : 0 ≤ policy.keepRecent) {ms : List Message} {n : Nat}
    (h : oldCount? policy ms = some n) : ms.drop n = ms.rtake policy.keepRecent.toNat := by
  unfold oldCount? at h
  split at h
  · cases h
  · split at h
    · cases h
    · cases h
      rw [List.rtake]
      congr 1
      omega

/-- What a turn goes on with after its compaction: the messages `history`, and the session as it is stored then. -/
structure Settled (s : Session) (w w₁ : World) (history : List Message) (x : Session) : Prop where
  unturned : w.Unturned w₁
  session : w₁.chats.session? s.uid = some x
  id : x.id = s.id
  live : w₁.chats.live s.id = history
  others : ∀ other, other ≠ s.id → w₁.chats.live other = w.chats.live other

/-- **A turn goes on with what is in its session then**, whether its compaction folded or failed. -/
theorem compacted_settled (policy : Policy) (hkeep : 0 ≤ policy.keepRecent) {s : Session} {w : World} (hw : w.Steady)
    (ht : w.chats.Sound) (hs : w.chats.session? s.uid = some s) : ∃ x,
      compacted policy s (w.chats.live s.id) w.chatUsed = (.ok (kept policy s w, some x), folded policy s w) ∧
      Settled s w (folded policy s w) (kept policy s w) x := by
  have hunturned : w.Unturned (folded policy s w) :=
    (World.beside_chatUsed w).unturned.trans (Compaction.unturned_fold policy s (w.chats.live s.id) w.chatUsed)
  have hsame (h : (folded policy s w).chats = w.chats) : Settled s w (folded policy s w) (w.chats.live s.id) s :=
    ⟨hunturned, h ▸ hs, rfl, by rw [h], fun _ _ => by rw [h]⟩
  have hends := Compaction.fold_steady policy hkeep s (w.chats.live s.id) (w := w.chatUsed) (hw.of_strikes rfl)
  unfold Ends at hends
  unfold compacted
  rw [Attempt.settle_bind_run]
  obtain ⟨hn, hr, hchats⟩ | ⟨e, hr, hfailure, hchats⟩ | ⟨n, text, x, hn, hr, hstored, hread⟩ := hends
  · rw [kept_of_none hn, hr]
    exact ⟨s, rfl, hsame hchats⟩
  · rw [kept_of_error hr, hr]
    simp only [hfailure, if_true]
    exact ⟨s, rfl, hsame hchats⟩
  · obtain ⟨y, hy, hid, -⟩ := hstored.session? hs
    cases hread.symm.trans hy
    have hlive := hstored.live ht hs (List.take_append_drop ..).symm
    rw [kept_of_folded hn hr, hr, ← drop_eq_rtake hkeep hn]
    exact ⟨x, rfl, hunturned, hread, hid, hlive, fun other hne => hstored.live_of_ne hs hne⟩

/-- Where the messages can be listed, what a turn goes on with decides the rest. -/
theorem attempt_of_compacted {settings : Settings} {s x : Session} {history : List Message} {w w₁ : World}
    (ha : w.Able s.id)
    (hcompacted : compacted settings.policy s (w.chats.live s.id) w.chatUsed = (.ok (history, some x), w₁))
    (who : Tool.Caller) (text : LooseText) :
    attempt settings who s text w = goOn settings who x (w.chats.live s.id) history text w₁ := by
  have hlist : (do World.needList (← World.messagesOf s.id)) = listing s.id := rfl
  unfold attempt
  rw [hlist, Attempt.settle_bind_run, ha.listing]
  simp only
  rw [Attempt.settle_bind_run, hcompacted]

theorem Settled.able {s : Session} {w w₁ : World} {history : List Message} {x : Session} (h : Settled s w w₁ history x)
    (ha : w.Able s.id) : w₁.Able s.id := by
  refine ⟨ha.steady.of_strikes h.unturned.strikes, ⟨x, (Table.session?_some h.session).1, h.id⟩, ha.fits, ?_⟩
  rw [h.unturned.clock]
  exact ha.time

end Turn
end Chat
end NoteAgent
