import NoteAgent.Proofs.ChatSteps
/-!
# CompactionFailure — what is left where a compaction fails

A compaction fails before its transaction, in it, or after it.  Before and in it nothing is stored (`foldUnder_ends`).
After it the session is read again, and that can fail with the summary stored and the messages gone: then, and only then,
a compaction that fails has changed the history of the session.
-/
namespace NoteAgent
namespace Chat
namespace Compaction

open Attempt (Ends)

/-- The history of a session is as it was: its summary, and all messages. -/
def KeepsHistory (uid : String) (w w' : World) : Prop :=
  (w'.chats.session? uid).map (·.summary) = (w.chats.session? uid).map (·.summary) ∧
    ∀ session, w'.chats.live session = w.chats.live session

/-- A compaction has a text from the model and commits these tables. -/
structure Commits (strikes : Strikes) (policy : Policy) (s : Session) (messages : List Message) (w : World)
    (n : Nat) (text : String) (bound : Int) (t : Table) : Prop where
  old : oldCount? policy messages = some n
  answered : (summarise (messages.take n) w).1 = .ok text
  parted : firstKept (messages.take n) (messages.drop n) = .ok bound
  stored : World.Commits strikes s.uid (extend s.summary text) bound w t

/-- A compaction is committed, and what is read after the commit is struck. -/
def Unread (strikes : Strikes) (policy : Policy) (s : Session) (messages : List Message) (w : World) : Prop :=
  (∃ n text bound t, Commits strikes policy s messages w n text bound t) ∧ ∃ f, w.rereadFault? = some f

/-! ## Up to the transaction -/

/-- The model is asked once, and its answer is the text unless there is nothing in it. -/
theorem summarise_run (old : List Message) (w : World) :
    let asked := Model.Client.complete .summary (promptFor old) w.model
    summarise old w = (match asked.1 with
      | .error e => .error (.summaryFailed e.message)
      | .ok text => if (Text.strip text).isEmpty then .error .summaryBlank else .ok text, { w with model := asked.2 }) := by
  dsimp only
  rw [summarise, Attempt.settle_bind_run, World.asking, Attempt.on_run]
  dsimp only
  cases (Model.Client.complete .summary (promptFor old) w.model).1 with
  | error e => rfl
  | ok text => by_cases hblank : (Text.strip text).isEmpty = true <;> simp [hblank]

theorem summarise_world (old : List Message) (w : World) : ∃ m, (summarise old w).2 = { w with model := m } :=
  ⟨_, congrArg Prod.snd (summarise_run old w)⟩

theorem summarise_ne_empty {old : List Message} {w : World} {text : String} (h : (summarise old w).1 = .ok text) :
    text ≠ "" := (summarise_ends old w).2.2.2 text h

theorem extend_ne (old : String) {new : String} (hnew : new ≠ "") : extend old new ≠ old := by
  by_cases hold : old = ""
  · rw [hold, extend_empty]
    exact hnew
  · rw [extend_of_ne hold]
    intro h
    have hlength := congrArg String.length h
    have htwo : "\n\n".length = 2 := by decide
    rw [String.length_append, String.length_append, htwo] at hlength
    omega

/-! ## The whole compaction -/

/-- **A compaction commits or changes nothing that is stored**; where it commits, only the reading of the session can still
fail, and does if it is struck. -/
theorem foldUnder_ends (strikes : Strikes) (policy : Policy) (s : Session) (messages : List Message) (w : World) :
    Ends (foldUnder strikes policy s messages) w fun r w' =>
      (w'.chats = w.chats ∧ ∀ n text bound t, ¬Commits strikes policy s messages w n text bound t) ∨
        (∃ n text bound, Commits strikes policy s messages w n text bound w'.chats) ∧
          ((∃ f, w.rereadFault? = some f ∧ ∃ cause, r = .error (.summaryNotStored cause)) ∨
            w.rereadFault? = none ∧ ∃ kept, r = .ok kept) := by
  unfold foldUnder
  cases hn : oldCount? policy messages with
  | none =>
    refine .inl ⟨rfl, fun n text bound t h => ?_⟩
    have hold := h.old
    rw [hn] at hold
    cases hold
  | some n =>
    obtain ⟨m, hm⟩ := summarise_world (messages.take n) w
    dsimp only
    rcases hasked : summarise (messages.take n) w with ⟨e | text, w₁⟩
    · rw [hasked] at hm
      refine .inl ⟨by rw [Attempt.bind_run_error hasked, hm], fun n' text bound t h => ?_⟩
      have htext := h.answered
      cases hn.symm.trans h.old
      rw [hasked] at htext
      cases htext
    · rw [hasked] at hm
      cases hm
      refine Ends.next hasked ((storeUnder_ends strikes s _ _ text _).mono fun r w' h => ?_)
      obtain ⟨-, ⟨hsame, -, hnever⟩ | ⟨bound, hb, hc, hread⟩⟩ := h
      · refine .inl ⟨hsame, fun n' text' bound t h => ?_⟩
        cases hn.symm.trans h.old
        have htext := h.answered
        rw [hasked] at htext
        cases htext
        exact hnever bound t h.parted ⟨h.stored.used, h.stored.unstruck, h.stored.compact⟩
      · refine .inr ⟨⟨n, text, bound, hn, by rw [hasked], hb, hc.used, hc.unstruck, hc.compact⟩, ?_⟩
        obtain ⟨f, hf, cause, hr⟩ | ⟨hf, x, hr, -⟩ := hread
        · exact .inl ⟨f, hf, cause, hr⟩
        · exact .inr ⟨hf, _, hr⟩

/-- What a compaction commits is a longer summary than the one it was given. -/
theorem Commits.summary {strikes : Strikes} {policy : Policy} {s : Session} {messages : List Message} {w : World} {n : Nat}
    {text : String} {bound : Int} {t : Table} (h : Commits strikes policy s messages w n text bound t) :
    (t.session? s.uid).map (·.summary) ≠ some s.summary := by
  obtain ⟨x, hx, -⟩ := Table.compact_ok h.stored.compact
  rw [Table.session?_compact hx h.stored.compact, Option.map_some]
  intro he
  exact extend_ne s.summary (summarise_ne_empty h.answered) (Option.some.inj he)

/-- **A compaction that fails, however it does, has changed nothing that is stored, unless it was committed and the session
could not be read after that.**  Then the summary is stored and the messages that it stands for are gone; so the history of
a session that was given as it is stored is kept exactly if that was not the failure. -/
theorem foldUnder_failed (strikes : Strikes) (policy : Policy) (s : Session) (messages : List Message) (w : World)
    (e : Failure) (hfailed : (foldUnder strikes policy s messages w).1 = .error e) :
    (¬Unread strikes policy s messages w → (foldUnder strikes policy s messages w).2.chats = w.chats) ∧
    (Unread strikes policy s messages w → ∃ n text bound, Commits strikes policy s messages w n text bound
      (foldUnder strikes policy s messages w).2.chats) ∧
    ((w.chats.session? s.uid).map (·.summary) = some s.summary →
      (KeepsHistory s.uid w (foldUnder strikes policy s messages w).2 ↔ ¬Unread strikes policy s messages w)) := by
  have hends := foldUnder_ends strikes policy s messages w
  unfold Ends at hends
  generalize foldUnder strikes policy s messages w = ran at hfailed hends ⊢
  obtain ⟨r, w'⟩ := ran
  -- nothing committed; committed and the reading struck; committed and read, which is no failure
  obtain ⟨hsame, hnever⟩ | ⟨⟨n, text, bound, hc⟩, ⟨f, hf, -⟩ | ⟨-, kept, hr⟩⟩ := hends
  · have hread : ¬Unread strikes policy s messages w := fun ⟨⟨n, text, bound, t, h⟩, _⟩ => hnever n text bound t h
    refine ⟨fun _ => hsame, fun h => absurd h hread, fun _ => ⟨fun _ => hread, fun _ => ?_⟩⟩
    exact ⟨by rw [hsame], fun _ => by rw [hsame]⟩
  · have hunread : Unread strikes policy s messages w := ⟨⟨n, text, bound, w'.chats, hc⟩, f, hf⟩
    refine ⟨fun h => absurd hunread h, fun _ => ⟨n, text, bound, hc⟩, fun hs => ⟨fun hk => ?_, absurd hunread⟩⟩
    exact absurd (hk.1.trans hs) hc.summary
  · rw [hr] at hfailed
    cases hfailed

/-- A session, its two messages, and a model that answers. -/
def lone : Session := ⟨1, "a", 1, defaultTitle, "", 0, 0⟩

def pair : List Message := [⟨1, 1, userRole, "hello", "", 1, 0⟩, ⟨2, 1, assistantRole, "yes", "", 0, 0⟩]

def twoMessages (strikes : Nat → Method → Option Fault) : World :=
  { World.fresh 7 (.fresh .empty ⟨fun _ _ => .ok [[]], 0⟩ 0) (.fresh (.always "") (.always "S") (.always "")) with
    chats := ⟨[lone], pair, 1, 2⟩
    chatFaults := ⟨strikes, 0⟩ }

def keepOne : Policy := ⟨0, 1⟩

def diskFull : Strikes
  | .dropMessages => some (.broken "disk full")
  | _ => none

theorem foldUnder_failed_diskFull :
    let ran := foldUnder diskFull keepOne lone pair (twoMessages fun _ _ => none)
    ran.1 = .error (.summaryNotStored "disk full") ∧ KeepsHistory "a" (twoMessages fun _ _ => none) ran.2 := by
  have hfailed : (foldUnder diskFull keepOne lone pair (twoMessages fun _ _ => none)).1 =
      .error (.summaryNotStored "disk full") := by decide +kernel
  have h := foldUnder_failed diskFull keepOne lone pair (twoMessages fun _ _ => none) _ hfailed
  refine ⟨hfailed, (h.2.2 (by decide)).2 ?_⟩
  rintro ⟨⟨n, text, bound, t, hc⟩, -⟩
  cases hc.stored.unstruck .dropMessages

def unreadable : World := twoMessages fun _ m => if m = .findSession then some (.breaks "database is locked") else none

/-- **Where the session cannot be read again, the compaction fails and its summary is stored all the same**, and the old
message is gone. -/
theorem fold_fails_stored :
    let ran := fold keepOne lone pair unreadable
    ran.1 = .error (.summaryNotStored "database is locked") ∧
    isFailure (.summaryNotStored "database is locked") = true ∧
    ran.2.chats = ⟨[{ lone with summary := "S", updated := 7 }], pair.drop 1, 1, 2⟩ ∧
    ¬KeepsHistory "a" unreadable ran.2 := by
  have hchats : (fold keepOne lone pair unreadable).2.chats =
      ⟨[{ lone with summary := "S", updated := 7 }], pair.drop 1, 1, 2⟩ := by decide +kernel
  refine ⟨by decide +kernel, rfl, hchats, fun hkept => ?_⟩
  have hsummary := hkept.1
  rw [hchats] at hsummary
  revert hsummary
  decide

end Compaction
end Chat
end NoteAgent
