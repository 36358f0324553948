import NoteAgent.Proofs.EventShape
import NoteAgent.Proofs.TurnHistory
/-!
# TurnRecord — what a turn shows the model and what it leaves in its session

Where the chat store does not fail, a turn goes on with what its compaction kept: the last messages if the others were
folded into the summary, and all of them otherwise (`Turn.kept`).  The model is shown the summary that is stored then, these
messages and the new text.  In the session they are followed by the new text, the results that are kept, and the answer.
-/
namespace NoteAgent

/-! ## Replies that are meant -/

namespace Model

/-- The reply is a turn whose calls can be told apart and whose answer is a text, or the service fails. -/
def Plain (x : Except Failure Turn) : Prop :=
  (∃ turn, x = .ok turn ∧ turn.Keyed ∧ (turn.calls = [] → ∃ answer, turn.content = .text answer)) ∨
    ∃ e, x = .error e ∧ isServiceFailure e = true

end Model

namespace Agent

open Model (Entry Plain)
open Tool (Registry)

variable {r : Registry} {maxRounds : Int} {opening : List Entry} {xs : List Round} {p₁ p : Progress} {w w₁ w' : World}
  {ending : Ending}

/-- The model is asked at once, with the conversation that the run begins with. -/
theorem asks_first (hr : r.Quiet) (hgoes : Goes r maxRounds (.start opening) w xs p₁ w₁)
    (hstops : Stops r maxRounds p₁ w₁ p ending w') : ∃ more, w'.model.requests = w.model.requests ++ more ∧
      (∀ q, more.head? = some q → q = ⟨opening, r.names⟩) ∧ (-2 ≤ maxRounds → more ≠ []) := by
  obtain ⟨last, hlast, hstopped⟩ := hstops.requests hr
  cases hgoes with
  | rest =>
    refine ⟨shown r last, hstopped, ?_⟩
    obtain ⟨rfl, hbegun | hfew⟩ | ⟨rfl, -⟩ := hlast
    · exact absurd rfl hbegun
    · exact ⟨fun q hq => (by cases hq), fun hmax => by omega⟩
    · exact ⟨fun q hq => (Option.some.inj hq).symm, fun _ => by simp [shown]⟩
  | round due asked calls first ran later =>
    obtain ⟨begun, -, -, hbegun⟩ := later.requests hr
    have hfirst := requests_of_ask asked
    refine ⟨⟨opening, r.names⟩ :: shown r (begun ++ last), ?_, fun q hq => (Option.some.inj hq).symm, fun _ => by simp⟩
    rw [hstopped, hbegun, (hr.texts _ ran).requests, hfirst]
    simp [shown, request, Progress.start]

/-- On replies that are meant a run that fails has come to nothing. -/
theorem failed_plain (hr : r.Quiet) (hgoes : Goes r maxRounds (.start opening) w xs p₁ w₁)
    (hstops : Stops r maxRounds p₁ w₁ p ending w') (hplain : ∀ n, Plain (w.model.upcoming n)) :
    (outcome p ending).failed = none ∨ (outcome p ending).results = [] ∧ (outcome p ending).text = "" := by
  have hnext {x : Except Failure Model.Turn} {w₂ : World} (asked : ask r p₁ w₁ = (x, w₂)) : Plain x := by
    have h := hplain xs.length
    rwa [← Nat.add_zero xs.length, ← (hgoes.upcoming hr).2 0, (upcoming_of_ask asked).1] at h
  have hnone (first : p₁.rounds = 0) : p₁.results = [] := by
    have hxs : xs = [] := List.eq_nil_of_length_eq_zero (hgoes.rounds_start.symm.trans first)
    rw [Progress.results, hgoes.past_eq, hxs]
    rfl
  cases hstops with
  | @answered turn _ due asked final =>
    obtain ⟨turn', hturn, -, htext⟩ | ⟨e, he, -⟩ := hnext asked
    · cases hturn
      obtain ⟨answer, hanswer⟩ := htext final
      rw [hanswer]
      exact .inl rfl
    · cases he
  | capped | unserved => exact .inl rfl
  | refused _ asked other =>
    obtain ⟨turn, hturn, -⟩ | ⟨e, he, hservice⟩ := hnext asked
    · cases hturn
    · cases he
      exact Bool.noConfusion (other.symm.trans hservice)
  | choked _ asked unkeyed _ =>
    obtain ⟨turn, hturn, hkeyed, -⟩ | ⟨e, he, -⟩ := hnext asked
    · cases hturn
      exact absurd hkeyed unkeyed
    · cases he
  | overrun _ _ first _ => exact .inr ⟨hnone first, rfl⟩
  | unstarted first _ => exact .inr ⟨hnone first, rfl⟩

/-- What a turn relies on when it has the agent run for a user. -/
theorem run_plain (who : Tool.Caller) (maxRounds : Int) (opening : List Entry) (w : World)
    (hplain : ∀ n, Plain (w.model.upcoming n)) : ∃ o w', run who maxRounds opening w = (.ok o, w') ∧
      (o.failed = none ∨ o.results = [] ∧ o.text = "") ∧ ∃ more, w'.model.requests = w.model.requests ++ more ∧
        (∀ q, more.head? = some q → q.entries = opening) ∧ (-2 ≤ maxRounds → more ≠ []) := by
  obtain ⟨xs, p₁, w₁, p, ending, w', hloop, hgoes, hstops⟩ := loop_goes (Tool.registry who) maxRounds opening w
  obtain ⟨more, hmore, hfirst, hsome⟩ := asks_first (Tool.quiet_registry who) hgoes hstops
  exact ⟨_, w', runWith_of_loop hloop, failed_plain (Tool.quiet_registry who) hgoes hstops hplain,
    more, hmore, fun q hq => by rw [hfirst q hq], hsome⟩

end Agent

namespace Chat
namespace Turn

open Attempt (Keeps)
open Compaction (Policy)
open World (Says Able)

/-! ## The whole turn -/

/-- The world in which a turn begins to ask the model: after its compaction, and with the user's message stored. -/
def begun (policy : Policy) (s : Session) (text : String) (w : World) : World :=
  (World.addMessage s.id userRole text "" (folded policy s w)).2

/-- What a turn has done by its end, the session being `x` and the agent coming to `o` once it asked the model. -/
structure Record (settings : Settings) (s : Session) (text : String) (now : Calendar.Stamp) (x : Session)
    (o : Agent.Outcome) (w w' : World) : Prop where
  /-- The first request shows the model the summary, the messages that the turn goes on with, and the text. -/
  request : ∃ more, w'.model.requests = w.model.requests ++ more ∧
    (∀ q, more.head? = some q → q.entries =
      Agent.opening x.summary (Agent.spoken (kept settings.policy s w)) text now) ∧
    (-2 ≤ settings.maxRounds → more ≠ [])
  live : ∃ added, w'.chats.live s.id = kept settings.policy s w ++ added ∧
    added.map Message.line = (userRole, text, "") :: outcomeLines settings o
  others : ∀ other, other ≠ s.id → w'.chats.live other = w.chats.live other

/-- The part of a turn after its compaction: between storing the text and storing the outcome the agent runs. -/
theorem says_goOn (settings : Settings) (who : Tool.Caller) {s x : Session} (hid : x.id = s.id)
    (history kept : List Message) (text : String) {w w₁ w₂ : World} {now : Calendar.Stamp} {o : Agent.Outcome}
    (hbegun : (World.addMessage s.id userRole text "" w).2 = w₁) (ha : w₁.Able s.id)
    (hnow : Calendar.stampOf w₁.clock = .ok now)
    (hrun : Agent.run who settings.maxRounds (Agent.opening x.summary (Agent.spoken kept) text now) w₁ = (.ok o, w₂))
    (hfailed : o.failed = none ∨ o.results = [] ∧ o.text = "") :
    ∃ account failure w', goOn settings who x history kept text w = (.ok (account, failure), w') ∧
      Says s.id (outcomeLines settings o) w₂ w' := by
  have hable : w₂.Able x.id := hid ▸ ((Agent.aside_run who _ _).run hrun).able ha
  have hclock : World.now w₁ = (.ok now, w₁) := by
    rw [World.now, Attempt.bind_run_ok (Attempt.look_run _ _), Attempt.ofExcept_run, hnow]
  rw [goOn, World.addLoose_pieces, Attempt.bind_run_ok (Attempt.ignore_run _ _), hid, hbegun, Attempt.settle_bind_run, hclock]
  simp only
  rw [Attempt.bind_run_ok hrun]
  cases hf : o.failed with
  | some e =>
    obtain hnone | ⟨hresults, htext⟩ := hfailed
    · cases hf.symm.trans hnone
    · refine ⟨_, _, w₂, rfl, ?_⟩
      have hlines : outcomeLines settings o = [] := by
        unfold outcomeLines
        rw [hresults, htext]
        cases settings.keepsResults <;> rfl
      rw [hlines]
      exact .refl s.id w₂
  | none =>
    simp only
    rw [Attempt.settle_bind_run]
    have hstored := says_conclude settings who x text o hable
    rw [hid] at hstored
    cases (conclude settings who x text o w₂).1 with
    | error e => exact ⟨_, _, _, rfl, hstored⟩
    | ok es => exact ⟨_, _, _, rfl, hstored⟩

/-- Naming the session after a turn says nothing in it. -/
theorem says_run (settings : Settings) (who : Tool.Caller) (s : Session) (text : LooseText) (w : World) :
    Says s.id [] (attempt settings who s text w).2 (run settings who s text w).2 := by
  have hstream : Says s.id [] (attempt settings who s text w).2 (stream settings who s text w).2 :=
    Keeps.tail _ (fun _ => .done _) w
  have htitle (uid : String) (message : LooseText) : Keeps (Says s.id []) (Title.find uid message) :=
    keeps_title (fun prompt w => .of_chats (World.unturned_complete (by decide) prompt w) rfl)
      (fun _ _ => World.keeps_reviseSession _ _) uid message
  refine hstream.trans (Keeps.tail _ (fun account => ?_) w)
  cases account.job with
  | none => exact .done _
  | some job => exact (htitle _ _).bind fun _ => .done _

theorem fits_of_stamp {n : Int} {now : Calendar.Stamp} (h : Calendar.stampOf n = .ok now) : fitsColumn n = true := by
  unfold Calendar.stampOf at h
  simp only at h
  split at h
  · cases h
  · rename_i hrange
    simp only [Bool.or_eq_true, decide_eq_true_eq] at hrange
    rw [fitsColumn, Bool.and_eq_true, decide_eq_true_eq, decide_eq_true_eq]
    omega

/-- **What a turn shows the model and what it leaves in its session**, where the chat store does not fail and the model's
replies are as they are meant or failures of its service. -/
theorem run_record {w : World} {s : Session} (settings : Settings) (who : Tool.Caller) (text : String)
    {now : Calendar.Stamp} (hw : w.Steady) (ht : w.chats.Sound) (hs : w.chats.session? s.uid = some s)
    (hfits : fitsColumn s.id = true) (hnow : Calendar.stampOf w.clock = .ok now)
    (hkeep : 0 ≤ settings.policy.keepRecent) (hplain : ∀ n, Model.Plain (w.model.upcoming n)) :
    ∃ x o w₂ events w', (begun settings.policy s text w).chats.session? s.uid = some x ∧
      Agent.run who settings.maxRounds
        (Agent.opening x.summary (Agent.spoken (kept settings.policy s w)) text now) (begun settings.policy s text w) =
          (.ok o, w₂) ∧
      run settings who s text w = (.ok events, w') ∧ Record settings s text now x o w w' := by
  have ha : w.Able s.id := ⟨hw, ⟨s, (Table.session?_some hs).1, rfl⟩, hfits, fits_of_stamp hnow⟩
  obtain ⟨y, hcompacted, hsettled⟩ := compacted_settled settings.policy hkeep hw ht hs
  have htext : Says s.id [(userRole, text, "")] (folded settings.policy s w) (begun settings.policy s text w) :=
    World.says_addMessage (hsettled.able ha) text (by decide) (by decide)
  have hunturned := hsettled.unturned.trans htext.unturned
  obtain ⟨x, hx, -, hsummary⟩ := htext.grows.session? hsettled.session
  -- the agent runs in the world that the text was stored in
  obtain ⟨o, w₂, hrun, hfailed, more, hmore, hfirst, hsome⟩ := Agent.run_plain who settings.maxRounds
    (Agent.opening x.summary (Agent.spoken (kept settings.policy s w)) text now) (begun settings.policy s text w)
    fun n => by rw [hunturned.model.upcoming n]; exact hplain n
  have hbegun : (World.addMessage s.id userRole text "" (folded settings.policy s w)).2 =
      begun settings.policy s text w := rfl
  obtain ⟨account, failure, w₃, hgoOn, hstored⟩ := says_goOn settings who hsettled.id (w.chats.live s.id)
    (kept settings.policy s w) text hbegun (htext.able (hsettled.able ha))
    (hunturned.clock ▸ hnow) (hsummary ▸ hrun) hfailed
  have hattempt : attempt settings who s text w = (.ok (account, failure), w₃) :=
    (attempt_of_compacted ha hcompacted who text).trans hgoOn
  obtain ⟨events, w', -, -, -, hevents, -⟩ := run_parts settings who s text w
  have hend : Says s.id [] w₃ w' := by
    have hafter := says_run settings who s text w
    rwa [hattempt, hevents] at hafter
  have haside := (Agent.aside_run who _ _).run hrun
  have hafter := hstored.trans hend
  rw [List.append_nil] at hafter
  refine ⟨x, o, w₂, events, w', hx, hrun, hevents, ⟨more, ?_, hfirst, hsome⟩, ?_, fun other hne => ?_⟩
  · rw [hafter.unturned.model.requests, hmore, hunturned.model.requests]
  · obtain ⟨said, hsaid, hsaidLine⟩ := htext.live
    obtain ⟨added, hadded, haddedLine⟩ := hafter.live
    refine ⟨said ++ added, ?_, by rw [List.map_append, hsaidLine, haddedLine]; rfl⟩
    rw [hadded, haside.chats, hsaid, hsettled.live, List.append_assoc]
  · rw [hafter.grows.live_of_ne hne.symm, haside.chats, htext.grows.live_of_ne hne.symm, hsettled.others other hne]

/-- A session with a summary and three messages, and a model that summarises, asks for calls and answers. -/
def threeMessages : World :=
  { Agent.threeCalls with
    chats := ⟨[⟨1, "s", 1, defaultTitle, "old", 0, 0⟩],
      [⟨1, 1, userRole, "hello", "", 1, 0⟩, ⟨2, 1, assistantRole, "yes", "", 0, 0⟩, ⟨3, 1, userRole, "more", "", 1, 0⟩],
      1, 3⟩
    model := { Agent.threeCalls.model with
      supply := fun | .turn => Agent.threeCalls.model.supply .turn | _ => .always "first" } }

theorem plain_threeMessages : ∀ n, Model.Plain (threeMessages.model.upcoming n)
  | 0 => .inl ⟨⟨.text "let me see", Agent.someCalls⟩, rfl,
      by simp [Model.Turn.Keyed, Agent.someCalls, Json.isKey], fun h => by cases h⟩
  | 1 => .inl ⟨⟨.text "all  done", []⟩, rfl, List.forall_mem_nil _, fun _ => ⟨_, rfl⟩⟩
  | n + 2 => by
    have hfailed (used : Nat) : (⟨[], fun _ => .failed "down", used⟩ : Model.Supply).nth n = .failed "down" := by
      induction n generalizing used with
      | zero => rfl
      | succ n ih => exact ih (used + 1)
    refine .inr ⟨.requestFailed "down", ?_, rfl⟩
    have hreply := hfailed 0
    exact congrArg Model.Reply.turn hreply

theorem run_record_threeMessages :
    let s : Session := ⟨1, "s", 1, defaultTitle, "old", 0, 0⟩
    let settings : Settings := { policy := ⟨0, 1⟩, keepsResults := true }
    let now := Calendar.Stamp.ofSeconds 5
    threeMessages.Steady ∧ threeMessages.chats.Sound ∧ threeMessages.chats.session? "s" = some s ∧
    fitsColumn s.id = true ∧ Calendar.stampOf threeMessages.clock = .ok now ∧ 0 ≤ settings.policy.keepRecent ∧
    (∀ n, Model.Plain (threeMessages.model.upcoming n)) ∧
    kept settings.policy s threeMessages = [⟨3, 1, userRole, "more", "", 1, 0⟩] ∧
    ∃ x o events w', run settings { user := 1, indexed := false } s "well?" threeMessages = (.ok events, w') ∧
      Record settings s "well?" now x o threeMessages w' ∧ x.summary = "old\n\nfirst" ∧
      outcomeLines settings o = [(toolRole, "Unknown tool: echo", "echo"), (toolRole, "Unknown tool: shout", "shout"),
        (assistantRole, "all  done", "")] := by
  intro s settings now
  have hsteady : threeMessages.Steady := fun _ _ => rfl
  have hsound : threeMessages.chats.Sound := ⟨by decide, by decide, by decide, by decide, by decide⟩
  have hsession : threeMessages.chats.session? "s" = some s := by decide
  have hnow : Calendar.stampOf threeMessages.clock = .ok now := rfl
  refine ⟨hsteady, hsound, hsession, by decide, hnow, by decide, plain_threeMessages, by decide +kernel, ?_⟩
  obtain ⟨x, o, w₂, events, w', hx, hrun, hevents, hrecord⟩ := run_record (s := s) settings { user := 1, indexed := false }
    "well?" hsteady hsound hsession (by decide) hnow (by decide) plain_threeMessages
  have hstored : (begun settings.policy s "well?" threeMessages).chats.session? "s" =
      some ⟨1, "s", 1, defaultTitle, "old\n\nfirst", 0, 5⟩ := by decide +kernel
  obtain rfl := Option.some.inj (hstored.symm.trans hx)
  refine ⟨_, o, events, w', hevents, hrecord, rfl, ?_⟩
  have hlines : (Agent.run { user := 1, indexed := false } settings.maxRounds (Agent.opening "old\n\nfirst"
      (Agent.spoken (kept settings.policy s threeMessages)) "well?" now)
        (begun settings.policy s "well?" threeMessages)).1.map (outcomeLines settings) =
      .ok [(toolRole, "Unknown tool: echo", "echo"), (toolRole, "Unknown tool: shout", "shout"),
        (assistantRole, "all  done", "")] := by decide +kernel
  rw [hrun] at hlines
  exact Except.ok.inj hlines

end Turn
end Chat
end NoteAgent
