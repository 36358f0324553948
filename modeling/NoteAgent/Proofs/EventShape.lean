import Mathlib.Computability.RegularExpressions
import NoteAgent.Proofs.AgentTranscript
import NoteAgent.Proofs.ListTraversal
import NoteAgent.Proofs.TurnReach
/-!
# EventShape — the order of the events of a turn

Whatever breaks off in a turn, its events are those of calls, then an answer in words or an error, then sources or an
error, and last the event that says that the turn is over (`Parts`).  A stage that breaks off leaves out what was to come
after it, and an error stands there instead.
-/
namespace NoteAgent
namespace Chat

open Attempt (Ends)
open Event (Kind)

/-! ## Words of events -/

/-- The kinds of the events of a turn, in their order. -/
def Event.shape : RegularExpression Kind :=
  (RegularExpression.char .toolCall).star * ((RegularExpression.char .token).star + .char .error) *
    (1 + ((RegularExpression.char .source).star + .char .error)) * .char .done

theorem Event.matches_star {k : Kind} {es : List Event} (h : ∀ e ∈ es, e.kind = k) :
    es.map kind ∈ (RegularExpression.char k).star.matches' := by
  rw [RegularExpression.matches'_star]
  refine ⟨es.map fun _ => [k], ?_, fun word hword => ?_⟩
  · induction es with
    | nil => rfl
    | cons e es ih =>
      obtain ⟨he, hes⟩ := List.forall_mem_cons.1 h
      rw [List.map_cons, List.map_cons, List.flatten_cons, he, ← ih hes]
      rfl
  · obtain ⟨e, -, rfl⟩ := List.mem_map.1 hword
    exact Set.mem_singleton _

/-- No event of the kind `k` comes after one of the kind `l`. -/
def Event.Before (k l : Kind) (es : List Event) : Prop := es.Pairwise fun a b => ¬(a.kind = l ∧ b.kind = k)

namespace Event.Before

variable {k l : Kind} {es fs : List Event}

theorem of_none (h : ∀ e ∈ es, e.kind ≠ k) : Before k l es :=
  List.pairwise_iff_forall_sublist.2 fun hsub hkinds => h _ (hsub.subset (by simp)) hkinds.2

theorem append (hes : ∀ e ∈ es, e.kind ≠ l) (hfs : Before k l fs) : Before k l (es ++ fs) := by
  refine List.pairwise_append.2 ⟨?_, hfs, fun e he _ _ h => hes e he h.1⟩
  exact List.pairwise_iff_forall_sublist.2 fun hsub hkinds => hes _ (hsub.subset (by simp)) hkinds.1

end Event.Before

/-- The events of a part of a turn: all of one kind, or a single error. -/
def Event.Part (k : Kind) (es : List Event) : Prop := (∀ e ∈ es, e.kind = k) ∨ ∃ message, es = [.error message]

namespace Event.Part

variable {k : Kind} {es : List Event}

theorem kind (h : Part k es) : ∀ e ∈ es, e.kind = k ∨ e.kind = .error := by
  intro e he
  rcases h with hkind | ⟨message, rfl⟩
  · exact .inl (hkind e he)
  · exact .inr (List.mem_singleton.1 he ▸ rfl)

theorem mem_matches (h : Part k es) :
    es.map Event.kind ∈ ((RegularExpression.char k).star + .char .error).matches' := by
  rw [RegularExpression.matches'_add]
  rcases h with hkind | ⟨message, rfl⟩
  · exact .inl (matches_star hkind)
  · exact .inr (Set.mem_singleton _)

end Event.Part

/-- The events of a turn in a session are those of calls, then of an answer, then of sources, and the last. -/
structure Event.Parts (session : String) (calls answer sources events : List Event) : Prop where
  called : ∀ e ∈ calls, e.kind = .toolCall
  answered : Part .token answer
  sourced : Part .source sources
  eq : events = calls ++ answer ++ sources ++ [.done session]

/-- The events of a turn in a session are in order. -/
structure Event.InOrder (session : String) (events : List Event) : Prop where
  word : events.map kind ∈ shape.matches'
  once : events.filter (·.kind = .done) = [.done session]
  last : events.getLast? = some (.done session)
  toolCalls : Before .toolCall .token events
  unbroken : Before .token .error events
  tokens : Before .token .source events

namespace Event.Parts

variable {session : String} {calls answer sources events : List Event}

theorem mem_matches (h : Parts session calls answer sources events) : events.map kind ∈ shape.matches' := by
  have hsources : sources.map kind ∈
      (1 + ((RegularExpression.char Kind.source).star + .char .error)).matches' := by
    rw [RegularExpression.matches'_add]
    exact .inr h.sourced.mem_matches
  rw [h.eq]
  simp only [List.map_append]
  exact Language.append_mem_mul (Language.append_mem_mul
    (Language.append_mem_mul (matches_star h.called) h.answered.mem_matches) hsources) (Set.mem_singleton _)

theorem inOrder (h : Parts session calls answer sources events) : InOrder session events := by
  have hcalls (e : Event) (he : e ∈ calls) : e.kind = .toolCall := h.called e he
  have hanswer := h.answered.kind
  have hend : ∀ e ∈ sources ++ [Event.done session], e.kind ≠ .token ∧ e.kind ≠ .toolCall := by
    intro e he
    rcases List.mem_append.1 he with he | he
    · rcases h.sourced.kind e he with hkind | hkind <;> simp [hkind]
    · simp [List.mem_singleton.1 he, Event.done]
  have heq : events = calls ++ (answer ++ (sources ++ [.done session])) := by simp [h.eq]
  constructor
  case word => exact h.mem_matches
  case once =>
    have hnone : ∀ e ∈ calls ++ answer ++ sources, e.kind ≠ .done := by
      simp only [List.mem_append]
      rintro e ((he | he) | he)
      · simp [hcalls e he]
      · rcases hanswer e he with hkind | hkind <;> simp [hkind]
      · rcases h.sourced.kind e he with hkind | hkind <;> simp [hkind]
    rw [h.eq, List.filter_append, List.filter_eq_nil_iff.2 fun e he => by simp [hnone e he]]
    rfl
  case last => rw [h.eq, List.getLast?_append, List.getLast?_singleton, Option.some_or]
  case toolCalls =>
    rw [heq]
    refine .append (fun e he => by simp [hcalls e he]) (.of_none fun e he => ?_)
    rcases List.mem_append.1 he with he | he
    · rcases hanswer e he with hkind | hkind <;> simp [hkind]
    · exact (hend e he).2
  case unbroken =>
    rw [heq]
    refine .append (fun e he => by simp [hcalls e he]) ?_
    rcases h.answered with htokens | ⟨message, rfl⟩
    · exact .append (fun e he => by simp [htokens e he]) (.of_none fun e he => (hend e he).1)
    · refine .of_none fun e he => ?_
      rcases List.mem_cons.1 he with rfl | he
      · simp [Event.error]
      · exact (hend e he).1
  case tokens =>
    rw [heq]
    refine .append (fun e he => by simp [hcalls e he]) (.append (fun e he => ?_) (.of_none fun e he => (hend e he).1))
    rcases hanswer e he with hkind | hkind <;> simp [hkind]

end Event.Parts

namespace Turn

/-! ## The parts of a turn -/

theorem kind_sourceOf {hit : Vector.Hit} {e : Event} (h : sourceOf hit = .ok e) : e.kind = .source := by
  unfold sourceOf at h
  cases hsnippet : snippet hit.content with
  | error failure =>
    rw [hsnippet] at h
    cases h
  | ok text =>
    rw [hsnippet] at h
    cases h
    rfl

theorem kind_mapM {hits : List Vector.Hit} {es : List Event} (h : hits.mapM sourceOf = .ok es) :
    ∀ e ∈ es, e.kind = .source := fun e he => by
  obtain ⟨hit, -, hhit⟩ := exists_of_mapM h e he
  exact kind_sourceOf hhit

theorem sources_ends (who : Tool.Caller) (text : LooseText) (w : World) :
    Ends (sources who text) w fun r _ => ∀ es, r = .ok es → ∀ e ∈ es, e.kind = .source := by
  have hnone : ∀ es, (Except.ok [] : Except Failure (List Event)) = .ok es → ∀ e ∈ es, e.kind = .source := by
    intro es h
    cases h
    exact List.forall_mem_nil _
  unfold sources
  split
  · exact hnone
  · refine Ends.settle (P := fun _ _ => True) trivial fun found w' _ => ?_
    cases found with
    | error e => exact hnone
    | ok hits => exact fun es h => kind_mapM h

/-- What a turn answers at its end are sources. -/
theorem conclude_ends (settings : Settings) (who : Tool.Caller) (s : Session) (text : LooseText) (o : Agent.Outcome)
    (w : World) : Ends (conclude settings who s text o) w fun r _ => ∀ es, r = .ok es → ∀ e ∈ es, e.kind = .source := by
  have hnever (r : Failure) (es : List Event) (h : (.error r : Except Failure (List Event)) = .ok es) :
      ∀ e ∈ es, e.kind = .source := by cases h
  rw [conclude_eq]
  refine Ends.bind (P := fun _ _ => True) trivial (fun _ w₁ _ => ?_) fun e _ _ => hnever e
  refine Ends.bind (P := fun _ _ => True) trivial (fun _ w₂ _ => ?_) fun e _ _ => hnever e
  exact (sources_ends who text w₂).bind (fun _ _ h => h) fun e _ _ => hnever e

/-- What went out in a turn that came to a failure or to none, with what closes it. -/
def Account.Closes (session : String) (account : Account) (failure : Option Failure) : Prop :=
  ∃ calls answer sources, Event.Parts session calls answer sources
    (account.add ((failure.map fun e => Event.error e.message).toList ++ [.done session])).events

namespace Account.Closes

variable {session : String} {account : Account} {calls answer sources : List Event}

theorem failed (hcalls : ∀ e ∈ calls, e.kind = .toolCall) (hanswer : Event.Part .token answer)
    (h : account.events = calls ++ answer) (e : Failure) : account.Closes session (some e) :=
  ⟨calls, answer, [.error e.message], hcalls, hanswer, .inr ⟨_, rfl⟩, by simp [Account.add, h]⟩

theorem whole (hcalls : ∀ e ∈ calls, e.kind = .toolCall) (hanswer : Event.Part .token answer)
    (hsources : ∀ e ∈ sources, e.kind = .source) (h : account.events = calls ++ answer ++ sources) :
    account.Closes session none :=
  ⟨calls, answer, sources, hcalls, hanswer, .inl hsources, by simp [Account.add, h]⟩

theorem unspoken (h : account.events = []) (e : Failure) : account.Closes session (some e) :=
  failed (List.forall_mem_nil _) (.inl (List.forall_mem_nil _)) h e

end Account.Closes

theorem goOn_closes (settings : Settings) (who : Tool.Caller) (s : Session) (history kept : List Message)
    (text : LooseText) (session : String) (w : World) : ∃ account failure w',
      goOn settings who s history kept text w = (.ok (account, failure), w') ∧ account.Closes session failure := by
  unfold goOn
  rw [Attempt.bind_run_ok (Attempt.ignore_run _ _), Attempt.settle_bind_run]
  generalize (World.addLoose s.id userRole text "" w).2 = w₁
  cases World.now w₁ |>.1 with
  | error e => exact ⟨_, _, _, rfl, .unspoken rfl e⟩
  | ok now =>
    simp only
    generalize (World.now w₁).2 = w₂
    obtain ⟨xs, p₁, w₃, p, ending, w₄, hloop, -, -⟩ := Agent.loop_goes (Tool.registry who) settings.maxRounds
      (Agent.opening s.summary (Agent.spoken kept) text now) w₂
    have hrun : Agent.run who settings.maxRounds (Agent.opening s.summary (Agent.spoken kept) text now) w₂ =
        (.ok (Agent.outcome p ending), w₄) := Agent.runWith_of_loop hloop
    rw [Attempt.bind_run_ok hrun]
    obtain ⟨tail, hevents, htail⟩ := Agent.events_outcome p ending
    have hanswer : Event.Part .token tail := by
      rcases htail with ⟨answer, rfl⟩ | ⟨message, rfl⟩
      · exact .inl (Agent.kind_tokens answer)
      · exact .inr ⟨message, rfl⟩
    have hcalls := Agent.kind_events p
    cases (Agent.outcome p ending).failed with
    | some e => exact ⟨_, _, _, rfl, .failed hcalls hanswer (by simp [Account.add, hevents]) e⟩
    | none =>
      simp only
      rw [Attempt.settle_bind_run]
      have hends := conclude_ends settings who s text (Agent.outcome p ending) w₄
      unfold Ends at hends
      cases hfound : (conclude settings who s text (Agent.outcome p ending) w₄).1 with
      | error e => exact ⟨_, _, _, rfl, .failed hcalls hanswer (by simp [Account.add, hevents]) e⟩
      | ok es => exact ⟨_, _, _, rfl, .whole hcalls hanswer (hends es hfound) (by simp [Account.add, hevents])⟩

theorem attempt_closes (settings : Settings) (who : Tool.Caller) (s : Session) (text : LooseText) (w : World) :
    ∃ account failure w', attempt settings who s text w = (.ok (account, failure), w') ∧
      account.Closes s.uid failure := by
  unfold attempt
  rw [Attempt.settle_bind_run]
  generalize (do World.needList (← World.messagesOf s.id) : Attempt World (List Message)) w = listed
  obtain ⟨_ | history, w₁⟩ := listed
  · exact ⟨_, _, _, rfl, .unspoken rfl _⟩
  · simp only
    rw [Attempt.settle_bind_run]
    generalize compacted settings.policy s history w₁ = folded
    obtain ⟨_ | ⟨kept, _ | s'⟩, w₂⟩ := folded
    · exact ⟨_, _, _, rfl, .unspoken rfl _⟩
    · exact ⟨_, _, _, rfl, .unspoken rfl _⟩
    · exact goOn_closes settings who s' history kept text s.uid w₂

theorem title_ok (uid : String) (message : LooseText) (w : World) :
    ∃ title w', Title.find uid message w = (.ok title, w') := by
  have hask : ∃ title w', Title.ask message w = (.ok title, w') := by
    unfold Title.ask
    rw [Attempt.settle_bind_run]
    cases (World.asking (Model.Client.complete .title (Title.prompt (Json.nearestText message))) w).1 <;>
      exact ⟨_, _, rfl⟩
  obtain ⟨title, w₁, htitle⟩ := hask
  unfold Title.find
  rw [Attempt.bind_run_ok htitle]
  cases title with
  | none => exact ⟨_, _, rfl⟩
  | some title =>
    simp only
    rw [Attempt.settle_bind_run]
    cases (World.reviseSession uid (some title) none w₁).1 <;> exact ⟨_, _, rfl⟩

/-- Once the turn is over its job is done, if it left one. -/
theorem run_of_attempt {settings : Settings} {who : Tool.Caller} {s : Session} {text : LooseText} {account : Account}
    {failure : Option Failure} {w w' : World} (h : attempt settings who s text w = (.ok (account, failure), w')) :
    run settings who s text w =
      (.ok (account.add ((failure.map fun e => Event.error e.message).toList ++ [.done s.uid])).events,
        account.job.elim w' fun job => (Title.find job.session job.message w').2) := by
  have hstream : stream settings who s text w = (.ok (account.add
      ((failure.map fun e => Event.error e.message).toList ++ [.done s.uid])), w') := Attempt.bind_run_ok h
  rw [run, Attempt.bind_run_ok hstream]
  cases hjob : account.job with
  | none =>
    rw [Account.add, hjob]
    rfl
  | some job =>
    obtain ⟨title, w₂, htitle⟩ := title_ok job.session job.message w'
    rw [Account.add, hjob, Option.elim_some, htitle]
    exact Attempt.bind_run_ok htitle

/-- A turn answers with events in whatever way it goes, and they have parts. -/
theorem run_parts (settings : Settings) (who : Tool.Caller) (s : Session) (text : LooseText) (w : World) :
    ∃ events w' calls answer sources, run settings who s text w = (.ok events, w') ∧
      Event.Parts s.uid calls answer sources events := by
  obtain ⟨account, failure, w₁, hattempt, calls, answer, sources, hparts⟩ := attempt_closes settings who s text w
  exact ⟨_, _, calls, answer, sources, run_of_attempt hattempt, hparts⟩

/-- **The events of a turn are in order**, whatever the model, the stores and the index come to: they are a word of
`Event.shape`, the last and only the last says that the turn is over, no word follows an error, calls come before words and
words before sources. -/
theorem run_inOrder (settings : Settings) (who : Tool.Caller) (s : Session) (text : LooseText) (w : World) :
    ∃ events w', run settings who s text w = (.ok events, w') ∧ Event.InOrder s.uid events := by
  obtain ⟨events, w', calls, answer, sources, hrun, hparts⟩ := run_parts settings who s text w
  exact ⟨events, w', hrun, hparts.inOrder⟩

end Turn
end Chat
end NoteAgent
