import NoteAgent.Model.Connection
import NoteAgent.Proofs.AgentRounds
import NoteAgent.Proofs.ToolReach
/-!
# AgentTranscript — what the model is shown of a run, and what is told of its calls

The model is shown one conversation after another.  Each is the one before with the turn that came back for it, and with
one text for each id in that turn, which is what the first call with the id came to (`Transcript.next`).  The events of
the calls, the results that are kept and the texts in the conversation are told of the same calls in the same order, and
the event of a call goes out before the call starts to run.
-/
namespace NoteAgent

open Tool (Registry)
open Model (Entry Turn ToolCall)

theorem Tool.quiet_registry (who : Tool.Caller) : (Tool.registry who).Quiet := fun o ho arguments w => by
  obtain ⟨tool, -, rfl⟩ := List.mem_map.1 ho
  have hspares := Tool.keeps_execute (fun t args => Tool.keeps_perform who args t) tool (Tool.rawText arguments) w
  rw [hspares.model]
  exact .refl _

/-- The id and the text of an entry that says what a call came to. -/
def Model.Entry.told? : Entry → Option (Json × String)
  | .result call text => some (call, text)
  | _ => none

namespace Agent

def Served.told (s : Served) : Json × String := (s.call.id, s.text)

theorem told_entries (ss : List Served) : (ss.map Served.entry).filterMap Entry.told? = ss.map Served.told := by
  induction ss with
  | nil => rfl
  | cons s ss ih => exact congrArg (s.told :: ·) ih

theorem told_rounds (xs : List Round) :
    (xs.flatMap Round.entries).filterMap Entry.told? = (xs.flatMap Round.served).map Served.told := by
  induction xs with
  | nil => rfl
  | cons x xs ih =>
    rw [List.flatMap_cons, List.flatMap_cons, List.filterMap_append, ih, List.map_append]
    exact congrArg (· ++ _) (told_entries x.served)

variable {r : Registry} {maxRounds : Int} {p p' : Progress} {w w' : World} {ending : Ending}

/-! ## The end of a run -/

/-- The loop breaks off at a call that cannot be told apart. -/
def Ending.Chokes (ending : Ending) : Prop := ∃ owner, ending = .broken (.notKey owner)

/-- Where a run stops the model is shown the conversation so far, or nothing more. -/
theorem Stops.requests (hr : r.Quiet) (h : Stops r maxRounds p w p' ending w') : ∃ begun,
    (begun = [] ∧ (p.rounds ≠ 0 ∨ maxRounds < -2) ∨ begun = [p.entries] ∧ Due maxRounds p) ∧
      w'.model.requests = w.model.requests ++ shown r begun := by
  have hasked {x : Except Failure Turn} {w₁ : World} (asked : ask r p w = (x, w₁)) :
      w₁.model.requests = w.model.requests ++ shown r [p.entries] := requests_of_ask asked
  cases h with
  | capped begun => exact ⟨[], .inl ⟨rfl, .inl begun⟩, by simp [shown]⟩
  | unstarted _ few => exact ⟨[], .inl ⟨rfl, .inr few⟩, by simp [shown]⟩
  | answered due asked | unserved due asked | refused due asked | overrun due asked =>
    exact ⟨_, .inr ⟨rfl, due⟩, hasked asked⟩
  | choked due asked _ ran => exact ⟨_, .inr ⟨rfl, due⟩, (hr.texts _ ran).requests.trans (hasked asked)⟩

/-- No call is run where a run stops, unless it breaks off at a call. -/
theorem Stops.serves (h : Stops r maxRounds p w p' ending w') : ∃ served added,
    p'.past = p.past ++ served.flatMap Served.happenings ∧ p'.entries = p.entries ++ added ∧
      added.filterMap Entry.told? = served.map Served.told ∧ (served = [] ∨ ending.Chokes) := by
  cases h with
  | @choked turn served owner _ _ due asked unkeyed ran =>
    refine ⟨served, .calls turn :: served.map Served.entry, rfl, ?_, told_entries served, .inr ⟨owner, rfl⟩⟩
    simp [Progress.asked, Progress.serve]
  | _ => exact ⟨[], [], by simp, by simp, rfl, .inl rfl⟩

/-! ## What goes out -/

theorem kind_events (p : Progress) : ∀ e ∈ p.events, e.kind = .toolCall := by
  intro e he
  obtain ⟨happening, -, hevent⟩ := List.mem_filterMap.1 he
  cases happening with
  | announced c =>
    cases hevent
    rfl
  | launched c => cases hevent
  | answered result => cases hevent

theorem kind_tokens (answer : String) : ∀ e ∈ tokens answer, e.kind = .token := by
  intro e he
  obtain ⟨word, -, rfl⟩ := List.mem_map.1 he
  rfl

/-- After the events of the calls there are the words of an answer, or an error, or nothing. -/
theorem events_outcome (p : Progress) (ending : Ending) : ∃ tail, (outcome p ending).events = p.events ++ tail ∧
    ((∃ answer, tail = tokens answer) ∨ ∃ message, tail = [.error message]) := by
  have hnone : ∃ tail, p.events = p.events ++ tail ∧
      ((∃ answer, tail = tokens answer) ∨ ∃ message, tail = [.error message]) := ⟨[], by simp, .inl ⟨"", rfl⟩⟩
  cases ending with
  | answered content =>
    cases content with
    | text s => exact ⟨_, rfl, .inl ⟨s, rfl⟩⟩
    | _ => exact hnone
  | unserved e => exact ⟨_, rfl, .inr ⟨_, rfl⟩⟩
  | capped | broken e => exact hnone

theorem toolCalls_outcome (p : Progress) (ending : Ending) :
    (outcome p ending).events.filter (·.kind = .toolCall) = p.events := by
  obtain ⟨tail, hevents, htail⟩ := events_outcome p ending
  rw [hevents, List.filter_append, List.filter_eq_self.2 fun e he => by simp [kind_events p e he]]
  have hother : ∀ e ∈ tail, e.kind ≠ .toolCall := by
    rcases htail with ⟨answer, rfl⟩ | ⟨message, rfl⟩
    · intro e he
      rw [kind_tokens answer e he]
      decide
    · simp [Chat.Event.error]
  rw [List.filter_eq_nil_iff.2 fun e he => by simp [hother e he], List.append_nil]

theorem results_outcome (p : Progress) (ending : Ending) : (outcome p ending).results = p.results := by
  cases ending with
  | answered content => cases content <;> rfl
  | capped | unserved e | broken e => rfl

/-! ## The whole run -/

/-- What is told of a run with the rounds `xs`: the model was shown the conversations `begun`, and `served` are all the
calls that were run. -/
structure Transcript (r : Registry) (opening : List Entry) (w : World) (xs : List Round) (begun : List (List Entry))
    (served : List Served) (p : Progress) (ending : Ending) (w' : World) : Prop where
  requests : w'.model.requests = w.model.requests ++ shown r begun
  first : ∀ entries, begun[0]? = some entries → entries = opening
  /-- Each conversation is the one before, the turn that came back for it, and a text for each of its ids. -/
  next : ∀ i earlier later, begun[i]? = some earlier → begun[i + 1]? = some later →
    ∃ x, xs[i]? = some x ∧ later = earlier ++ .calls x.turn :: x.served.map Served.entry
  turns : ∀ i x, xs[i]? = some x → w.model.upcoming i = .ok x.turn
  calls : ∀ x ∈ xs, x.served.map (·.call) = x.turn.firstCalls
  /-- Other calls are run only if the loop breaks off at one. -/
  all : xs.flatMap Round.served = served ∨ xs.flatMap Round.served <+: served ∧ ending.Chokes
  /-- Its event goes out before a call starts to run, and after the call before it has been run. -/
  past : p.past = served.flatMap Served.happenings
  events : (outcome p ending).events.filter (·.kind = .toolCall) = served.map Served.event
  results : (outcome p ending).results = served.map Served.result
  messages : ∃ added, p.entries = opening ++ added ∧ added.filterMap Entry.told? = served.map Served.told

namespace Goes

variable {xs : List Round}

theorem served_calls (h : Goes r maxRounds p w xs p' w') : ∀ x ∈ xs, x.served.map (·.call) = x.turn.firstCalls := by
  induction h with
  | rest => exact List.forall_mem_nil _
  | round due asked calls first ran later ih => exact List.forall_mem_cons.2 ⟨first, ih⟩

end Goes

theorem conversations_zero (opening : List Entry) (xs : List Round) : (conversations opening xs)[0]? = some opening :=
  List.getElem?_scanl_zero

theorem conversations_succ {opening : List Entry} {xs : List Round} {i : Nat} {later : List Entry}
    (h : (conversations opening xs)[i + 1]? = some later) : ∃ earlier x, (conversations opening xs)[i]? = some earlier ∧
      xs[i]? = some x ∧ later = earlier ++ x.entries := by
  rw [conversations, List.getElem?_succ_scanl] at h
  obtain ⟨earlier, hearlier, hx⟩ := Option.bind_eq_some_iff.1 h
  obtain ⟨x, hround, rfl⟩ := Option.map_eq_some_iff.1 hx
  exact ⟨earlier, x, hearlier, hround, rfl⟩

theorem transcript_of {opening : List Entry} {xs : List Round} {p₁ : Progress} {w₁ : World} (hr : r.Quiet)
    (hgoes : Goes r maxRounds (.start opening) w xs p₁ w₁) (hstops : Stops r maxRounds p₁ w₁ p ending w') :
    ∃ begun served, Transcript r opening w xs begun served p ending w' := by
  obtain ⟨begun, hbegun, -, hrequests⟩ := hgoes.requests hr
  obtain ⟨last, hlast, hrequests'⟩ := hstops.requests hr
  obtain ⟨more, added, hpast, hentries, htold, hmore⟩ := hstops.serves
  have hprefix : begun ++ last <+: conversations opening xs := by
    change _ <+: conversations (Progress.start opening).entries xs
    rw [hbegun]
    rcases hlast with ⟨rfl, -⟩ | ⟨rfl, -⟩
    · exact ⟨[p₁.entries], by simp⟩
    · exact List.prefix_rfl
  have hget {i : Nat} {entries : List Entry} (h : (begun ++ last)[i]? = some entries) :
      (conversations opening xs)[i]? = some entries := by
    obtain ⟨hi, rfl⟩ := List.getElem?_eq_some_iff.1 h
    exact List.prefix_iff_getElem?.1 hprefix i hi
  have hserved : p.past = (xs.flatMap Round.served ++ more).flatMap Served.happenings := by
    rw [hpast, hgoes.past_eq, List.flatMap_append]
    rfl
  refine ⟨begun ++ last, xs.flatMap Round.served ++ more, ?_⟩
  constructor
  case requests =>
    rw [hrequests', hrequests, List.append_assoc]
    simp [shown]
  case first =>
    intro entries h
    exact Option.some.inj ((hget h).symm.trans (conversations_zero opening xs))
  case next =>
    intro i earlier later hearlier hlater
    obtain ⟨entries, x, hentries, hx, rfl⟩ := conversations_succ (hget hlater)
    cases (hget hearlier).symm.trans hentries
    exact ⟨x, hx, rfl⟩
  case turns => exact (hgoes.upcoming hr).1
  case calls => exact hgoes.served_calls
  case all =>
    rcases hmore with rfl | hchokes
    · exact .inl (by simp)
    · exact .inr ⟨List.prefix_append _ _, hchokes⟩
  case past => exact hserved
  case events =>
    rw [toolCalls_outcome, Progress.events, hserved, Served.events_happenings]
  case results =>
    rw [results_outcome, Progress.results, hserved, Served.results_happenings]
  case messages =>
    refine ⟨xs.flatMap Round.entries ++ added, ?_, ?_⟩
    · rw [hentries, hgoes.entries_eq, List.append_assoc]
      rfl
    · rw [List.filterMap_append, told_rounds, htold, List.map_append]

/-- **Every run of the agent is well told**: with any tools and any turns, the model is shown what the rounds add to the
conversation and nothing else, and events, results and texts are told of the same calls in the same order. -/
theorem runWith_transcript (hr : r.Quiet) (maxRounds : Int) (opening : List Entry) (w : World) :
    ∃ xs p₁ w₁ p ending w' begun served, runWith r maxRounds opening w = (.ok (outcome p ending), w') ∧
      Goes r maxRounds (.start opening) w xs p₁ w₁ ∧ Stops r maxRounds p₁ w₁ p ending w' ∧
      Transcript r opening w xs begun served p ending w' := by
  obtain ⟨xs, p₁, w₁, p, ending, w', hrun, hgoes, hstops⟩ := loop_goes r maxRounds opening w
  obtain ⟨begun, served, htranscript⟩ := transcript_of hr hgoes hstops
  exact ⟨xs, p₁, w₁, p, ending, w', begun, served, runWith_of_loop hrun, hgoes, hstops, htranscript⟩

/-- A tool that says what it was told. -/
def echo : Registry := ⟨[⟨"echo", fun arguments => .done (Tool.rawText arguments)⟩]⟩

/-- Three calls, two of one id, and one of a tool that there is not. -/
def someCalls : List ToolCall :=
  [⟨.text "a", .text "echo", .text "one"⟩, ⟨.text "a", .text "echo", .text "two"⟩, ⟨.text "b", .text "shout", .text "three"⟩]

/-- The model asks for calls, and then it answers. -/
def threeCalls : World :=
  .fresh 5 (.fresh .empty ⟨fun _ _ => .ok [[]], 0⟩ 0) (.fresh ⟨[.plain (.text "let me see") (someCalls.map ToolCall.json),
    .text "all  done"], fun _ => .failed "down", 0⟩ (.always "") (.always ""))

theorem quiet_echo : echo.Quiet := fun o ho _ _ => by
  obtain rfl := List.mem_singleton.1 ho
  exact .refl _

theorem runWith_transcript_threeCalls :
    echo.Quiet ∧ ∃ xs p ending w' begun served,
      runWith echo 3 [.user "hello"] threeCalls = (.ok (outcome p ending), w') ∧
      Transcript echo [.user "hello"] threeCalls xs begun served p ending w' ∧
      served.map Served.result = [⟨.text "a", .text "echo", "one"⟩, ⟨.text "b", .text "shout", "Unknown tool: shout"⟩] ∧
      begun.length = 2 := by
  refine ⟨quiet_echo, ?_⟩
  obtain ⟨xs, p₁, w₁, p, ending, w', begun, served, hrun, -, -, htranscript⟩ :=
    runWith_transcript quiet_echo 3 [.user "hello"] threeCalls
  refine ⟨xs, p, ending, w', begun, served, hrun, htranscript, ?_, ?_⟩
  · rw [← htranscript.results]
    have hresults : (runWith echo 3 [.user "hello"] threeCalls).1.map Outcome.results =
        .ok [⟨.text "a", .text "echo", "one"⟩, ⟨.text "b", .text "shout", "Unknown tool: shout"⟩] := rfl
    rw [hrun] at hresults
    exact Except.ok.inj hresults
  · have hasked : (runWith echo 3 [.user "hello"] threeCalls).2.model.requests.length = 2 := rfl
    rw [hrun, htranscript.requests, List.length_append] at hasked
    simpa [shown, threeCalls, World.fresh, Model.Client.fresh] using hasked

end Agent
end NoteAgent
