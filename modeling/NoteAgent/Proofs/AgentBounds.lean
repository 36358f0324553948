import NoteAgent.Proofs.AgentTranscript
/-!
# AgentBounds — when the agent stops, and with what

The model is asked at most once for each round that is allowed, and the bound on the steps is never met, for any supply of
replies.  The first reply that does not ask for calls settles the run: a turn without calls is the answer, and goes out
word by word; a failure of the service leaves no answer, but the results of the rounds before it.  Without such a reply
the rounds are used up, and there is neither an answer nor an error.
-/
namespace NoteAgent

namespace Text

theorem wordsFrom_eq (word cs : List Char) :
    wordsFrom word cs = ((cs.splitOnP isBlank).modifyHead (word.reverse ++ ·)).filter (!·.isEmpty) := by
  induction cs generalizing word with
  | nil => cases word <;> simp [wordsFrom]
  | cons c cs ih =>
    rw [wordsFrom, List.splitOnP_cons_eq_if_modifyHead]
    by_cases hblank : isBlank c = true
    · have hrest : wordsFrom [] cs = (cs.splitOnP isBlank).filter (!·.isEmpty) := by
        rw [ih]
        cases cs.splitOnP isBlank <;> rfl
      rw [if_pos hblank, if_pos hblank, hrest]
      cases word <;> simp
    · rw [if_neg hblank, if_neg hblank, ih, List.modifyHead_modifyHead]
      congr 2
      funext piece
      simp

/-- **Words are the pieces between blanks**, without the empty ones. -/
theorem words_eq (s : String) :
    words s = ((s.toList.splitOnP isBlank).filter (!·.isEmpty)).map String.ofList := by
  rw [words, wordsFrom_eq]
  cases s.toList.splitOnP isBlank <;> rfl

end Text

namespace Model

/-! ## Replies -/

/-- The result is not that too many steps were taken. -/
def Stepless {α : Type} (x : Except Failure α) : Prop := ∀ limit, x ≠ .error (.tooManySteps limit)

theorem Stepless.bind {α β : Type} {x : Except Failure α} {next : α → Except Failure β} (hx : Stepless x)
    (hnext : ∀ a, Stepless (next a)) : Stepless (x >>= next) := by
  intro limit h
  cases x with
  | error e =>
    cases h
    exact hx limit rfl
  | ok a => exact hnext a limit h

theorem Stepless.ok {α : Type} (a : α) : Stepless (.ok a) := fun _ h => by cases h

theorem stepless_need (v : Json) (name : String) : Stepless (need v name) := fun limit h => by
  unfold need at h
  split at h <;> cases h

theorem stepless_itemsOf (v : Json) : Stepless (itemsOf v) := fun limit h => by
  unfold itemsOf at h
  split at h <;> cases h

theorem stepless_firstItem (v : Json) : Stepless (firstItem v) := fun limit h => by
  unfold firstItem at h
  split at h <;> cases h

theorem stepless_readCalls (cs : List Json) : Stepless (readCalls cs) := by
  induction cs with
  | nil => exact .ok _
  | cons c cs ih =>
    have hcall : Stepless (readCall c) := by
      unfold readCall
      split
      · exact .ok _
      · exact (stepless_need _ _).bind fun _ => (stepless_need _ _).bind fun _ => .ok _
    exact hcall.bind fun _ => ih.bind fun _ => .ok _

theorem stepless_turnOf (message : Json) : Stepless (turnOf message) := by
  have hcalls : Stepless (callsOf message) := by
    unfold callsOf
    split
    · exact .ok _
    · exact (stepless_itemsOf _).bind fun _ => stepless_readCalls _
  have hmeasured (v : Json) : Stepless (measured v) := fun limit h => by
    unfold measured at h
    split at h <;> cases h
  refine hcalls.bind fun calls => ?_
  cases calls with
  | nil => exact (hmeasured _).bind fun _ => .ok _
  | cons c cs => exact .ok _

theorem stepless_turn (reply : Reply) : Stepless reply.turn := by
  have hmessage : Stepless reply.message := by
    unfold Reply.message
    cases reply with
    | failed text => exact fun _ h => by cases h
    | broken text => exact fun _ h => by cases h
    | answer object =>
      simp only
      split
      · exact fun _ h => by cases h
      · exact (stepless_firstItem _).bind fun _ => stepless_need _ _
  exact hmessage.bind stepless_turnOf

namespace Client

/-- The reply after `n` others asks for calls, all of which can be told apart. -/
def CallsTools (c : Client) (n : Nat) : Prop := ∃ turn, c.upcoming n = .ok turn ∧ turn.calls ≠ [] ∧ turn.Keyed

/-- There is a round for the reply after `n` others, which all ask for calls, and it comes to `x`. -/
structure ComesTo (c : Client) (maxRounds : Int) (n : Nat) (x : Except Failure Turn) : Prop where
  within : (n : Int) < maxRounds
  calls : ∀ i < n, c.CallsTools i
  reply : c.upcoming n = x

end Client
end Model

namespace Agent

open Tool (Registry)
open Model (Entry Turn)

variable {r : Registry} {maxRounds : Int} {opening : List Entry} {xs : List Round} {p₁ p p' : Progress} {w w₁ w' : World}
  {ending : Ending}

/-! ## How many rounds there are -/

theorem Goes.length_requests {p : Progress} (hr : r.Quiet) (h : Goes r maxRounds p w xs p₁ w₁) :
    w₁.model.requests.length = w.model.requests.length + xs.length := by
  obtain ⟨begun, -, hlength, hrequests⟩ := h.requests hr
  rw [hrequests, List.length_append, shown, List.length_map, hlength]

/-- A run does not stop at a reply that asks for calls while there are rounds left. -/
theorem length_ge (hr : r.Quiet) (hmax : 1 ≤ maxRounds) (hgoes : Goes r maxRounds (.start opening) w xs p₁ w₁)
    (hstops : Stops r maxRounds p₁ w₁ p ending w') {k : Nat} (hk : (k : Int) ≤ maxRounds)
    (hcalls : ∀ j < k, w.model.CallsTools j) : k ≤ xs.length := by
  refine Nat.le_of_not_lt fun hlt => ?_
  obtain ⟨turn, hturn, hsome, hkeyed⟩ := hcalls xs.length hlt
  have hnext : w₁.model.upcoming 0 = .ok turn := ((hgoes.upcoming hr).2 0).trans hturn
  have hasked {x : Except Failure Turn} {w₂ : World} (asked : ask r p₁ w₁ = (x, w₂)) : x = .ok turn :=
    (upcoming_of_ask asked).1.symm.trans hnext
  have hrounds := hgoes.rounds_start
  cases hstops with
  | answered _ asked final =>
    cases hasked asked
    exact hsome final
  | choked _ asked unkeyed _ =>
    cases hasked asked
    exact unkeyed hkeyed
  | unserved _ asked _ | refused _ asked _ => cases hasked asked
  | capped _ used => omega
  | overrun _ _ _ few | unstarted _ few => omega

/-- A run does not go past a reply that asks for no calls. -/
theorem length_le (hr : r.Quiet) {p : Progress} (hgoes : Goes r maxRounds p w xs p₁ w₁) {k : Nat}
    (hnone : ∀ turn, w.model.upcoming k = .ok turn → turn.calls = []) : xs.length ≤ k := by
  refine Nat.le_of_not_lt fun hlt => ?_
  have hround := (hgoes.upcoming hr).1 k xs[k] (List.getElem?_eq_getElem hlt)
  exact hgoes.calls xs[k] (List.getElem_mem hlt) (hnone _ hround)

/-- The rounds end where the first reply comes that asks for no calls, and it is the next to be asked for. -/
theorem ends_at (hr : r.Quiet) (hmax : 1 ≤ maxRounds) (hgoes : Goes r maxRounds (.start opening) w xs p₁ w₁)
    (hstops : Stops r maxRounds p₁ w₁ p ending w') {k : Nat} {x : Except Failure Turn} (h : w.model.ComesTo maxRounds k x)
    (hx : ∀ turn, x = .ok turn → turn.calls = []) : xs.length = k ∧ Due maxRounds p₁ ∧ w₁.model.upcoming 0 = x := by
  have hlength : xs.length = k :=
    Nat.le_antisymm (length_le hr hgoes fun turn ht => hx turn (h.reply.symm.trans ht))
      (length_ge hr hmax hgoes hstops (Int.le_of_lt h.within) h.calls)
  refine ⟨hlength, .inr ?_, ?_⟩
  · rw [hgoes.rounds_start, hlength]
    exact h.within
  · rw [(hgoes.upcoming hr).2 0, hlength]
    exact h.reply

theorem requests_le (hr : r.Quiet) (hmax : 1 ≤ maxRounds) (hgoes : Goes r maxRounds (.start opening) w xs p₁ w₁)
    (hstops : Stops r maxRounds p₁ w₁ p ending w') : ∃ more, w'.model.requests = w.model.requests ++ more ∧
      (more.length : Int) ≤ maxRounds := by
  obtain ⟨begun, -, hbegun, hrequests⟩ := hgoes.requests hr
  obtain ⟨last, hlast, hrequests'⟩ := hstops.requests hr
  have hrounds := hgoes.rounds_start
  have hle := hgoes.rounds_le (Int.le_trans Int.one_nonneg (Int.le_max_right _ _))
  refine ⟨shown r (begun ++ last), ?_, ?_⟩
  · rw [hrequests', hrequests, List.append_assoc]
    simp [shown]
  · rw [shown, List.length_map, List.length_append, hbegun]
    unfold Due at hlast
    rcases hlast with ⟨rfl, -⟩ | ⟨rfl, hdue⟩
    · simp only [List.length_nil]
      omega
    · simp only [List.length_singleton]
      omega

/-! ## How a run stops -/

/-- A turn without calls is the answer. -/
theorem Stops.answers {content : Json} (h : Stops r maxRounds p w p' ending w') (hmax : 1 ≤ maxRounds)
    (due : Due maxRounds p) (reply : w.model.upcoming 0 = .ok ⟨content, []⟩) :
    p' = { p with rounds := p.rounds + 1 } ∧ ending = .answered content ∧
      w'.model.requests = w.model.requests ++ [request r p] := by
  have hasked {x : Except Failure Turn} {w₁ : World} (asked : ask r p w = (x, w₁)) : .ok ⟨content, []⟩ = x :=
    reply.symm.trans (upcoming_of_ask asked).1
  unfold Due at due
  cases h with
  | answered _ asked _ =>
    cases hasked asked
    exact ⟨rfl, rfl, requests_of_ask asked⟩
  | choked _ asked unkeyed _ =>
    cases hasked asked
    exact absurd (List.forall_mem_nil _) unkeyed
  | unserved _ asked _ | refused _ asked _ => cases hasked asked
  | capped | overrun | unstarted => omega

/-- A failure of the service ends the run. -/
theorem Stops.fails {e : Failure} (h : Stops r maxRounds p w p' ending w') (hmax : 1 ≤ maxRounds)
    (due : Due maxRounds p) (reply : w.model.upcoming 0 = .error e) (he : Model.isServiceFailure e = true) :
    p' = p ∧ ending = .unserved e := by
  have hasked {x : Except Failure Turn} {w₁ : World} (asked : ask r p w = (x, w₁)) : .error e = x :=
    reply.symm.trans (upcoming_of_ask asked).1
  unfold Due at due
  cases h with
  | unserved _ asked _ =>
    cases hasked asked
    exact ⟨rfl, rfl⟩
  | refused _ asked other =>
    cases hasked asked
    exact Bool.noConfusion (he.symm.trans other)
  | answered _ asked _ | choked _ asked _ _ => cases hasked asked
  | capped | overrun | unstarted => omega

/-- When the rounds are used up there is no answer. -/
theorem Stops.caps (h : Stops r maxRounds p w p' ending w') (hmax : 1 ≤ maxRounds) (used : ¬Due maxRounds p) :
    p' = p ∧ ending = .capped := by
  cases h with
  | capped => exact ⟨rfl, rfl⟩
  | unstarted _ few => omega
  | answered due | unserved due | refused due | choked due | overrun due => exact absurd due used

theorem Stops.steps (h : Stops r maxRounds p w p' ending w') (hmax : 1 ≤ maxRounds) (limit : Int) :
    (outcome p' ending).failed ≠ some (.tooManySteps limit) := by
  intro hfailed
  cases h with
  | @answered turn _ due asked final =>
    obtain ⟨content, calls⟩ := turn
    cases content <;> cases hfailed
  | refused _ asked _ =>
    cases hfailed
    exact Model.stepless_turn _ limit (upcoming_of_ask asked).1
  | capped | unserved | choked => cases hfailed
  | overrun _ _ _ few | unstarted _ few => omega

/-! ## The bounds -/

/-- The words of an answer as they go out, each with one space after it. -/
def wordTokens (answer : String) : List Chat.Event :=
  ((answer.toList.splitOnP Text.isBlank).filter (!·.isEmpty)).map fun word => .token (String.ofList word ++ " ")

theorem tokens_eq (answer : String) : tokens answer = wordTokens answer := by
  rw [tokens, Text.words_eq, List.map_map]
  rfl

/-- The outcome sums up the rounds `xs`, and after the events of their calls goes out `tail`. -/
structure Outcome.SumsUp (o : Outcome) (xs : List Round) (rounds : Nat) (answer : Json) (tail : List Chat.Event) :
    Prop where
  events : o.events = (xs.flatMap Round.served).map Served.event ++ tail
  answer : o.answer = answer
  rounds : o.rounds = rounds
  results : o.results = (xs.flatMap Round.served).map Served.result
  failed : o.failed = none

/-- What a run with the rounds `xs` comes to, by the first reply that does not ask for calls. -/
structure Bounds (maxRounds : Int) (w : World) (xs : List Round) (o : Outcome) (w' : World) : Prop where
  requests : ∃ more, w'.model.requests = w.model.requests ++ more ∧ (more.length : Int) ≤ maxRounds
  /-- The bound on the steps is not met. -/
  steps : ∀ limit, o.failed ≠ some (.tooManySteps limit)
  answered : ∀ k content, w.model.ComesTo maxRounds k (.ok ⟨content, []⟩) →
    w'.model.requests.length = w.model.requests.length + (k + 1) ∧ o.answer = content
  spoken : ∀ k answer, w.model.ComesTo maxRounds k (.ok ⟨.text answer, []⟩) →
    xs.length = k ∧ o.SumsUp xs (k + 1) (.text answer) (wordTokens answer)
  /-- Every reply that there is a round for asks for calls. -/
  capped : (∀ n : Nat, (n : Int) < maxRounds → w.model.CallsTools n) →
    (xs.length : Int) = maxRounds ∧ o.SumsUp xs xs.length noAnswer []
  unserved : ∀ k e, w.model.ComesTo maxRounds k (.error e) → Model.isServiceFailure e = true →
    xs.length = k ∧ o.SumsUp xs k noAnswer [.error e.message]

theorem Goes.sumsUp (h : Goes r maxRounds (.start opening) w xs p₁ w₁) (rounds : Nat) (answer : Json)
    (tail : List Chat.Event) :
    Outcome.SumsUp ⟨p₁.events ++ tail, answer, rounds, p₁.results, none⟩ xs rounds answer tail := by
  constructor
  case events =>
    rw [Progress.events, h.past_eq, ← Served.events_happenings]
    rfl
  case results =>
    rw [Progress.results, h.past_eq, ← Served.results_happenings]
    rfl
  all_goals rfl

theorem bounds_of (hr : r.Quiet) (hmax : 1 ≤ maxRounds) (hgoes : Goes r maxRounds (.start opening) w xs p₁ w₁)
    (hstops : Stops r maxRounds p₁ w₁ p ending w') : Bounds maxRounds w xs (outcome p ending) w' := by
  have hrounds := hgoes.rounds_start
  have hanswered {k : Nat} {content : Json} (h : w.model.ComesTo maxRounds k (.ok ⟨content, []⟩)) :=
    ends_at hr hmax hgoes hstops h fun turn ht => by cases ht; rfl
  constructor
  case requests => exact requests_le hr hmax hgoes hstops
  case steps => exact hstops.steps hmax
  case answered =>
    intro k content h
    obtain ⟨hlength, hdue, hreply⟩ := hanswered h
    obtain ⟨rfl, rfl, hrequests⟩ := hstops.answers hmax hdue hreply
    rw [hrequests, List.length_append, hgoes.length_requests hr, hlength]
    refine ⟨rfl, ?_⟩
    cases content <;> rfl
  case spoken =>
    intro k answer h
    obtain ⟨hlength, hdue, hreply⟩ := hanswered h
    obtain ⟨rfl, rfl, -⟩ := hstops.answers hmax hdue hreply
    refine ⟨hlength, ?_⟩
    rw [← tokens_eq, ← hlength, ← hrounds]
    exact hgoes.sumsUp _ _ _
  case capped =>
    intro hcalls
    have hge := length_ge hr hmax hgoes hstops (k := maxRounds.toNat) (by omega) fun j hj => hcalls j (by omega)
    have hle := hgoes.rounds_le (Int.le_trans Int.one_nonneg (Int.le_max_right _ _))
    have hused : ¬Due maxRounds p₁ := by
      unfold Due
      omega
    obtain ⟨rfl, rfl⟩ := hstops.caps hmax hused
    refine ⟨by omega, ?_⟩
    rw [← hrounds]
    have hsums := hgoes.sumsUp p.rounds noAnswer []
    rwa [List.append_nil] at hsums
  case unserved =>
    intro k e h he
    obtain ⟨hlength, hdue, hreply⟩ := ends_at hr hmax hgoes hstops h fun turn ht => by cases ht
    obtain ⟨rfl, rfl⟩ := hstops.fails hmax hdue hreply he
    refine ⟨hlength, ?_⟩
    rw [← hlength, ← hrounds]
    exact hgoes.sumsUp _ _ _

/-- **The agent is bounded and says why it stops**: for any supply of replies it asks the model once a round at most, never
meets the bound on its steps, and the first reply that does not ask for calls settles what the run comes to. -/
theorem runWith_bounds (hr : r.Quiet) (hmax : 1 ≤ maxRounds) (opening : List Entry) (w : World) :
    ∃ xs p₁ w₁ o w', runWith r maxRounds opening w = (.ok o, w') ∧ Goes r maxRounds (.start opening) w xs p₁ w₁ ∧
      Bounds maxRounds w xs o w' := by
  obtain ⟨xs, p₁, w₁, p, ending, w', hrun, hgoes, hstops⟩ := loop_goes r maxRounds opening w
  exact ⟨xs, p₁, w₁, _, w', runWith_of_loop hrun, hgoes, bounds_of hr hmax hgoes hstops⟩

theorem runWith_bounds_threeCalls :
    echo.Quiet ∧ (1 : Int) ≤ 3 ∧ ∃ xs o w', runWith echo 3 [.user "hello"] threeCalls = (.ok o, w') ∧
      o.SumsUp xs 2 (.text "all  done") [.token "all ", .token "done "] := by
  obtain ⟨xs, p₁, w₁, o, w', hrun, -, hbounds⟩ := runWith_bounds quiet_echo (by decide : (1 : Int) ≤ 3)
    [.user "hello"] threeCalls
  refine ⟨quiet_echo, by decide, xs, o, w', hrun, ?_⟩
  have hcalls : ∀ i < 1, threeCalls.model.CallsTools i := by
    intro i hi
    obtain rfl : i = 0 := by omega
    exact ⟨⟨.text "let me see", someCalls⟩, rfl, by simp [someCalls], by simp [Model.Turn.Keyed, someCalls, Json.isKey]⟩
  exact (hbounds.spoken 1 "all  done" ⟨by decide, hcalls, rfl⟩).2

end Agent
end NoteAgent
