import NoteAgent.Agent.Loop
/-!
# AgentRounds — the agent's loop, round by round

The rounds that are over lead from one conversation to the next: the model is asked and answers with a turn that has calls,
and of each id the first call is run (`Goes`).  After them the loop stops in one of seven ways (`Stops`).  Whatever the tools
do and the model answers, a run of the loop is rounds and then a stop (`loop_goes`); nothing else here or later looks into
the loop.  The bound on its steps plays no part once a round is allowed.
-/
namespace NoteAgent

namespace Model

/-- The calls of a turn that are run: of each id the first. -/
def Turn.firstCalls (t : Turn) : List ToolCall := t.calls.eraseDupsBy fun c d => Json.sameKey c.id d.id

/-- The ids and the names of the calls can be told apart from others, as texts can. -/
def Turn.Keyed (t : Turn) : Prop := ∀ c ∈ t.calls, Json.isKey c.id = true ∧ Json.isKey c.name = true

/-! ## The replies to come -/

/-- The reply that comes after `n` others. -/
def Supply.nth (s : Supply) : Nat → Reply
  | 0 => s.next.1
  | n + 1 => s.next.2.nth n

namespace Client

/-- What the model comes to when it is asked for a turn after `n` other turns. -/
def upcoming (c : Client) (n : Nat) : Except Failure Turn := ((c.supply .turn).nth n).turn

/-- The model was not asked for a turn. -/
structure Unturned (c c' : Client) : Prop where
  requests : c'.requests = c.requests
  supply : c'.supply .turn = c.supply .turn

theorem Unturned.refl (c : Client) : Unturned c c := ⟨rfl, rfl⟩

theorem Unturned.trans {c c' c'' : Client} (h : Unturned c c') (h' : Unturned c' c'') : Unturned c c'' :=
  ⟨h'.requests.trans h.requests, h'.supply.trans h.supply⟩

theorem Unturned.upcoming {c c' : Client} (h : Unturned c c') (n : Nat) : c'.upcoming n = c.upcoming n := by
  rw [Client.upcoming, h.supply, Client.upcoming]

end Client
end Model

namespace Tool
namespace Registry

open Attempt (Keeps)
open Model (ToolCall)

/-- What calls come to that are run one after another. -/
def texts (r : Registry) (cs : List ToolCall) : Attempt World (List String) :=
  cs.mapM' fun c => r.dispatch c.name c.arguments

/-- The tools do not ask the model for turns. -/
def Quiet (r : Registry) : Prop := ∀ o ∈ r.offers, ∀ arguments (w : World),
  w.model.Unturned (o.execute arguments w).2.model

theorem answerTo_ends (name : String) (found : Option (Attempt World String)) (w : World) :
    ∃ text, answerTo name found w = (.ok text, found.elim w fun t => (t w).2) := by
  unfold answerTo
  cases found with
  | none => exact ⟨_, rfl⟩
  | some t =>
    simp only
    rw [Attempt.settle_bind_run]
    cases (t w).1 <;> exact ⟨_, rfl⟩

/-- There is always an answer to a call. -/
theorem dispatch_ok (r : Registry) (name arguments : Json) (w : World) :
    ∃ text w', r.dispatch name arguments w = (.ok text, w') := by
  obtain ⟨text, h⟩ := answerTo_ends (Json.shown name) ((r.find? name).map fun o => o.execute arguments) w
  exact ⟨text, _, h⟩

theorem Quiet.dispatch {r : Registry} (hr : r.Quiet) (name arguments : Json) (w : World) :
    w.model.Unturned (r.dispatch name arguments w).2.model := by
  obtain ⟨text, h⟩ := answerTo_ends (Json.shown name) ((r.find? name).map fun o => o.execute arguments) w
  rw [Registry.dispatch, h]
  cases hfind : r.find? name with
  | none => exact .refl _
  | some o => exact hr o (List.mem_of_find?_eq_some hfind) arguments w

theorem texts_cons {r : Registry} {c : ToolCall} {cs : List ToolCall} {text : String} {more : List String}
    {w w₁ w₂ : World} (h : r.dispatch c.name c.arguments w = (.ok text, w₁)) (hs : r.texts cs w₁ = (.ok more, w₂)) :
    r.texts (c :: cs) w = (.ok (text :: more), w₂) := by
  rw [texts, List.mapM'_cons, Attempt.bind_run_ok h]
  exact Attempt.bind_run_ok hs

theorem keeps_texts {R : World → World → Prop} [Std.Refl R] [Trans R R R] {r : Registry}
    (hr : ∀ name arguments, Keeps R (r.dispatch name arguments)) (cs : List ToolCall) : Keeps R (r.texts cs) := by
  unfold texts
  induction cs with
  | nil => exact .done []
  | cons c cs ih => exact (hr c.name c.arguments).bind fun _ => ih.bind fun _ => .done _

theorem Quiet.texts {r : Registry} (hr : r.Quiet) (cs : List ToolCall) {w w' : World} {more : List String}
    (h : r.texts cs w = (.ok more, w')) : w.model.Unturned w'.model := by
  induction cs generalizing w more with
  | nil =>
    cases h
    exact .refl _
  | cons c cs ih =>
    obtain ⟨text, w₁, hdispatch⟩ := r.dispatch_ok c.name c.arguments w
    have hfirst : w.model.Unturned w₁.model := by
      have := hr.dispatch c.name c.arguments w
      rwa [hdispatch] at this
    rw [Registry.texts, List.mapM'_cons, Attempt.bind_run_ok hdispatch, Attempt.bind_run] at h
    split at h
    · rename_i texts w₂ hlater
      cases h
      exact hfirst.trans (ih hlater)
    · cases h

end Registry
end Tool

namespace Agent

open Attempt (Keeps)
open Model (Entry Turn ToolCall)
open Tool (Registry)

/-! ## Calls -/

/-- A call that has been run, and the text that it came to. -/
structure Served where
  call : ToolCall
  text : String

namespace Served

def result (s : Served) : Result := ⟨s.call.id, s.call.name, s.text⟩

def entry (s : Served) : Entry := .result s.call.id s.text

def event (s : Served) : Chat.Event := .toolCall s.call.name s.call.arguments

/-- Its event goes out, then it starts to run, and then it has been run. -/
def happenings (s : Served) : List Happening := [.announced s.call, .launched s.call, .answered s.result]

theorem results_happenings (ss : List Served) :
    (ss.flatMap happenings).filterMap Happening.result? = ss.map result := by
  induction ss with
  | nil => rfl
  | cons s ss ih => exact congrArg (s.result :: ·) ih

theorem events_happenings (ss : List Served) : (ss.flatMap happenings).filterMap Happening.event? = ss.map event := by
  induction ss with
  | nil => rfl
  | cons s ss ih => exact congrArg (s.event :: ·) ih

end Served

namespace Progress

/-- How far a run is once further calls have been run. -/
def serve (p : Progress) (ss : List Served) : Progress :=
  { p with entries := p.entries ++ ss.map Served.entry, past := p.past ++ ss.flatMap Served.happenings }

theorem serve_nil (p : Progress) : p.serve [] = p := by simp [serve]

theorem serve_cons (p : Progress) (s : Served) (ss : List Served) :
    p.serve (s :: ss) = (((p.announce s.call).launch s.call).answer s.call s.text).serve ss := by
  simp [serve, announce, launch, answer, Served.entry, Served.happenings, Served.result]

end Progress

/-- The calls among `cs` that are still to be run when the ids `seen` were seen. -/
def unseen (seen : List Json) (cs : List ToolCall) : List ToolCall :=
  (cs.filter fun c => !seen.any (Json.sameKey c.id)).eraseDupsBy fun c d => Json.sameKey c.id d.id

theorem unseen_none (turn : Turn) : unseen [] turn.calls = turn.firstCalls :=
  congrArg _ (List.filter_eq_self.2 fun _ _ => rfl)

theorem unseen_of_seen {seen : List Json} {c : ToolCall} (h : seen.any (Json.sameKey c.id) = true) (cs : List ToolCall) :
    unseen seen (c :: cs) = unseen seen cs := by
  simp [unseen, h]

theorem unseen_of_new {seen : List Json} {c : ToolCall} (h : seen.any (Json.sameKey c.id) = false) (cs : List ToolCall) :
    unseen seen (c :: cs) = c :: unseen (c.id :: seen) cs := by
  unfold unseen
  rw [List.filter_cons_of_pos (by simpa using h), List.eraseDupsBy_cons, List.filter_filter]
  congr 3
  funext d
  simp [Bool.not_or]

/-- **The calls of a turn are run in order, each id once**, up to one that cannot be told apart. -/
theorem runCalls_ends (r : Registry) : ∀ (seen : List Json) (cs : List ToolCall) (p : Progress) (w : World),
    ∃ ss failure w', runCalls r seen cs p w = (.ok (p.serve ss, failure), w') ∧
      r.texts (ss.map (·.call)) w = (.ok (ss.map (·.text)), w') ∧
      (failure = none ∧ ss.map (·.call) = unseen seen cs ∨
        (∃ owner, failure = some (.notKey owner)) ∧ ∃ c ∈ cs, ¬(Json.isKey c.id = true ∧ Json.isKey c.name = true))
  | seen, [], p, w => ⟨[], none, w, by rw [runCalls, Progress.serve_nil]; rfl, rfl, .inl ⟨rfl, rfl⟩⟩
  | seen, c :: cs, p, w => by
    rw [runCalls]
    by_cases hid : Json.isKey c.id = true
    · rw [if_neg (by simp [hid])]
      by_cases hseen : seen.any (Json.sameKey c.id) = true
      · rw [if_pos hseen]
        obtain ⟨ss, failure, w', hrun, htexts, hend⟩ := runCalls_ends r seen cs p w
        refine ⟨ss, failure, w', hrun, htexts, ?_⟩
        rw [unseen_of_seen hseen]
        exact hend.imp_right fun ⟨hf, d, hd, hkey⟩ => ⟨hf, d, List.mem_cons_of_mem c hd, hkey⟩
      · rw [if_neg hseen]
        by_cases hname : Json.isKey c.name = true
        · rw [if_neg (by simp [hname])]
          obtain ⟨text, w₁, hdispatch⟩ := r.dispatch_ok c.name c.arguments w
          obtain ⟨ss, failure, w', hrun, htexts, hend⟩ :=
            runCalls_ends r (c.id :: seen) cs (((p.announce c).launch c).answer c text) w₁
          refine ⟨⟨c, text⟩ :: ss, failure, w', ?_, Registry.texts_cons hdispatch htexts, ?_⟩
          · rw [Progress.serve_cons]
            exact (Attempt.bind_run_ok hdispatch).trans hrun
          · rw [unseen_of_new (by simpa using hseen), List.map_cons]
            exact hend.imp (fun ⟨hf, hcalls⟩ => ⟨hf, by rw [hcalls]⟩)
              fun ⟨hf, d, hd, hkey⟩ => ⟨hf, d, List.mem_cons_of_mem c hd, hkey⟩
        · rw [if_pos (by simp [hname])]
          exact ⟨[], _, w, by rw [Progress.serve_nil]; rfl, rfl,
            .inr ⟨⟨_, rfl⟩, c, List.mem_cons_self, fun h => hname h.2⟩⟩
    · rw [if_pos (by simp [hid])]
      exact ⟨[], _, w, by rw [Progress.serve_nil]; rfl, rfl,
        .inr ⟨⟨_, rfl⟩, c, List.mem_cons_self, fun h => hid h.1⟩⟩

/-! ## Rounds -/

/-- A round that is over: a turn that asked for calls, and the calls that were run. -/
structure Round where
  turn : Turn
  served : List Served

/-- What a round adds to the conversation: the turn with all its calls, and the texts of the calls that were run. -/
def Round.entries (x : Round) : List Entry := .calls x.turn :: x.served.map Served.entry

/-- How far a run is after one more round. -/
def Progress.after (p : Progress) (x : Round) : Progress := (p.asked x.turn).serve x.served

/-- The first round is always due, and another one as long as there are rounds left. -/
def Due (maxRounds : Int) (p : Progress) : Prop := p.rounds = 0 ∨ p.rounds < maxRounds

def ask (r : Registry) (p : Progress) : Attempt World Turn := World.asking (Model.Client.turn (request r p))

/-- The rounds that lead from one place of a run to another. -/
inductive Goes (r : Registry) (maxRounds : Int) : Progress → World → List Round → Progress → World → Prop
  | rest (p : Progress) (w : World) : Goes r maxRounds p w [] p w
  | round {p p' : Progress} {w w₁ w₂ w' : World} {turn : Turn} {served : List Served} {xs : List Round}
    (due : Due maxRounds p)
    (asked : ask r p w = (.ok turn, w₁))
    (calls : turn.calls ≠ [])
    (first : served.map (·.call) = turn.firstCalls)
    (ran : r.texts turn.firstCalls w₁ = (.ok (served.map (·.text)), w₂))
    (later : Goes r maxRounds (p.after ⟨turn, served⟩) w₂ xs p' w') :
    Goes r maxRounds p w (⟨turn, served⟩ :: xs) p' w'

/-- How a run stops at a place where no round is begun, or one that does not end. -/
inductive Stops (r : Registry) (maxRounds : Int) (p : Progress) (w : World) : Progress → Ending → World → Prop
  | answered {turn : Turn} {w' : World} (due : Due maxRounds p) (asked : ask r p w = (.ok turn, w'))
    (final : turn.calls = []) : Stops r maxRounds p w { p with rounds := p.rounds + 1 } (.answered turn.content) w'
  | capped (begun : p.rounds ≠ 0) (used : maxRounds ≤ p.rounds) : Stops r maxRounds p w p .capped w
  | unserved {e : Failure} {w' : World} (due : Due maxRounds p) (asked : ask r p w = (.error e, w'))
    (service : Model.isServiceFailure e = true) : Stops r maxRounds p w p (.unserved e) w'
  | refused {e : Failure} {w' : World} (due : Due maxRounds p) (asked : ask r p w = (.error e, w'))
    (other : Model.isServiceFailure e = false) : Stops r maxRounds p w p (.broken e) w'
  /-- A call cannot be told apart, once others of the turn have been run. -/
  | choked {turn : Turn} {served : List Served} {owner : String} {w₁ w' : World} (due : Due maxRounds p)
    (asked : ask r p w = (.ok turn, w₁)) (unkeyed : ¬turn.Keyed)
    (ran : r.texts (served.map (·.call)) w₁ = (.ok (served.map (·.text)), w')) :
    Stops r maxRounds p w ((p.asked turn).serve served) (.broken (.notKey owner)) w'
  /-- There is one step, which is too few for a turn to be heeded. -/
  | overrun {turn : Turn} {w' : World} (due : Due maxRounds p) (asked : ask r p w = (.ok turn, w'))
    (first : p.rounds = 0) (few : maxRounds = -2) :
    Stops r maxRounds p w p (.broken (.tooManySteps (stepLimit maxRounds))) w'
  /-- There is no step at all. -/
  | unstarted (first : p.rounds = 0) (few : maxRounds < -2) : Stops r maxRounds p w p (.broken .noSteps) w

variable {r : Registry} {maxRounds : Int} {p p' : Progress} {w w' : World}

/-- **What one round comes to** where more than one step is left: the run stops, or the round is over. -/
theorem round_goes (r : Registry) (limit : Int) (due : Due maxRounds p) (w : World) :
    (∃ p' ending w', round r limit false p w = (.ok (p', some ending), w') ∧ Stops r maxRounds p w p' ending w') ∨
    ∃ x w', round r limit false p w = (.ok (p.after x, none), w') ∧ Goes r maxRounds p w [x] (p.after x) w' := by
  unfold round
  rw [Attempt.settle_bind_run]
  rcases hasked : ask r p w with ⟨e | turn, w₁⟩
  · -- the model breaks off
    have hask : World.asking (Model.Client.turn (request r p)) w = (.error e, w₁) := hasked
    rw [hask]
    left
    cases he : Model.isServiceFailure e with
    | true => exact ⟨p, _, w₁, by simp [he], .unserved due hasked he⟩
    | false => exact ⟨p, _, w₁, by simp [he], .refused due hasked he⟩
  · have hask : World.asking (Model.Client.turn (request r p)) w = (.ok turn, w₁) := hasked
    rw [hask]
    simp only [Bool.false_eq_true, if_false]
    by_cases hfinal : turn.calls = []
    · left
      exact ⟨_, _, w₁, by rw [hfinal]; rfl, .answered due hasked hfinal⟩
    · rw [if_neg (by simpa using hfinal)]
      obtain ⟨ss, failure, w', hrun, htexts, ⟨rfl, hcalls⟩ | ⟨⟨owner, rfl⟩, hkey⟩⟩ :=
        runCalls_ends r [] turn.calls (p.asked turn) w₁
      · right
        have hfirst : ss.map (·.call) = turn.firstCalls := hcalls.trans (unseen_none turn)
        rw [hfirst] at htexts
        exact ⟨⟨turn, ss⟩, w', Attempt.bind_run_ok hrun, .round due hasked hfinal hfirst htexts (.rest _ _)⟩
      · left
        obtain ⟨c, hc, hkey⟩ := hkey
        exact ⟨_, _, w', Attempt.bind_run_ok hrun, .choked due hasked (fun h => hkey (h c hc)) htexts⟩

theorem Goes.cons {x : Round} {w₁ : World} {xs : List Round} (h : Goes r maxRounds p w [x] (p.after x) w₁)
    (h' : Goes r maxRounds (p.after x) w₁ xs p' w') : Goes r maxRounds p w (x :: xs) p' w' := by
  cases h with
  | round due asked calls first ran later =>
    cases later
    exact .round due asked calls first ran h'

theorem Progress.after_rounds (p : Progress) (x : Round) : (p.after x).rounds = p.rounds + 1 := rfl

/-- **The loop goes through rounds and stops**, for any number of steps that the bound leaves to a round that is due. -/
theorem rounds_goes (r : Registry) (maxRounds : Int) : ∀ (steps : Nat) (p : Progress) (w : World),
    (steps : Int) + 2 * p.rounds = stepLimit maxRounds → 0 < steps → Due maxRounds p →
    ∃ xs p₁ w₁ p' ending w', rounds r maxRounds (stepLimit maxRounds) steps p w = (.ok (p', ending), w') ∧
      Goes r maxRounds p w xs p₁ w₁ ∧ Stops r maxRounds p₁ w₁ p' ending w'
  | 0, _, _, _, hpos, _ => absurd hpos (Nat.lt_irrefl 0)
  | 1, p, w, hsteps, _, due => by
    -- a single step is left only where no round is wanted and two more would have been one too many
    have hfew : p.rounds = 0 ∧ maxRounds = -2 := by
      unfold stepLimit Due at *
      omega
    rw [rounds]
    rcases hasked : ask r p w with ⟨e | turn, w₁⟩
    · have hask : World.asking (Model.Client.turn (request r p)) w = (.error e, w₁) := hasked
      cases he : Model.isServiceFailure e with
      | true =>
        exact ⟨[], p, w, p, .unserved e, w₁, by simp [round, Attempt.bind_run, hask, he], .rest p w,
          .unserved due hasked he⟩
      | false =>
        exact ⟨[], p, w, p, .broken e, w₁, by simp [round, Attempt.bind_run, hask, he], .rest p w,
          .refused due hasked he⟩
    · have hask : World.asking (Model.Client.turn (request r p)) w = (.ok turn, w₁) := hasked
      exact ⟨[], p, w, p, _, w₁, by simp [round, Attempt.bind_run, hask], .rest p w, .overrun due hasked hfew.1 hfew.2⟩
  | steps + 2, p, w, hsteps, _, due => by
    rw [rounds]
    obtain ⟨p', ending, w', hround, hstops⟩ | ⟨x, w₁, hround, hgoes⟩ := round_goes r (stepLimit maxRounds) due w
    · exact ⟨[], p, w, p', ending, w', Attempt.bind_run_ok hround, .rest p w, hstops⟩
    · have hx := p.after_rounds x
      have hleft : steps ≠ 0 := by
        unfold stepLimit at hsteps
        omega
      by_cases hmore : ((p.after x).rounds : Int) < maxRounds
      · have hsteps' : (steps : Int) + 2 * (p.after x).rounds = stepLimit maxRounds := by omega
        obtain ⟨xs, p₁, w₂, p', ending, w', hrun, hlater, hstops⟩ :=
          rounds_goes r maxRounds steps (p.after x) w₁ hsteps' (Nat.pos_of_ne_zero hleft) (.inr hmore)
        refine ⟨x :: xs, p₁, w₂, p', ending, w', ?_, hgoes.cons hlater, hstops⟩
        rw [Attempt.bind_run_ok hround]
        simp only
        rw [if_neg hleft, if_pos hmore, hrun]
      · refine ⟨[x], p.after x, w₁, p.after x, .capped, w₁, ?_, hgoes, .capped (by omega) (by omega)⟩
        rw [Attempt.bind_run_ok hround]
        simp only
        rw [if_neg hleft, if_neg hmore]
        rfl

/-- **Every run of the loop is rounds and then a stop.** -/
theorem loop_goes (r : Registry) (maxRounds : Int) (opening : List Entry) (w : World) :
    ∃ xs p₁ w₁ p ending w', loop r maxRounds opening w = (.ok (p, ending), w') ∧
      Goes r maxRounds (.start opening) w xs p₁ w₁ ∧ Stops r maxRounds p₁ w₁ p ending w' := by
  unfold loop
  split
  · rename_i hfew
    refine ⟨[], _, w, _, _, w, rfl, .rest _ w, .unstarted rfl ?_⟩
    unfold stepLimit at hfew
    omega
  · rename_i hsteps
    refine rounds_goes r maxRounds _ _ w ?_ ?_ (.inl rfl)
    · change ((stepLimit maxRounds).toNat : Int) + 2 * ((0 : Nat) : Int) = stepLimit maxRounds
      omega
    · omega

theorem runWith_of_loop {opening : List Entry} {ending : Ending} (h : loop r maxRounds opening w = (.ok (p, ending), w')) :
    runWith r maxRounds opening w = (.ok (outcome p ending), w') := Attempt.bind_run_ok h

section

variable {R : World → World → Prop} [Std.Refl R] [Trans R R R] {xs : List Round} {ending : Ending}

theorem Goes.keeps (hr : ∀ name arguments, Keeps R (r.dispatch name arguments)) (hask : ∀ p, Keeps R (ask r p))
    (h : Goes r maxRounds p w xs p' w') : R w w' := by
  induction h with
  | rest p w => exact Std.Refl.refl w
  | round due asked calls first ran later ih =>
    exact Trans.trans (Trans.trans ((hask _).run asked) ((Registry.keeps_texts hr _).run ran)) ih

theorem Stops.keeps (hr : ∀ name arguments, Keeps R (r.dispatch name arguments)) (hask : ∀ p, Keeps R (ask r p))
    (h : Stops r maxRounds p w p' ending w') : R w w' := by
  cases h with
  | answered _ asked | unserved _ asked | refused _ asked | overrun _ asked => exact (hask _).run asked
  | choked _ asked _ ran => exact Trans.trans ((hask _).run asked) ((Registry.keeps_texts hr _).run ran)
  | capped | unstarted => exact Std.Refl.refl _

/-- **What asking the model and running a tool keep, the agent keeps.** -/
theorem keeps_runWith (hr : ∀ name arguments, Keeps R (r.dispatch name arguments)) (hask : ∀ p, Keeps R (ask r p))
    (maxRounds : Int) (opening : List Entry) : Keeps R (runWith r maxRounds opening) := fun w => by
  obtain ⟨xs, p₁, w₁, p, ending, w', hrun, hgoes, hstops⟩ := loop_goes r maxRounds opening w
  rw [runWith_of_loop hrun]
  exact Trans.trans (hgoes.keeps hr hask) (hstops.keeps hr hask)

end

/-! ## What rounds come to -/

namespace Goes

variable {xs : List Round}

theorem rounds_eq (h : Goes r maxRounds p w xs p' w') : p'.rounds = p.rounds + xs.length := by
  induction h with
  | rest => rfl
  | round due asked calls first ran later ih =>
    rw [ih, Progress.after_rounds, List.length_cons]
    omega

theorem rounds_start {opening : List Entry} (h : Goes r maxRounds (.start opening) w xs p' w') :
    p'.rounds = xs.length := by
  rw [h.rounds_eq]
  exact Nat.zero_add _

/-- No more rounds are gone through than are allowed, and one. -/
theorem rounds_le (h : Goes r maxRounds p w xs p' w') (hp : (p.rounds : Int) ≤ max maxRounds 1) :
    (p'.rounds : Int) ≤ max maxRounds 1 := by
  induction h with
  | rest => exact hp
  | round due asked calls first ran later ih =>
    refine ih ?_
    rw [Progress.after_rounds]
    unfold Due at due
    omega

theorem entries_eq (h : Goes r maxRounds p w xs p' w') : p'.entries = p.entries ++ xs.flatMap Round.entries := by
  induction h with
  | rest => simp
  | round due asked calls first ran later ih =>
    rw [ih, List.flatMap_cons]
    simp [Progress.after, Progress.asked, Progress.serve, Round.entries]

theorem past_eq (h : Goes r maxRounds p w xs p' w') :
    p'.past = p.past ++ (xs.flatMap Round.served).flatMap Served.happenings := by
  induction h with
  | rest => simp
  | round due asked calls first ran later ih =>
    rw [ih, List.flatMap_cons, List.flatMap_append]
    simp [Progress.after, Progress.asked, Progress.serve]

end Goes

theorem requests_of_ask {x : Except Failure Turn} (h : ask r p w = (x, w')) :
    w'.model.requests = w.model.requests ++ [request r p] := by
  cases h
  rfl

theorem upcoming_of_ask {x : Except Failure Turn} (h : ask r p w = (x, w')) :
    w.model.upcoming 0 = x ∧ ∀ n, w'.model.upcoming n = w.model.upcoming (n + 1) := by
  cases h
  exact ⟨rfl, fun _ => rfl⟩

/-- The conversations that rounds are begun with, and the one that they lead to: each is the one before, and what its round
added. -/
def conversations (opening : List Entry) (xs : List Round) : List (List Entry) :=
  xs.scanl (fun es x => es ++ x.entries) opening

/-- The requests for the conversations of a run. -/
def shown (r : Registry) (conversations : List (List Entry)) : List Model.Request :=
  conversations.map fun entries => ⟨entries, r.names⟩

namespace Goes

variable {xs : List Round}

/-- **The model is shown the conversation that each round begins with**, and nothing else. -/
theorem requests (hr : r.Quiet) (h : Goes r maxRounds p w xs p' w') : ∃ begun,
    conversations p.entries xs = begun ++ [p'.entries] ∧ begun.length = xs.length ∧
      w'.model.requests = w.model.requests ++ shown r begun := by
  induction h with
  | rest p w => exact ⟨[], rfl, rfl, by simp [shown]⟩
  | @round p p' w w₁ w₂ w' turn served xs due asked calls first ran later ih =>
    obtain ⟨begun, hbegun, hlength, hrequests⟩ := ih
    have hentries : (p.after ⟨turn, served⟩).entries = p.entries ++ Round.entries ⟨turn, served⟩ := by
      simp [Progress.after, Progress.asked, Progress.serve, Round.entries]
    refine ⟨p.entries :: begun, ?_, by simp [hlength], ?_⟩
    · rw [conversations, List.scanl_cons, List.cons_append, ← hentries]
      exact congrArg _ hbegun
    · rw [hrequests, (hr.texts _ ran).requests, requests_of_ask asked]
      simp [shown, request]

/-- **The turns of the rounds are the replies in order**, and the replies that follow are still to come. -/
theorem upcoming (hr : r.Quiet) (h : Goes r maxRounds p w xs p' w') :
    (∀ i x, xs[i]? = some x → w.model.upcoming i = .ok x.turn) ∧
      ∀ n, w'.model.upcoming n = w.model.upcoming (xs.length + n) := by
  induction h with
  | rest p w => exact ⟨fun i x hx => by simp at hx, fun n => by simp⟩
  | @round p p' w w₁ w₂ w' turn served xs due asked calls first ran later ih =>
    obtain ⟨hturns, hlater⟩ := ih
    obtain ⟨hfirst, hnext⟩ := upcoming_of_ask asked
    have hshift (n : Nat) : w₂.model.upcoming n = w.model.upcoming (n + 1) :=
      ((hr.texts _ ran).upcoming n).trans (hnext n)
    refine ⟨fun i x hx => ?_, fun n => ?_⟩
    · cases i with
      | zero =>
        cases hx
        exact hfirst
      | succ i => exact (hshift i).symm.trans (hturns i x hx)
    · rw [hlater n, hshift, List.length_cons]
      congr 1
      omega

theorem calls (h : Goes r maxRounds p w xs p' w') : ∀ x ∈ xs, x.turn.calls ≠ [] := by
  induction h with
  | rest => exact List.forall_mem_nil _
  | round due asked calls first ran later ih => exact List.forall_mem_cons.2 ⟨calls, ih⟩

end Goes

end Agent
end NoteAgent
