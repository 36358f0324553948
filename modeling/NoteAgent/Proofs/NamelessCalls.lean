import NoteAgent.Proofs.AgentTranscript
import NoteAgent.Proofs.ReplyMembers
/-!
# NamelessCalls — calls to which the model gives no id

An id that is missing or null is read as the empty text (`Reads`), and of the calls of a turn each id is run once, the empty
one too.  So each call is run that should be, those without an id and of each other id the first, just as long as there is
but one call without an id; of several only the first is run (`wanted_run_iff`, `nameless_call_is_lost`).
-/
namespace NoteAgent
namespace Model

/-! ## Calls as they are read -/

def HasFunction (call : Json) : Prop := ∃ function, call.field? "function" = some function ∧ function ≠ .null

/-- The id is missing, null or empty. -/
def LacksId (call : Json) : Prop := ∀ id, call.field? "id" = some id → id = .null ∨ id = .text ""

/-- A call that could be run, and has no id. -/
def Nameless (call : Json) : Prop := HasFunction call ∧ LacksId call

/-- What a call with a function is read as: its id is the text that is given, or the empty one. -/
structure Reads (call : Json) (c : ToolCall) : Prop where
  function : HasFunction call
  lacking : LacksId call → c.id = .text ""
  given : ¬LacksId call → call.field? "id" = some c.id ∧ c.id ≠ .text ""

/-- The calls that have a function are read in their order, and the others are passed over. -/
inductive Picks : List Json → List ToolCall → Prop
  | nil : Picks [] []
  | passed {call : Json} {calls : List Json} {cs : List ToolCall} (none : ¬HasFunction call) (rest : Picks calls cs) :
    Picks (call :: calls) cs
  | read {call : Json} {c : ToolCall} {calls : List Json} {cs : List ToolCall} (reads : Reads call c)
    (rest : Picks calls cs) : Picks (call :: calls) (c :: cs)

theorem Reads.id_iff {call : Json} {c : ToolCall} (h : Reads call c) : c.id = .text "" ↔ LacksId call :=
  ⟨fun hid => Classical.byContradiction fun hgiven => (h.given hgiven).2 hid, h.lacking⟩

theorem not_lacksId {call : Json} {s : String} (h : call.field? "id" = some (.text s)) (hs : s ≠ "") : ¬LacksId call :=
  fun hlacks => by
    obtain hnull | hempty := hlacks _ h
    · cases hnull
    · exact hs (Json.Value.text.inj hempty)

/-- The id of a call that is read. -/
theorem memberOrEmpty_id {call : Json} (h : May IsText call "id") :
    (LacksId call → memberOrEmpty call "id" = .text "") ∧
    (¬LacksId call → call.field? "id" = some (memberOrEmpty call "id") ∧ memberOrEmpty call "id" ≠ .text "") := by
  unfold memberOrEmpty
  cases hf : call.field? "id" with
  | none =>
    rw [given?_of_none hf]
    exact ⟨fun _ => rfl, fun hgiven => absurd (fun id hid => by cases hf.symm.trans hid) hgiven⟩
  | some id =>
    obtain rfl | ⟨s, rfl⟩ := h id hf
    · rw [given?_of_void hf rfl]
      exact ⟨fun _ => rfl, fun hgiven => absurd (fun id hid => .inl (Option.some.inj (hid.symm.trans hf))) hgiven⟩
    · by_cases hs : s = ""
      · subst hs
        rw [given?_of_void hf rfl]
        exact ⟨fun _ => rfl, fun hgiven => absurd (fun id hid => .inr (Option.some.inj (hid.symm.trans hf))) hgiven⟩
      · have hsome : isVoid (.text s) = false := by simpa [isVoid, Json.Value.isNothing] using hs
        rw [given?_of_some hf hsome]
        exact ⟨fun hlacks => absurd hlacks (not_lacksId hf hs), fun _ => ⟨rfl, fun he => hs (Json.Value.text.inj he)⟩⟩

theorem readCall_picks {call : Json} {found : Option ToolCall} (h : call = .null ∨ CallLike call)
    (hread : readCall call = .ok found) : found = none ∧ ¬HasFunction call ∨ ∃ c, found = some c ∧ Reads call c := by
  have hpassed (hvoid : given? call "function" = none) (hnone : ¬HasFunction call) : found = none ∧ ¬HasFunction call := by
    rw [readCall_of_void hvoid] at hread
    exact ⟨(Except.ok.inj hread).symm, hnone⟩
  cases hf : call.field? "function" with
  | none => exact .inl (hpassed (given?_of_none hf) fun ⟨f, hfound, _⟩ => by cases hf.symm.trans hfound)
  | some function =>
    have hcall : CallLike call := h.resolve_left fun hnull => by rw [hnull] at hf; cases hf
    obtain rfl | hfunction := hcall.function function hf
    · exact .inl (hpassed (given?_of_void hf rfl) fun ⟨f, hfound, hne⟩ => hne (Option.some.inj (hfound.symm.trans hf)))
    · obtain ⟨fields, rfl⟩ := hfunction.object
      obtain ⟨hlacking, hgiven⟩ := memberOrEmpty_id hcall.id
      rw [readCall_of_function (given?_of_some hf rfl)] at hread
      cases hname : need (.record fields) "name" <;> rw [hname] at hread
      · cases hread
      · cases harguments : need (.record fields) "arguments" <;> rw [harguments] at hread <;> cases hread
        exact .inr ⟨_, rfl, ⟨_, hf, fun hnull => by cases hnull⟩, hlacking, hgiven⟩

theorem readCalls_picks : ∀ {calls : List Json} {cs : List ToolCall}, (∀ call ∈ calls, call = .null ∨ CallLike call) →
    readCalls calls = .ok cs → Picks calls cs
  | [], _, _, hread => by
    cases hread
    exact .nil
  | call :: calls, cs, h, hread => by
    obtain ⟨hcall, hcalls⟩ := List.forall_mem_cons.1 h
    rw [readCalls] at hread
    cases hfound : readCall call <;> rw [hfound] at hread
    · cases hread
    · cases hrest : readCalls calls <;> rw [hrest] at hread <;> cases hread
      have hpicks := readCalls_picks hcalls hrest
      obtain ⟨rfl, hnone⟩ | ⟨c, rfl, hreads⟩ := readCall_picks hcall hfound
      · exact .passed hnone hpicks
      · exact .read hreads hpicks

namespace Picks

variable {calls : List Json} {cs : List ToolCall}

/-- A call without an id is read just where a nameless one is given. -/
theorem exists_nameless (h : Picks calls cs) : (∃ c ∈ cs, c.id = .text "") ↔ ∃ call ∈ calls, Nameless call := by
  induction h with
  | nil => simp
  | passed hnone _ ih => rw [ih, List.exists_mem_cons_iff, or_iff_right fun hcall => hnone hcall.1]
  | read reads _ ih =>
    rw [List.exists_mem_cons_iff, ih, List.exists_mem_cons_iff, reads.id_iff, Nameless, and_iff_right reads.function]

theorem pairwise_nameless (h : Picks calls cs) : (cs.Pairwise fun c d => ¬(c.id = .text "" ∧ d.id = .text "")) ↔
    calls.Pairwise fun a b => ¬(Nameless a ∧ Nameless b) := by
  induction h with
  | nil => simp
  | passed hnone _ ih =>
    rw [ih, List.pairwise_cons, and_iff_right fun _ _ hboth => hnone hboth.1.1]
  | @read call c calls cs reads rest ih =>
    have hlater : (∀ d ∈ cs, ¬(c.id = .text "" ∧ d.id = .text "")) ↔ ∀ b ∈ calls, ¬(Nameless call ∧ Nameless b) := by
      have hexists := rest.exists_nameless
      have hfirst : c.id = .text "" ↔ Nameless call := by rw [reads.id_iff, Nameless, and_iff_right reads.function]
      rw [hfirst]
      by_cases hn : Nameless call
      · simp only [hn, true_and]
        simpa using not_congr hexists
      · simp [hn]
    rw [List.pairwise_cons, List.pairwise_cons, hlater, ih]

end Picks

/-! ## Replies -/

theorem calls_of_turnOf {message : Json} {t : Turn} (h : turnOf message = .ok t) : callsOf message = .ok t.calls := by
  unfold turnOf at h
  cases hcalls : callsOf message with
  | error e =>
    rw [hcalls] at h
    cases h
  | ok cs =>
    rw [hcalls] at h
    cases cs with
    | cons c cs =>
      cases h
      rfl
    | nil =>
      cases hcontent : measured (memberOrEmpty message "content") <;>
        simp only [bind, Except.bind, hcontent] at h <;> cases h
      rfl

/-- **The calls of a turn are those of its reply that have a function**, each with the id that is given or the empty one. -/
theorem turn_picks {v message : Json} {calls : List Json} {t : Turn} (hv : ReplyLike v) (hsaying : Says v message)
    (hcalls : message.field? "tool_calls" = some (.list calls)) (hturn : (Reply.answer v).turn = .ok t) :
    Picks calls t.calls ∧ t.Texts := by
  have htexts : t.Texts := by
    have hreading := (turn_reads hv).1
    rw [hturn] at hreading
    cases hreading with
    | read htexts => exact htexts
  refine ⟨?_, htexts⟩
  obtain ⟨hnone, -⟩ | ⟨hlacks, -⟩ | ⟨m, hsaid, hmessage, hread⟩ := message_reads hv
  · obtain ⟨c, hc, -⟩ := hsaying
    exact absurd hc (hnone.not_offers c)
  · exact absurd hlacks hsaying.not_lacksMessage
  · obtain rfl := hsaid.eq hsaying
    rw [turn_of_message hread] at hturn
    have hmessageLike : MessageLike m := hmessage.resolve_left fun hnull => by rw [hnull] at hcalls; cases hcalls
    have hitems : ∀ call ∈ calls, call = .null ∨ CallLike call := by
      obtain hnull | ⟨items, hlist, hitems⟩ := hmessageLike.calls _ hcalls
      · cases hnull
      · cases hlist
        exact hitems
    exact readCalls_picks hitems ((callsOf_of_list hcalls).symm.trans (calls_of_turnOf hturn))

end Model

namespace Agent

open Model (ToolCall Turn Picks Nameless ReplyLike Says Reply)
open Tool (Registry)

/-- The calls that should be run, after calls with the ids `before`: those without an id, and those whose id is none of
these. -/
def wanted : List Json → List ToolCall → List ToolCall
  | _, [] => []
  | before, c :: cs =>
    if Model.isVoid c.id || !before.any (Json.sameKey c.id) then c :: wanted (c.id :: before) cs
    else wanted (c.id :: before) cs

/-- Two lists hold the same texts. -/
def SameTexts (seen before : List Json) : Prop :=
  ∀ s : String, seen.any (Json.sameKey (.text s)) = before.any (Json.sameKey (.text s))

theorem SameTexts.cons {seen before : List Json} (h : SameTexts seen before) (id : Json) :
    SameTexts (id :: seen) (id :: before) := fun s => by rw [List.any_cons, List.any_cons, h s]

theorem SameTexts.cons_right {seen before : List Json} (h : SameTexts seen before) {s : String}
    (hs : seen.any (Json.sameKey (.text s)) = true) : SameTexts seen (.text s :: before) := fun s' => by
  rw [List.any_cons, ← h s', Json.sameKey_text]
  by_cases hsame : s' = s
  · rw [hsame, hs, Bool.or_true]
  · rw [beq_eq_false_iff_ne.2 hsame, Bool.false_or]

theorem isVoid_text (s : String) : Model.isVoid (.text s) = s.isEmpty := rfl

/-- Those that are run are some of those that should be. -/
theorem unseen_sublist_wanted : ∀ (cs : List ToolCall) {seen before : List Json}, (∀ c ∈ cs, Model.IsText c.id) →
    SameTexts seen before → (unseen seen cs).Sublist (wanted before cs)
  | [], _, _, _, _ => .slnil
  | c :: cs, seen, before, htexts, hsame => by
    obtain ⟨⟨s, hs⟩, hcs⟩ := List.forall_mem_cons.1 htexts
    rw [wanted]
    by_cases hseen : seen.any (Json.sameKey c.id) = true
    · rw [unseen_of_seen hseen]
      have hrest : (unseen seen cs).Sublist (wanted (c.id :: before) cs) := by
        rw [hs] at hseen ⊢
        exact unseen_sublist_wanted cs hcs (hsame.cons_right hseen)
      split
      · exact hrest.cons _
      · exact hrest
    · rw [Bool.not_eq_true] at hseen
      have hbefore : before.any (Json.sameKey c.id) = false := by
        rw [hs] at hseen ⊢
        rw [← hsame s, hseen]
      rw [unseen_of_new hseen, hbefore, if_pos (by simp)]
      exact (unseen_sublist_wanted cs hcs (hsame.cons c.id)).cons_cons c

/-- All are run that should be just as long as no call without an id comes after another one. -/
theorem unseen_eq_wanted_iff : ∀ (cs : List ToolCall) {seen before : List Json}, (∀ c ∈ cs, Model.IsText c.id) →
    SameTexts seen before → (unseen seen cs = wanted before cs ↔
      (cs.Pairwise fun c d => ¬(c.id = .text "" ∧ d.id = .text "")) ∧
        (seen.any (Json.sameKey (.text "")) = true → ∀ c ∈ cs, c.id ≠ .text ""))
  | [], _, _, _, _ => by simp [unseen, wanted]
  | c :: cs, seen, before, htexts, hsame => by
    obtain ⟨⟨s, hs⟩, hcs⟩ := List.forall_mem_cons.1 htexts
    have hvoid : Model.isVoid c.id = s.isEmpty := by rw [hs, isVoid_text]
    have hid : c.id = .text "" ↔ s = "" := by rw [hs, Json.Value.text.injEq]
    have hbefore : before.any (Json.sameKey c.id) = seen.any (Json.sameKey c.id) := by rw [hs, hsame s]
    rw [List.pairwise_cons, List.forall_mem_cons, wanted, hvoid, hbefore]
    by_cases hseen : seen.any (Json.sameKey c.id) = true
    · have hsame' : SameTexts seen (c.id :: before) := by
        rw [hs] at hseen ⊢
        exact hsame.cons_right hseen
      rw [unseen_of_seen hseen, hseen]
      by_cases hempty : s = ""
      · -- a call without an id comes after another one, and is not run
        rw [if_pos (by simp [hempty])]
        refine ⟨fun heq => ?_, fun h => absurd (hid.2 hempty) (h.2 ?_).1⟩
        · have hle := (unseen_sublist_wanted cs hcs hsame').length_le
          rw [heq, List.length_cons] at hle
          omega
        · rw [← hid.2 hempty]
          exact hseen
      · rw [if_neg (by simp [hempty]), unseen_eq_wanted_iff cs hcs hsame']
        simp [hid, hempty]
    · rw [Bool.not_eq_true] at hseen
      rw [unseen_of_new hseen, hseen, if_pos (by simp), List.cons.injEq, and_iff_right rfl,
        unseen_eq_wanted_iff cs hcs (hsame.cons c.id), List.any_cons]
      by_cases hempty : s = ""
      · -- from here on no other call without an id is run
        rw [hid.2 hempty] at hseen ⊢
        simp only [Json.sameKey_text, beq_self_eq_true, Bool.true_or, forall_const, hseen, true_and,
          Bool.false_eq_true, false_implies, and_true]
        exact and_comm
      · have hne : Json.sameKey (.text "") c.id = false := by
          rw [hs, Json.sameKey_text]
          exact beq_eq_false_iff_ne.2 (Ne.symm hempty)
        simp [hid, hempty, hne]

/-- **Each call that should be run is run once, just as long as there are not two calls without an id.**  Of a reply with any
number of calls, ids being texts, null or missing: those with a function make up the turn, and running its calls runs
those without an id and of each other id the first, if and only if of the calls with a function no two have no id. -/
theorem wanted_run_iff {v message : Json} {calls : List Json} {t : Turn} (hv : ReplyLike v) (hsaid : Says v message)
    (hcalls : message.field? "tool_calls" = some (.list calls)) (hturn : (Reply.answer v).turn = .ok t)
    (r : Registry) (p : Progress) (w : World) :
    Picks calls t.calls ∧ ∃ served w', runCalls r [] t.calls p w = (.ok (p.serve served, none), w') ∧
      (served.map (·.call) = wanted [] t.calls ↔ calls.Pairwise fun a b => ¬(Nameless a ∧ Nameless b)) := by
  obtain ⟨hpicks, htexts⟩ := Model.turn_picks hv hsaid hcalls hturn
  have hids : ∀ c ∈ t.calls, Model.IsText c.id := fun c hc => (htexts.2 c hc).1
  obtain ⟨served, failure, w', hrun, -, ⟨rfl, hserved⟩ | ⟨-, c, hc, hkey⟩⟩ := runCalls_ends r [] t.calls p w
  · refine ⟨hpicks, served, w', hrun, ?_⟩
    rw [hserved, unseen_eq_wanted_iff t.calls hids fun _ => rfl, ← hpicks.pairwise_nameless]
    exact and_iff_left fun h => by cases h
  · obtain ⟨⟨id, hid⟩, ⟨name, hname⟩, -⟩ := htexts.2 c hc
    exact absurd ⟨by rw [hid]; rfl, by rw [hname]; rfl⟩ hkey

/-! ### Two replies -/

/-- A call of the tool that says what it was told. -/
def echoCall (id : Json) (arguments : String) : Json :=
  .record [("id", id), ("function", .record [("name", .text "echo"), ("arguments", .text arguments)])]

/-- A message with these calls, each the id and the arguments of one. -/
def echoMessage (calls : List (Json × String)) : Json :=
  .record [("content", .null), ("tool_calls", .list (calls.map fun c => echoCall c.1 c.2))]

theorem replyLike_echo {calls : List (Json × String)} (h : ∀ c ∈ calls, c.1 = .null ∨ Model.IsText c.1) :
    ReplyLike (Model.withMessage (echoMessage calls)) := by
  refine Model.replyLike_withMessage (.inr ⟨⟨_, rfl⟩, .of_field rfl (.inl rfl), .of_field rfl (.inr ⟨_, rfl, ?_⟩)⟩)
  intro call hcall
  obtain ⟨c, hc, rfl⟩ := List.mem_map.1 hcall
  refine .inr ⟨⟨_, rfl⟩, .of_field rfl (h c hc), .of_field rfl (.inr ⟨⟨_, rfl⟩, ?_, ?_⟩)⟩
  · exact .of_field rfl (.inr ⟨_, rfl⟩)
  · exact .of_field rfl (.inr ⟨_, rfl⟩)

theorem says_echo (calls : List (Json × String)) : Says (Model.withMessage (echoMessage calls)) (echoMessage calls) :=
  ⟨_, ⟨_, rfl⟩, rfl⟩

/-- A call without an id among two of one id. -/
def oneNameless : List (Json × String) := [(.text "a", "one"), (.null, "two"), (.text "a", "three")]

theorem wanted_run_iff_oneNameless :
    ReplyLike (Model.withMessage (echoMessage oneNameless)) ∧
    ∃ t, (Reply.answer (Model.withMessage (echoMessage oneNameless))).turn = .ok t ∧
      ∃ served w', runCalls echo [] t.calls (.start []) threeCalls = (.ok (.serve (.start []) served, none), w') ∧
        served.map (·.call) =
          [⟨.text "a", .text "echo", .text "one"⟩, ⟨.text "", .text "echo", .text "two"⟩] := by
  have hreply : ReplyLike (Model.withMessage (echoMessage oneNameless)) := replyLike_echo fun c hc => by
    simp only [oneNameless, List.mem_cons, List.not_mem_nil, or_false] at hc
    obtain rfl | rfl | rfl := hc
    · exact .inr ⟨_, rfl⟩
    · exact .inl rfl
    · exact .inr ⟨_, rfl⟩
  have hgiven (arguments : String) : ¬Nameless (echoCall (.text "a") arguments) := fun h =>
    Model.not_lacksId rfl (by decide) h.2
  have hpairwise : (oneNameless.map fun c => echoCall c.1 c.2).Pairwise fun a b => ¬(Nameless a ∧ Nameless b) := by
    refine .cons (fun _ _ h => hgiven _ h.1) (.cons (fun b hb h => ?_) (.cons (fun _ hb => by cases hb) .nil))
    rw [List.mem_singleton.1 hb] at h
    exact hgiven _ h.2
  obtain ⟨-, served, w', hrun, hall⟩ :=
    wanted_run_iff hreply (says_echo oneNameless) rfl rfl echo (.start []) threeCalls
  exact ⟨hreply, _, rfl, served, w', hrun, hall.2 hpairwise⟩

/-- **A call without an id is lost** that comes after another one: of two such calls, which should both be run, only the
first is. -/
theorem nameless_call_is_lost :
    ReplyLike (Model.withMessage (echoMessage [(.null, "one"), (.null, "two")])) ∧
    ∃ t, (Reply.answer (Model.withMessage (echoMessage [(.null, "one"), (.null, "two")]))).turn = .ok t ∧
      wanted [] t.calls = [⟨.text "", .text "echo", .text "one"⟩, ⟨.text "", .text "echo", .text "two"⟩] ∧
      ∃ served w', runCalls echo [] t.calls (.start []) threeCalls = (.ok (.serve (.start []) served, none), w') ∧
        served.map (·.call) = [⟨.text "", .text "echo", .text "one"⟩] := by
  refine ⟨replyLike_echo ?_, _, rfl, rfl, [⟨⟨.text "", .text "echo", .text "one"⟩, "one"⟩], threeCalls, rfl, rfl⟩
  intro c hc
  simp only [List.mem_cons, List.not_mem_nil, or_false] at hc
  obtain rfl | rfl := hc <;> exact .inl rfl

end Agent
end NoteAgent
