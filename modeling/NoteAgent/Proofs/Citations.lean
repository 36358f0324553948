import NoteAgent.Proofs.TitleSteps
import NoteAgent.Proofs.TurnRecord
/-!
# Citations — what naming sources can do to a turn

A search that breaks off comes to no sources, and so do hits that cannot be read, whatever members they have or lack.  The
events are made after that: a hit whose content has no beginning that could be shown breaks the turn off there (`Spoilt`),
and it ends with an error and leaves the session as it is.  No other answer of the index does any harm (`unharmed_iff`).
-/
namespace NoteAgent
namespace Chat

open Attempt (Ends Keeps)
open Tool (Caller)

/-- The tables with a new time of change for the session with a uid. -/
def Table.touched (t : Table) (uid : String) (now : Int) : Table :=
  { t with sessions := t.sessions.map fun s => if s.uid == uid then { s with updated := now } else s }

namespace Turn

/-! ## The events of hits -/

/-- Content of which a beginning can be shown. -/
inductive Quotable : Json → Prop
  | text (s : String) : Quotable (.text s)
  | list (vs : List Json) : Quotable (.list vs)

theorem snippet_iff {content : Json} : (∃ v, snippet content = .ok v) ↔ Quotable content := by
  constructor
  · rintro ⟨v, h⟩
    cases content
    case text s => exact .text s
    case list vs => exact .list vs
    all_goals cases h
  · rintro (s | vs) <;> exact ⟨_, rfl⟩

theorem sourceOf_iff {h : Vector.Hit} : (∃ e, sourceOf h = .ok e) ↔ Quotable h.content := by
  rw [← snippet_iff]
  unfold sourceOf
  cases snippet h.content with
  | error e => exact ⟨fun ⟨_, he⟩ => (by cases he), fun ⟨_, he⟩ => (by cases he)⟩
  | ok v => exact ⟨fun _ => ⟨v, rfl⟩, fun _ => ⟨_, rfl⟩⟩

/-! ## Naming sources -/

/-- What the index finds for a message. -/
def lookUp (who : Caller) (text : LooseText) : Attempt World (List Vector.Hit) :=
  World.indexed (Vector.Index.search who.user (Json.nearestText text) sourceCount none)

/-- The index finds hits for the message, and of one of them no beginning can be shown. -/
def Spoilt (who : Caller) (text : LooseText) (w : World) : Prop :=
  who.indexed = true ∧ ∃ hits, (lookUp who text w).1 = .ok hits ∧ ∃ h ∈ hits, ¬Quotable h.content

variable {who : Caller} {text : LooseText} {w w' : World}

theorem sources_unindexed (h : who.indexed = false) : sources who text w = (.ok [], w) := by
  unfold sources
  rw [h]
  rfl

theorem sources_indexed (h : who.indexed = true) : sources who text w =
    (match (lookUp who text w).1 with
      | .error _ => .ok []
      | .ok hits => hits.mapM sourceOf, (lookUp who text w).2) := by
  unfold sources
  rw [h]
  change (Attempt.settle (lookUp who text) >>= _) w = _
  rw [Attempt.settle_bind_run]
  cases (lookUp who text w).1 <;> rfl

/-- **Naming sources breaks off just if a hit is found of which no beginning can be shown.** -/
theorem sources_fails_iff : (∃ e, (sources who text w).1 = .error e) ↔ Spoilt who text w := by
  cases hindexed : who.indexed with
  | false =>
    rw [sources_unindexed hindexed, Spoilt, hindexed]
    exact ⟨fun ⟨_, he⟩ => (by cases he), fun h => (by cases h.1)⟩
  | true =>
    rw [sources_indexed hindexed, Spoilt, hindexed]
    cases (lookUp who text w).1 with
    | error e => exact ⟨fun ⟨_, he⟩ => (by cases he), fun ⟨_, _, hhits, _⟩ => (by cases hhits)⟩
    | ok hits =>
      have hall := exists_mapM_iff sourceOf hits
      simp only [sourceOf_iff] at hall
      constructor
      · rintro ⟨e, he⟩
        refine ⟨rfl, hits, rfl, ?_⟩
        by_contra hnone
        obtain ⟨es, hes⟩ := hall.2 fun h hh => by_contra fun hquotable => hnone ⟨h, hh, hquotable⟩
        cases he.symm.trans hes
      · rintro ⟨-, _, hhits, h, hh, hquotable⟩
        cases hhits
        cases hes : hits.mapM sourceOf with
        | error e => exact ⟨e, hes⟩
        | ok es => exact absurd (hall.1 ⟨es, hes⟩ h hh) hquotable

theorem aside_sources (who : Caller) (text : LooseText) : Keeps World.Aside (sources who text) :=
  keeps_sources World.aside_indexed who text

/-! ## The turn up to its sources -/

/-- The part of a turn between the agent and the sources: storing what came of it. -/
def storing (settings : Settings) (s : Session) (o : Agent.Outcome) : Attempt World Unit :=
  (if settings.keepsResults then keepResults s.id o.results else .done ()) >>= fun _ =>
    if o.text.isEmpty then .done () else (World.addMessage s.id assistantRole o.text "").ignore

theorem keepResults_run (session : Int) (rs : List Agent.Result) (w : World) : (keepResults session rs w).1 = .ok () := by
  induction rs generalizing w with
  | nil => rfl
  | cons r rs ih => exact ih _

/-- Storing does not break off, so the end of a turn is what comes after it. -/
theorem conclude_run (settings : Settings) (who : Caller) (s : Session) (text : LooseText) (o : Agent.Outcome) (w : World) :
    conclude settings who s text o w = closing who s text (storing settings s o w).2 := by
  have hresults : ∃ w₁, (if settings.keepsResults then keepResults s.id o.results else .done ()) w = (.ok (), w₁) := by
    split
    · exact ⟨_, Prod.ext (keepResults_run _ _ _) rfl⟩
    · exact ⟨_, rfl⟩
  obtain ⟨w₁, hrun⟩ := hresults
  rw [conclude_eq, storing, Attempt.bind_run_ok hrun, Attempt.bind_run_ok hrun]
  cases o.text.isEmpty <;> rfl

theorem unturned_addMessage (session : Int) (role content toolName : String) :
    Keeps World.Unturned (World.addMessage session role content toolName) := fun w =>
  (World.addMessage_ends session role content toolName w).1.unturned

theorem unturned_storing (settings : Settings) (s : Session) (o : Agent.Outcome) :
    Keeps World.Unturned (storing settings s o) := by
  refine Keeps.bind ?_ fun _ => ?_
  · split
    · exact .each (fun _ => (unturned_addMessage _ _ _ _).ignore) _
    · exact .done ()
  · split
    · exact .done ()
    · exact (unturned_addMessage _ _ _ _).ignore

/-- The turn gets to its sources: the agent has run to its end, and what came of it is stored.  By then the events `told`
have gone out, and the world is `w'`. -/
inductive Reaches (settings : Settings) (who : Caller) (given : Session) (text : LooseText) (w : World) :
    (told : List Event) → (w' : World) → Prop
  | intro {history kept : List Message} {s : Session} {now : Calendar.Stamp} {o : Agent.Outcome} {w₁ w₂ w₃ w₄ : World}
    (listed : listing given.id w = (.ok history, w₁))
    (compacted : compacted settings.policy given history w₁ = (.ok (kept, some s), w₂))
    (stored : (World.addLoose s.id userRole text "" w₂).2 = w₃)
    (clock : Calendar.stampOf w₃.clock = .ok now)
    (ran : Agent.run who settings.maxRounds (Agent.opening s.summary (Agent.spoken kept) text now) w₃ = (.ok o, w₄))
    (unbroken : o.failed = none) :
    Reaches settings who given text w o.events (storing settings s o w₄).2

/-- A session comes out of its compaction under its uid. -/
theorem compacted_uid {policy : Compaction.Policy} {given s : Session} {history kept : List Message} {w w' : World}
    (h : compacted policy given history w = (.ok (kept, some s), w')) : s.uid = given.uid := by
  have hfold : Ends (Compaction.fold policy given history) w fun r _ =>
      ∀ kept s', r = .ok (kept, some s') → s'.uid = given.uid := by
    cases hn : Compaction.oldCount? policy history with
    | none =>
      rw [Compaction.fold_none hn]
      rintro kept s' h
      cases h
      rfl
    | some n =>
      rw [Compaction.fold_some hn]
      refine (Compaction.summarise_ends _ w).bind (fun text w₁ _ => ?_) fun e w₁ _ kept s' h => by cases h
      refine (Compaction.store_ends given _ _ text w₁).mono fun r w₂ h kept s' hr => ?_
      obtain ⟨-, ⟨-, hno⟩ | ⟨-, hread, -⟩⟩ := h
      · exact absurd hr (hno kept s')
      · exact (Table.session?_some (hread kept s' hr)).2
  unfold Ends at hfold
  unfold compacted at h
  rw [Attempt.settle_bind_run] at h
  cases hr : (Compaction.fold policy given history w).1 with
  | ok r =>
    rw [hr] at h hfold
    cases h
    exact hfold kept s rfl
  | error e =>
    rw [hr] at h
    dsimp only at h
    split at h
    · cases h
      rfl
    · cases h

/-- The events that the end of a turn comes to. -/
def endingOf : Except Failure (List Event) → List Event
  | .ok found => found
  | .error e => [.error e.message]

variable {settings : Settings} {given : Session} {told : List Event}

/-- A turn that gets to its sources ends as its closing does. -/
theorem Reaches.stream (h : Reaches settings who given text w told w') : ∃ job, stream settings who given text w =
    (.ok ⟨told ++ endingOf (closing who given text w').1 ++ [.done given.uid], job⟩, (closing who given text w').2) := by
  obtain ⟨listed, hcompacted, rfl, clock, ran, unbroken⟩ := h
  rename_i history kept s now o w₁ w₂ w₄
  have huid := compacted_uid hcompacted
  have hclosing : closing who s text = closing who given text := by rw [closing, closing, huid]
  have hnow (w₃ : World) (hw₃ : Calendar.stampOf w₃.clock = .ok now) : World.now w₃ = (.ok now, w₃) := by
    rw [World.now, Attempt.bind_run_ok (Attempt.look_run _ _), Attempt.ofExcept_run, hw₃]
  have hlist : (do World.needList (← World.messagesOf given.id)) = listing given.id := rfl
  have hconclude : conclude settings who s text o w₄ = closing who given text (storing settings s o w₄).2 := by
    rw [conclude_run, hclosing]
  have hgoOn : ∃ account failure, goOn settings who s history kept text w₂ =
      (.ok (account, failure), (closing who given text (storing settings s o w₄).2).2) ∧
        account.events ++ (failure.map fun e => Event.error e.message).toList =
          o.events ++ endingOf (closing who given text (storing settings s o w₄).2).1 := by
    unfold goOn
    rw [Attempt.bind_run_ok (Attempt.ignore_run _ _), Attempt.settle_bind_run, hnow _ clock]
    simp only
    rw [Attempt.bind_run_ok ran, unbroken]
    simp only
    rw [Attempt.settle_bind_run, hconclude]
    cases (closing who given text (storing settings s o w₄).2).1 with
    | error e => exact ⟨_, _, rfl, rfl⟩
    | ok found => exact ⟨_, _, rfl, by simp [Account.add, endingOf]⟩
  obtain ⟨account, failure, hran, hevents⟩ := hgoOn
  have hattempt : attempt settings who given text w =
      (.ok (account, failure), (closing who given text (storing settings s o w₄).2).2) := by
    unfold attempt
    rw [hlist, Attempt.settle_bind_run, listed]
    simp only
    rw [Attempt.settle_bind_run, hcompacted]
    exact hran
  refine ⟨account.job, ?_⟩
  rw [Turn.stream, Attempt.bind_run_ok hattempt]
  simp only [Account.add, ← List.append_assoc, hevents]
  rfl

/-- Where a turn gets to its sources, the time can be stored. -/
theorem Reaches.fits (h : Reaches settings who given text w told w') : fitsColumn w'.clock = true := by
  obtain ⟨-, -, rfl, clock, ran, -⟩ := h
  rw [(unturned_storing _ _ _ _).clock, ((Agent.aside_run _ _ _).run ran).clock]
  exact fits_of_stamp clock

/-! ## Harm -/

/-- Naming sources did the turn no harm: it added sources and nothing else, and then the session was touched, if the store
works. -/
structure Unharmed (uid : String) (told : List Event) (w : World) (account : Account) (w' : World) : Prop where
  events : ∃ found, account.events = told ++ found ++ [.done uid] ∧ ∀ e ∈ found, e.kind = .source
  touched : w.Steady → w'.chats = w.chats.touched uid w.clock

theorem closing_ok {found : List Event} (h : (sources who text w).1 = .ok found) : closing who given text w =
    (.ok found, (World.reviseSession given.uid none none (sources who text w).2).2) := by
  have hrun : sources who text w = (.ok found, (sources who text w).2) := Prod.ext h rfl
  rw [closing, Attempt.bind_run_ok hrun]
  rfl

theorem closing_error {e : Failure} (h : (sources who text w).1 = .error e) :
    closing who given text w = (.error e, (sources who text w).2) := by
  have hrun : sources who text w = (.error e, (sources who text w).2) := Prod.ext h rfl
  rw [closing, Attempt.bind_run_error hrun]

/-- Once sources are named, a store that works touches the session. -/
theorem touched_closing {found : List Event} (h : (sources who text w).1 = .ok found) (hw : w.Steady)
    (hclock : fitsColumn w.clock = true) : (closing who given text w).2.chats = w.chats.touched given.uid w.clock := by
  have haside := aside_sources who text w
  rw [closing_ok h]
  obtain ⟨-, hrevised, -⟩ := World.reviseSession_steady (hw.of_strikes haside.onward.strikes)
    (haside.clock.symm ▸ hclock) given.uid none none
  rw [haside.chats, haside.clock] at hrevised
  exact Table.revise_ok hrevised

/-- **Naming sources harms a turn just if a hit is found of which no beginning can be shown.**  Then the turn ends with an
error, and the session is not touched. -/
theorem unharmed_iff (h : Reaches settings who given text w told w') : ∃ account w'',
    stream settings who given text w = (.ok account, w'') ∧
      (Unharmed given.uid told w' account w'' ↔ ¬Spoilt who text w') ∧
      (Spoilt who text w' → ∃ message, account.events = told ++ [.error message, .done given.uid] ∧
        w''.chats = w'.chats) := by
  obtain ⟨job, hstream⟩ := h.stream
  refine ⟨_, _, hstream, ?_⟩
  rw [← sources_fails_iff]
  cases hsources : (sources who text w').1 with
  | ok found =>
    have hkind := sources_ends who text w'
    rw [Ends, hsources] at hkind
    have hnever : ¬∃ e, (Except.ok found : Except Failure (List Event)) = .error e := by
      rintro ⟨e, he⟩
      cases he
    refine ⟨⟨fun _ => hnever, fun _ => ⟨⟨found, ?_, hkind found rfl⟩, fun hw => ?_⟩⟩, fun h => absurd h hnever⟩
    · rw [closing_ok hsources]
      rfl
    · exact touched_closing hsources hw h.fits
  | error e =>
    have hevents : told ++ endingOf (closing who given text w').1 ++ [.done given.uid] =
        told ++ [.error e.message, .done given.uid] := by
      rw [closing_error hsources, endingOf, List.append_assoc]
      rfl
    refine ⟨⟨fun hunharmed _ => ?_, fun hnot => absurd ⟨e, rfl⟩ hnot⟩, fun _ => ⟨e.message, hevents, ?_⟩⟩
    · obtain ⟨found, hfound, hkind⟩ := hunharmed.events
      rw [hevents, List.append_assoc, List.append_cancel_left_eq] at hfound
      -- the error would be one of the sources
      have herror : Event.error e.message ∈ found := by
        have hmem : Event.error e.message ∈ found ++ [.done given.uid] := hfound ▸ List.mem_cons_self
        exact (List.mem_append.1 hmem).resolve_right fun hlast => by cases List.mem_singleton.1 hlast
      cases hkind _ herror
    · rw [closing_error hsources]
      exact (aside_sources who text w').chats

/-! ## Two answers of an index -/

/-- A session. -/
def plainSession : Session := ⟨1, "s", 1, "T", "", 0, 0⟩

/-- The session, a model that has nothing to do but to answer, and an index that finds one hit with these members. -/
def citing (hit : List (String × Json)) : World :=
  { World.fresh 9 (.fresh ⟨[], [], fun _ _ => none, fun _ => some (.record [("row_count", .int 1)]),
      fun _ _ => some (.list [.list [.record hit]])⟩ ⟨fun _ _ => .ok [[]], 0⟩ 0)
        (.fresh (.always "Done.") (.always "") (.always "")) with
    chats := ⟨[plainSession], [], 1, 0⟩ }

/-- What comes of the agent. -/
def plainOutcome : Agent.Outcome := ⟨[.token "Done. "], .text "Done.", 1, [], none⟩

/-- The world in which the turn in the session gets to its sources. -/
def answered (hit : List (String × Json)) : World :=
  let told := (World.addLoose 1 userRole "hi" "" (citing hit).chatUsed).2
  let ran := Agent.run ⟨1, true, "", 5⟩ 6 (Agent.opening "" [] "hi" (Calendar.Stamp.ofSeconds 9)) told
  (storing {} plainSession plainOutcome ran.2).2

theorem reaches_citing (hit : List (String × Json)) :
    Reaches {} ⟨1, true, "", 5⟩ plainSession "hi" (citing hit) [.token "Done. "] (answered hit) := by
  have listed : listing 1 (citing hit) = (.ok [], (citing hit).chatUsed) := rfl
  have folded : compacted {} plainSession [] (citing hit).chatUsed =
      (.ok ([], some plainSession), (citing hit).chatUsed) := rfl
  have ran : Agent.run ⟨1, true, "", 5⟩ 6 (Agent.opening "" [] "hi" (Calendar.Stamp.ofSeconds 9))
      (World.addLoose 1 userRole "hi" "" (citing hit).chatUsed).2 = (.ok plainOutcome, _) := rfl
  have unbroken : plainOutcome.failed = none := rfl
  exact .intro listed folded rfl rfl ran unbroken

/-- A hit that lacks every member is shown as a source, and the session is touched. -/
theorem unharmed_iff_memberless :
    let w' := answered []
    Reaches {} ⟨1, true, "", 5⟩ plainSession "hi" (citing []) [.token "Done. "] w' ∧
    ∃ account w'', stream {} ⟨1, true, "", 5⟩ plainSession "hi" (citing []) = (.ok account, w'') ∧
      Unharmed "s" [.token "Done. "] w' account w'' ∧ account.events.map (·.kind) = [.token, .source, .done] ∧
      w''.chats.sessions = [⟨1, "s", 1, "T", "", 0, 9⟩] := by
  intro w'
  have hreaches := reaches_citing []
  obtain ⟨account, w'', hstream, hunharmed, -⟩ := unharmed_iff hreaches
  have hfound : (lookUp ⟨1, true, "", 5⟩ "hi" w').1 = .ok [⟨"", .text "", 0⟩] := rfl
  have hunspoilt : ¬Spoilt ⟨1, true, "", 5⟩ "hi" w' := by
    rintro ⟨-, hits, hhits, h, hh, hquotable⟩
    obtain rfl := Except.ok.inj (hfound.symm.trans hhits)
    obtain rfl := List.mem_singleton.1 hh
    exact hquotable (.text "")
  have hkinds : (stream {} ⟨1, true, "", 5⟩ plainSession "hi" (citing [])).1.map (·.events.map (·.kind)) =
      .ok [.token, .source, .done] := rfl
  have htouched := (hunharmed.2 hunspoilt).touched fun _ _ => rfl
  refine ⟨hreaches, account, w'', hstream, hunharmed.2 hunspoilt, ?_, ?_⟩
  · rw [hstream] at hkinds
    exact Except.ok.inj hkinds
  · rw [htouched]
    rfl

/-- **A hit whose content is null breaks the turn off**: an error goes out in the place of a source, and the session is not
touched. -/
theorem null_content_harms :
    let hit : List (String × Json) := [("id", .text "n1"), ("entity", .record [("content", .null)])]
    Reaches {} ⟨1, true, "", 5⟩ plainSession "hi" (citing hit) [.token "Done. "] (answered hit) ∧ (answered hit).Steady ∧
    ∃ account w'', stream {} ⟨1, true, "", 5⟩ plainSession "hi" (citing hit) = (.ok account, w'') ∧
      account.events.map (fun e => (e.kind, e.content)) = [(.token, some "Done. "),
        (.error, some "'NoneType' object is not subscriptable"), (.done, some "s")] ∧
      w''.chats.sessions = [plainSession] ∧ ¬Unharmed "s" [.token "Done. "] (answered hit) account w'' := by
  intro hit
  have hsteady : (answered hit).Steady := fun _ _ => rfl
  have hevents : (stream {} ⟨1, true, "", 5⟩ plainSession "hi" (citing hit)).1.map
      (·.events.map fun e => (e.kind, e.content)) = .ok [(.token, some "Done. "),
        (.error, some "'NoneType' object is not subscriptable"), (.done, some "s")] := by decide +kernel
  have hsessions : (stream {} ⟨1, true, "", 5⟩ plainSession "hi" (citing hit)).2.chats.sessions = [plainSession] := by
    decide +kernel
  obtain ⟨job, hstream⟩ := (reaches_citing hit).stream
  rw [hstream] at hevents hsessions
  refine ⟨reaches_citing hit, hsteady, _, _, hstream, Except.ok.inj hevents, hsessions, fun hunharmed => ?_⟩
  have htouched := congrArg Table.sessions (hunharmed.touched hsteady)
  rw [hsessions] at htouched
  revert htouched
  decide +kernel

end Turn
end Chat
end NoteAgent
