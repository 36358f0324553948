import NoteAgent.Chat.Deed
import NoteAgent.Proofs.ChatLedger
import NoteAgent.Proofs.EventShape
import NoteAgent.Proofs.TitleSteps
import NoteAgent.Proofs.TurnHistory
/-!
# TitleOnce — a session is named once

Turns of a session and requests for other titles come one after another, each when the one before is over with its job.  A
turn leaves a job behind only if it finds no messages, and a compaction that keeps none can leave none; but every turn of
the owner's stores its user's message after its compaction, whatever the model answers (`Turn.attempt_speaks`), and from
then on there are messages.  So the model is asked for a title once at most, by the first turn, if the session has the
default title then; the title is what its reply gives, or as it was; and no other turn changes it (`run_names_once`).
-/
namespace NoteAgent
namespace Chat
namespace Title

/-- What every request for a title begins with. -/
def opening : String := "Generate a short (5-7 word) title for a chat that starts with:\n\""

def isPrompt (p : String) : Bool := opening.toList.isPrefixOf p.toList

theorem isPrompt_prompt (message : String) : isPrompt (prompt message) = true := by
  have hprompt : prompt message = opening ++ (message ++ "\"\nReturn only the title, no quotes.") := String.append_assoc
  rw [isPrompt, List.isPrefixOf_iff_prefix, hprompt, String.toList_append]
  exact List.prefix_append _ _

/-- No request for a summary is taken for one for a title. -/
theorem isPrompt_promptFor (old : List Message) : isPrompt (Compaction.promptFor old) = false := by
  rw [isPrompt, Compaction.promptFor, Compaction.prompt, String.toList_append]
  rfl

/-- The title that a reply gives, if the model does not fail and something is left of what it answers. -/
def given? (r : Model.Reply) : Option String := r.stripped.toOption.bind ofReply?

end Title
end Chat

namespace World

open Attempt (Keeps)
open Chat (Session Table)

/-- The prompts for titles that the model was shown so far. -/
def titlePrompts (w : World) : List String := w.model.prompts.filter Chat.Title.isPrompt

/-- The model was not asked for a title. -/
structure Unasked (w w' : World) : Prop where
  prompts : w'.titlePrompts = w.titlePrompts
  supply : w'.model.supply .title = w.model.supply .title

theorem Unasked.of_model {w w' : World} (h : w'.model = w.model) : Unasked w w' := by
  refine ⟨?_, ?_⟩
  · rw [titlePrompts, h, titlePrompts]
  · rw [h]

theorem Unasked.trans {w w' w'' : World} (h : Unasked w w') (h' : Unasked w' w'') : Unasked w w'' :=
  ⟨h'.prompts.trans h.prompts, h'.supply.trans h.supply⟩

/-- The session with a uid is there as it was made, if it was; the tables stay sound, and nothing else strikes the store. -/
structure Holds (uid : String) (w w' : World) : Prop where
  even : Even w w'
  sound : w.chats.Sound → w'.chats.Sound
  origin : (w'.chats.session? uid).map Session.origin = (w.chats.session? uid).map Session.origin

namespace Holds

variable {uid : String} {w w' w'' : World}

theorem of_chats (h : Even w w') (hc : w'.chats = w.chats) : Holds uid w w' := ⟨h, fun hs => hc ▸ hs, by rw [hc]⟩

theorem trans (h : Holds uid w w') (h' : Holds uid w' w'') : Holds uid w w'' :=
  ⟨⟨h'.even.clock.trans h.even.clock, h'.even.strikes.trans h.even.strikes⟩, fun hs => h'.sound (h.sound hs),
    h'.origin.trans h.origin⟩

instance : Std.Refl (Holds uid) := ⟨fun _ => .of_chats ⟨rfl, rfl⟩ rfl⟩
instance : Trans (Holds uid) (Holds uid) (Holds uid) := ⟨Holds.trans⟩

/-- Sessions that change in what they were not made with. -/
theorem of_map (h : Even w w') {f : Session → Session} (hf : ∀ s, (f s).origin = s.origin)
    (hsessions : w'.chats.sessions = w.chats.sessions.map f) (hsound : w.chats.Sound → w'.chats.Sound) :
    Holds uid w w' := by
  have hnames : Table.KeepsNames f := fun s => ⟨congrArg (·.1) (hf s), congrArg (·.2.1) (hf s)⟩
  have horigin : Session.origin ∘ f = Session.origin := funext hf
  refine ⟨h, hsound, ?_⟩
  rw [Table.session?_map hnames hsessions, Option.map_map, horigin]

theorem steady (h : Holds uid w w') (hw : w.Steady) : w'.Steady := hw.of_strikes h.even.strikes

theorem fits (h : Holds uid w w') (hw : fitsColumn w.clock = true) : fitsColumn w'.clock = true :=
  (congrArg fitsColumn h.even.clock).trans hw

theorem found (h : Holds uid w w') {s : Session} (hs : w.chats.session? uid = some s) : ∃ x,
    w'.chats.session? uid = some x ∧ x.id = s.id ∧ x.owner = s.owner := by
  have horigin := h.origin
  rw [hs] at horigin
  obtain ⟨x, hx, heq⟩ := Option.map_eq_some_iff.1 horigin
  exact ⟨x, hx, congrArg (·.1) heq, congrArg (·.2.2.1) heq⟩

end Holds

/-- What every step of a turn but its job does: the session is there, and the model is not asked for a title. -/
structure Silent (uid : String) (w w' : World) : Prop extends Holds uid w w', Unasked w w'

namespace Silent

variable {uid : String}

theorem of_chats {w w' : World} (h : Even w w') (hm : w'.model = w.model) (hc : w'.chats = w.chats) : Silent uid w w' :=
  ⟨.of_chats h hc, .of_model hm⟩

theorem refl (uid : String) (w : World) : Silent uid w w := .of_chats ⟨rfl, rfl⟩ rfl rfl

theorem trans {w w' w'' : World} (h : Silent uid w w') (h' : Silent uid w' w'') : Silent uid w w'' :=
  ⟨h.toHolds.trans h'.toHolds, h.toUnasked.trans h'.toUnasked⟩

instance : Std.Refl (Silent uid) := ⟨Silent.refl uid⟩
instance : Trans (Silent uid) (Silent uid) (Silent uid) := ⟨Silent.trans⟩

theorem of_beside {w w' : World} (h : Beside w w') (hc : w'.chats = w.chats) : Silent uid w w' :=
  .of_chats h.even h.model hc

end Silent

variable {uid : String}

theorem silent_addMessage (session : Int) (role content toolName : String) :
    Keeps (Silent uid) (addMessage session role content toolName) := fun w => by
  obtain ⟨hbeside, hsame | ⟨m, hm⟩⟩ := addMessage_ends session role content toolName w
  · exact .of_beside hbeside hsame
  · obtain ⟨-, -, hchats⟩ := Table.addMessage_ok hm
    refine ⟨⟨hbeside.even, fun hs => hs.addMessage hm, ?_⟩, .of_model hbeside.model⟩
    rw [hchats]
    rfl

theorem silent_reviseSession (target : String) (title summary : Option String) :
    Keeps (Silent uid) (reviseSession target title summary) := fun w => by
  obtain ⟨hbeside, hsame | hrevised⟩ := reviseSession_ends target title summary w
  · exact .of_beside hbeside hsame
  · refine ⟨.of_map hbeside.even (fun s => ?_) (congrArg Table.sessions (Table.revise_ok hrevised)) fun hs =>
      hs.revise hrevised, .of_model hbeside.model⟩
    split <;> rfl

theorem silent_foldHistory (target summary : String) (bound : Int) :
    Keeps (Silent uid) (foldHistory target summary bound) := fun w => by
  obtain ⟨hbeside, ⟨hsame, -⟩ | ⟨hcompact, -⟩⟩ := foldHistory_ends target summary bound w
  · exact .of_beside hbeside hsame
  · obtain ⟨s, -, hchats⟩ := Table.compact_ok hcompact
    refine ⟨.of_map hbeside.even (fun x => ?_) (congrArg Table.sessions hchats) fun hs => hs.compact hcompact,
      .of_model hbeside.model⟩
    unfold Table.Session.summed
    split <;> rfl

/-- A summary is asked for with a prompt that is none for a title. -/
theorem silent_summary (old : List Chat.Message) :
    Keeps (Silent uid) (asking (Model.Client.complete .summary (Chat.Compaction.promptFor old))) := fun w => by
  refine ⟨.of_chats ⟨rfl, rfl⟩ rfl, ?_, rfl⟩
  change (w.model.prompts ++ [Chat.Compaction.promptFor old]).filter Chat.Title.isPrompt = w.titlePrompts
  rw [List.filter_append, List.filter_singleton, Chat.Title.isPrompt_promptFor]
  exact List.append_nil _

end World

theorem Agent.silent_run {uid : String} (who : Tool.Caller) (maxRounds : Int) (entries : List Model.Entry) :
    Attempt.Keeps (World.Silent uid) (run who maxRounds entries) :=
  keeps_runWith
    (fun name arguments => (Tool.keeps_dispatch who name arguments).mono fun h =>
      .of_chats ⟨h.clock, by rw [h.chatFaults]⟩ h.model h.chats)
    (fun _ _ => ⟨.of_chats ⟨rfl, rfl⟩ rfl, rfl, rfl⟩) maxRounds entries

namespace Chat

open Attempt (Keeps)
open World (Able Growing Holds Says SameTitle Silent Unasked)

/-! ## The job of a turn -/

/-- The model was asked once for a title after a message: the session has the title that the reply gives, or the one that
it had. -/
structure NamedAfter (uid message : String) (w w' : World) : Prop where
  prompts : w'.titlePrompts = w.titlePrompts ++ [Title.prompt message]
  supply : w'.model.supply .title = (w.model.supply .title).next.2
  title : w'.title? uid = (w.title? uid).map (Title.given? (w.model.supply .title).next.1).getD

theorem NamedAfter.after {uid message : String} {w w₁ w' : World} (h : NamedAfter uid message w₁ w') (hasked : Unasked w w₁)
    (htitle : w₁.title? uid = w.title? uid) : NamedAfter uid message w w' where
  prompts := by rw [h.prompts, hasked.prompts]
  supply := by rw [h.supply, hasked.supply]
  title := by rw [h.title, htitle, hasked.supply]

theorem Title.ask_run (message : String) (w : World) :
    ask message w = (.ok (given? (w.model.supply .title).next.1),
      { w with model := (w.model.complete .title (prompt message)).2 }) := by
  have hasking : World.asking (Model.Client.complete .title (prompt message)) w =
      ((w.model.supply .title).next.1.stripped, { w with model := (w.model.complete .title (prompt message)).2 }) := rfl
  rw [ask, given?, Json.nearestText_pieces, Attempt.settle_bind_run, hasking]
  generalize (w.model.complete .title (prompt message)).2 = c
  cases (w.model.supply .title).next.1.stripped with
  | error e => rfl
  | ok reply =>
    rw [Except.toOption, Option.bind_some]
    rfl

theorem Title.holds_find {uid : String} (target : String) (message : LooseText) : Keeps (Holds uid) (find target message) :=
  Turn.keeps_title (fun _ _ => .of_chats ⟨rfl, rfl⟩ rfl)
    (fun _ _ w => (World.silent_reviseSession _ _ _ w).toHolds) target message

/-- **What finding a title comes to** where nothing strikes the store, whatever the model answers. -/
theorem Title.find_names {w : World} (hw : w.Steady) (hclock : fitsColumn w.clock = true) (uid message : String) :
    NamedAfter uid message w (find uid message w).2 := by
  let w₁ : World := { w with model := (w.model.complete .title (prompt message)).2 }
  have hprompts : w₁.titlePrompts = w.titlePrompts ++ [prompt message] := by
    change (w.model.prompts ++ [prompt message]).filter isPrompt = _
    rw [List.filter_append, List.filter_singleton, isPrompt_prompt]
    rfl
  have hsupply : w₁.model.supply .title = (w.model.supply .title).next.2 := rfl
  have hask : ask message w = (.ok (given? (w.model.supply .title).next.1), w₁) := ask_run message w
  cases hgiven : given? (w.model.supply .title).next.1 with
  | none =>
    rw [hgiven] at hask
    have hend : (find uid message w).2 = w₁ := by
      rw [find, Attempt.bind_run_ok hask]
      rfl
    rw [hend]
    refine ⟨hprompts, hsupply, ?_⟩
    rw [hgiven]
    exact Option.map_id'.symm
  | some title =>
    rw [hgiven] at hask
    have hend : (World.reviseSession uid (some title) none w₁).2 = (find uid message w).2 := by
      rw [find, Attempt.bind_run_ok hask]
      refine Keeps.tail (R := Eq) (World.reviseSession uid (some title) none).settle (fun revised => ?_) w₁
      cases revised <;> exact .done _
    have hw₁ : w₁.Steady := hw
    obtain ⟨hbeside, hstored, -⟩ := World.title?_reviseSession hw₁ hclock uid title
    have hasked := Unasked.of_model hbeside.model
    rw [hend] at hstored hasked
    refine ⟨hasked.prompts.trans hprompts, hasked.supply.trans hsupply, ?_⟩
    rw [hstored, hgiven]
    rfl

namespace Turn

/-! ## Turns -/

theorem silent_listing {uid : String} (session : Int) : Keeps (Silent uid) (listing session) := fun w => by
  rw [(Stage.listing_ends session w).1]
  exact .of_beside (World.beside_chatUsed w) rfl

/-- **A turn does not ask the model for a title**: only the job that it leaves behind does. -/
theorem silent_stream {uid : String} (settings : Settings) (who : Tool.Caller) (s : Session) (text : LooseText) :
    Keeps (Silent uid) (stream settings who s text) :=
  keeps_stream (silent_listing s.id) (Compaction.keeps_fold World.silent_summary World.silent_foldHistory _ _)
    (fun session => ⟨fun _ => .of_chats ⟨rfl, rfl⟩ rfl rfl, World.silent_addMessage session,
      fun _ => World.silent_reviseSession _ _ _, fun _ _ => .of_chats ⟨rfl, rfl⟩ rfl rfl, Agent.silent_run⟩) who text

variable {settings : Settings} {s : Session} {w : World}

/-- **A turn leaves messages in its session**, whatever its compaction drops and the model answers; its job goes by what was
there before. -/
theorem attempt_speaks (ha : w.Able s.id) (ht : w.chats.Sound) (hs : w.chats.session? s.uid = some s)
    (hkeep : 0 ≤ settings.policy.keepRecent) (who : Tool.Caller) (text : String) : ∃ account failure w',
      attempt settings who s text w = (.ok (account, failure), w') ∧
      account.job = job? s (w.chats.live s.id) text ∧ w'.chats.live s.id ≠ [] := by
  obtain ⟨x, hcompacted, hsettled⟩ := compacted_settled settings.policy hkeep ha.steady ht hs
  obtain ⟨account, failure, w', hrun, -⟩ := goOn_closes settings who x (w.chats.live s.id) (kept settings.policy s w) text
    s.uid (folded settings.policy s w)
  refine ⟨account, failure, w', (attempt_of_compacted ha hcompacted who text).trans hrun, ?_, ?_⟩
  · have hjob := goOn_job settings who x (w.chats.live s.id) (kept settings.policy s w) text (folded settings.policy s w)
      (account, failure) (by rw [hrun])
    rw [hjob]
    cases hlive : w.chats.live s.id with
    | nil =>
      -- nothing was folded away, so the turn goes on with the session as it was given
      rw [hlive] at hcompacted
      rw [compacted_nil (congrArg Prod.fst hcompacted)]
    | cons m ms => rfl
  · have hsaid : Says s.id [(userRole, text, "")] (folded settings.policy s w)
        (World.addMessage s.id userRole text "" (folded settings.policy s w)).2 :=
      World.says_addMessage (hsettled.able ha) text (by decide) (by decide)
    obtain ⟨added, hadded, hline⟩ := hsaid.live
    have hstored : (World.addMessage s.id userRole text "" (folded settings.policy s w)).2.chats.live s.id ≠ [] := by
      rw [hadded]
      refine List.append_ne_nil_of_right_ne_nil _ fun hnil => ?_
      rw [hnil] at hline
      cases hline
    have hlater := (growing_uses x.id).goOn_tail settings who (w.chats.live s.id) (kept settings.policy s w) text
      (folded settings.policy s w)
    rw [hrun, hsettled.id, World.addLoose_pieces] at hlater
    exact hlater.grows.live_ne_nil hstored

/-- **What a turn with its job comes to**: there are messages in its session; the session is named if there was none before
and it has the default title, and nothing about its title is done otherwise. -/
theorem run_names (ha : w.Able s.id) (ht : w.chats.Sound) (hs : w.chats.session? s.uid = some s)
    (hkeep : 0 ≤ settings.policy.keepRecent) (who : Tool.Caller) (text : String) :
    let w' := (run settings who s text w).2
    Holds s.uid w w' ∧ w'.chats.live s.id ≠ [] ∧
      (w.chats.live s.id = [] ∧ s.title = defaultTitle → NamedAfter s.uid text w w') ∧
      (¬(w.chats.live s.id = [] ∧ s.title = defaultTitle) → Unasked w w' ∧ w'.title? s.uid = w.title? s.uid) := by
  obtain ⟨account, failure, w₁, hattempt, hjob, hlive⟩ := attempt_speaks ha ht hs hkeep who text
  have hstream : stream settings who s text w = (.ok (account.add
      ((failure.map fun e => Event.error e.message).toList ++ [.done s.uid])), w₁) := Attempt.bind_run_ok hattempt
  have hsilent : Silent s.uid w w₁ := (silent_stream settings who s text).run hstream
  have htitle : w₁.title? s.uid = w.title? s.uid := by
    have hold : w.title? s.uid = some s.title := by rw [World.title?, hs]; rfl
    rw [hold]
    exact (keeps_sameTitle_stream settings who s text).run hstream s.title hold
  have hgrows : Growing s.id (attempt settings who s text w).2 (run settings who s text w).2 :=
    run_growing settings who s text w
  rw [hattempt] at hgrows
  have hspoken := hgrows.grows.live_ne_nil hlive
  have hrun := congrArg Prod.snd (run_of_attempt hattempt)
  by_cases hfirst : w.chats.live s.id = [] ∧ s.title = defaultTitle
  · have hleft : account.job = some ⟨s.uid, text⟩ := hjob.trans (job?_eq_some.2 ⟨hfirst.1, hfirst.2, rfl⟩)
    rw [hleft, Option.elim_some] at hrun
    have hnamed := Title.find_names (hsilent.steady ha.steady) (hsilent.fits ha.time) s.uid text
    have hholds : Holds s.uid w₁ (Title.find s.uid text w₁).2 := Title.holds_find s.uid text w₁
    rw [hrun] at hspoken ⊢
    exact ⟨hsilent.toHolds.trans hholds, hspoken, fun _ => hnamed.after hsilent.toUnasked htitle,
      fun h => absurd hfirst h⟩
  · have hleft : account.job = none := by
      rw [hjob]
      cases h : job? s (w.chats.live s.id) text with
      | none => rfl
      | some job =>
        obtain ⟨hempty, hdefault, -⟩ := job?_eq_some.1 h
        exact absurd ⟨hempty, hdefault⟩ hfirst
    rw [hleft, Option.elim_none] at hrun
    rw [hrun] at hspoken ⊢
    exact ⟨hsilent.toHolds, hspoken, fun h => absurd h hfirst, fun _ => ⟨hsilent.toUnasked, htitle⟩⟩

end Turn

/-! ## Requests in a session -/

namespace Deed

/-- The time fits its column, and a compaction is not to keep fewer messages than none. -/
def Regular : Deed → Prop
  | turn o => fitsColumn o.clock = true ∧ 0 ≤ o.settings.policy.keepRecent
  | rename clock _ _ => fitsColumn clock = true

/-- The request is a turn of the one that the session belongs to. -/
def Speaks (owner : Int) : Deed → Prop
  | turn o => o.who.user = owner
  | rename .. => False

/-- What a request that comes after others does about the title of a session: the owner's first turn names it if it has the
default title, and no other turn changes its title or asks for one; nor does another request ask for one. -/
def Does (owner : Int) (uid : String) (pre : List Deed) (w w' : World) : Deed → Prop
  | turn o =>
    let due := o.who.user = owner ∧ (∀ d ∈ pre, ¬d.Speaks owner) ∧ w.title? uid = some defaultTitle
    (due → NamedAfter uid o.text w w') ∧ (¬due → Unasked w w' ∧ w'.title? uid = w.title? uid)
  | rename .. => Unasked w w'

end Deed

theorem ownSession_steady {w : World} (hw : w.Steady) {uid : String} {s : Session} (hs : w.chats.session? uid = some s)
    (user : Int) :
    Http.ownSession user uid w = (if s.owner = user then .ok s else .error (.foreignSession uid), w.chatUsed) := by
  unfold Http.ownSession
  rw [Attempt.bind_run, World.findSession_run, hw, hs]
  by_cases howner : s.owner = user
  · simp [howner]
  · simp [howner]

theorem keeps_retitle {R : World → World → Prop} [Std.Refl R] [Trans R R R] {user : Int} {uid : String}
    (hown : Keeps R (Http.ownSession user uid)) (hrevise : ∀ title, Keeps R (World.reviseSession uid (some title) none))
    (title : LooseText) : Keeps R (Http.retitle user uid title) := by
  refine hown.bind fun _ => (Keeps.ofExcept _).bind fun title => (hrevise title).bind fun updated => ?_
  cases updated with
  | none => exact .fail _
  | some s => exact .done _

/-- Where requests in a session have led since it was made: it is there, and there are messages in it just if its owner had
a turn. -/
structure Held (s : Session) (pre : List Deed) (w : World) : Prop where
  steady : w.Steady
  sound : w.chats.Sound
  there : ∃ x, w.chats.session? s.uid = some x ∧ x.id = s.id ∧ x.owner = s.owner
  silent : w.chats.live s.id = [] ↔ ∀ d ∈ pre, ¬d.Speaks s.owner

namespace Held

variable {s : Session} {pre : List Deed} {w w' : World} {d : Deed}

theorem next (h : Held s pre w) (w₁ : World) (hstrikes : w₁.chatFaults.strikes = w.chatFaults.strikes)
    (hchats : w₁.chats = w.chats) (hholds : Holds s.uid w₁ w') (hspeaks : d.Speaks s.owner → w'.chats.live s.id ≠ [])
    (hlistens : ¬d.Speaks s.owner → w'.chats.live s.id = w.chats.live s.id) : Held s (pre ++ [d]) w' := by
  obtain ⟨x, hx, hid, howner⟩ := h.there
  obtain ⟨x', hx', hid', howner'⟩ := hholds.found (hchats ▸ hx)
  refine ⟨hholds.steady (h.steady.of_strikes hstrikes), hholds.sound (hchats ▸ h.sound),
    ⟨x', hx', hid'.trans hid, howner'.trans howner⟩, ?_⟩
  rw [List.forall_mem_append, List.forall_mem_singleton, ← h.silent]
  by_cases hd : d.Speaks s.owner
  · exact ⟨fun hnil => absurd hnil (hspeaks hd), fun hall => absurd hd hall.2⟩
  · rw [hlistens hd]
    exact ⟨fun hnil => ⟨hnil, hd⟩, fun hall => hall.1⟩

/-- **What a turn does about the title**, whoever asks for it: there are messages after one of the owner's, and the one of
somebody else is refused. -/
theorem turn (h : Held s pre w) (hfits : fitsColumn s.id = true) {o : Order} (ho : (Deed.turn o).Regular) :
    Held s (pre ++ [.turn o]) (Deed.after s.uid w (.turn o)) ∧
      (Deed.turn o).Does s.owner s.uid pre w (Deed.after s.uid w (.turn o)) := by
  obtain ⟨x, hx, hid, howner⟩ := h.there
  let w₁ : World := { w with clock := o.clock }.chatUsed
  have hbefore : Unasked w w₁ := .of_model rfl
  have hnow : { w with clock := o.clock }.Steady := h.steady
  have hown := ownSession_steady hnow hx o.who.user
  by_cases hmine : o.who.user = s.owner
  · rw [if_pos (howner.trans hmine.symm)] at hown
    have hrun : Deed.after s.uid w (.turn o) = (Turn.run o.settings o.who x o.text w₁).2 := by
      rw [Deed.after, Http.visit, Attempt.bind_run_ok hown]
    obtain ⟨hmem, huid⟩ := Table.session?_some hx
    have ha : w₁.Able x.id := ⟨h.steady, ⟨x, hmem, rfl⟩, hid ▸ hfits, ho.1⟩
    obtain ⟨hholds, hspoken, hnames, hsame⟩ := Turn.run_names ha h.sound (huid.symm ▸ hx) ho.2 o.who o.text
    rw [← hrun, huid] at hholds hnames hsame
    rw [← hrun, hid] at hspoken
    have htitle : w.title? s.uid = some x.title := by rw [World.title?, hx]; rfl
    have hdue : (w₁.chats.live x.id = [] ∧ x.title = defaultTitle) ↔ o.who.user = s.owner ∧
        (∀ d ∈ pre, ¬d.Speaks s.owner) ∧ w.title? s.uid = some defaultTitle := by
      rw [htitle, Option.some_inj, ← h.silent, hid]
      exact ⟨fun hall => ⟨hmine, hall⟩, fun hall => hall.2⟩
    refine ⟨h.next w₁ rfl rfl hholds (fun _ => hspoken) fun hno => absurd hmine hno, fun hall => ?_, fun hno => ?_⟩
    · exact (hnames (hdue.2 hall)).after hbefore rfl
    · obtain ⟨hasked, hsame⟩ := hsame (mt hdue.1 hno)
      exact ⟨hbefore.trans hasked, hsame⟩
  · rw [if_neg fun heq => hmine (heq.symm.trans howner)] at hown
    have hrefused : Deed.after s.uid w (.turn o) = w₁ := by
      rw [Deed.after, Http.visit, Attempt.bind_run_error hown]
    rw [hrefused]
    exact ⟨h.next w₁ rfl rfl (.of_chats ⟨rfl, rfl⟩ rfl) (fun hd => absurd hd hmine) fun _ => rfl,
      fun hall => absurd hall.1 hmine, fun _ => ⟨hbefore, rfl⟩⟩

/-- A request for another title leaves the messages, and the model is not asked. -/
theorem rename (h : Held s pre w) (clock user : Int) (title : LooseText) :
    Held s (pre ++ [.rename clock user title]) (Deed.after s.uid w (.rename clock user title)) ∧
      (Deed.rename clock user title).Does s.owner s.uid pre w (Deed.after s.uid w (.rename clock user title)) := by
  have hown (v : World) : (Http.ownSession user s.uid v).2 = v.chatUsed := (Stage.ownSession_ends user s.uid v).1
  have hsilent : Keeps (Silent s.uid) (Http.retitle user s.uid title) :=
    keeps_retitle (fun v => by rw [hown v]; exact .of_beside (World.beside_chatUsed v) rfl)
      (fun _ => World.silent_reviseSession _ _ _) title
  have hquiet : Keeps (Says s.id []) (Http.retitle user s.uid title) :=
    keeps_retitle (fun v => by rw [hown v]; exact .of_chats (World.beside_chatUsed v).unturned rfl)
      (fun _ => World.keeps_reviseSession _ _) title
  have hbefore : Unasked w { w with clock := clock } := .of_model rfl
  have hafter := hsilent { w with clock := clock }
  obtain ⟨added, hlive, hline⟩ := (hquiet { w with clock := clock }).live
  rw [List.map_eq_nil_iff.1 hline, List.append_nil] at hlive
  exact ⟨h.next { w with clock := clock } rfl rfl hafter.toHolds (fun hd => hd.elim) fun _ => hlive,
    hbefore.trans hafter.toUnasked⟩

theorem step (h : Held s pre w) (hfits : fitsColumn s.id = true) (hd : d.Regular) :
    Held s (pre ++ [d]) (d.after s.uid w) ∧ d.Does s.owner s.uid pre w (d.after s.uid w) := by
  cases d with
  | turn o => exact h.turn hfits hd
  | rename clock user title => exact h.rename clock user title

/-- A session that was just made. -/
theorem of_made {w₀ : World} (hw : w₀.Steady) (ht : w₀.chats.Sound)
    (hbelongs : ∀ m ∈ w₀.chats.messages, ∃ x ∈ w₀.chats.sessions, x.id = m.session) {owner : Int} {title : String}
    (hmade : World.addSession owner title w₀ = (.ok (some s), w)) : Held s [] w := by
  unfold World.addSession at hmade
  rw [World.chatMethod_steady hw] at hmade
  obtain ⟨made, w₁, hran, hend⟩ := Attempt.bind_ok hmade
  obtain ⟨n, w₂, htaken, hran⟩ := Attempt.bind_ok hran
  obtain ⟨now, w₃, hlooked, hran⟩ := Attempt.bind_ok hran
  cases hend
  cases htaken
  cases hlooked
  unfold World.onChats at hran
  split at hran
  · rename_i made t hadded
    cases hran
    exact ⟨hw, ht.addSession hadded, ⟨s, Table.session?_addSession hadded, rfl, rfl⟩,
      fun _ => List.forall_mem_nil _, fun _ => ht.live_addSession hbelongs hadded⟩
  · cases hran

end Held

/-- Since the session was made, at most one title was asked for, and none before its owner had a turn. -/
def AskedOnce (owner : Int) (w₀ : World) (pre : List Deed) (w : World) : Prop :=
  ∃ asked, w.titlePrompts = w₀.titlePrompts ++ asked ∧ asked.length ≤ 1 ∧ ((∀ d ∈ pre, ¬d.Speaks owner) → asked = [])

/-- A title is asked for when the owner has the first turn, and after that none ever is. -/
theorem AskedOnce.step {owner : Int} {uid : String} {w₀ w w' : World} {pre : List Deed} {d : Deed}
    (h : AskedOnce owner w₀ pre w) (hd : d.Does owner uid pre w w') : AskedOnce owner w₀ (pre ++ [d]) w' := by
  obtain ⟨asked, hasked, hone, hnone⟩ := h
  have hstill (hunasked : Unasked w w') : AskedOnce owner w₀ (pre ++ [d]) w' :=
    ⟨asked, hunasked.prompts.trans hasked, hone, fun hall => hnone fun x hx => hall x (List.mem_append_left _ hx)⟩
  cases d with
  | rename clock user title => exact hstill hd
  | turn o =>
    by_cases hdue : o.who.user = owner ∧ (∀ d ∈ pre, ¬d.Speaks owner) ∧ w.title? uid = some defaultTitle
    · refine ⟨[Title.prompt o.text], ?_, Nat.le_refl _, fun hall => ?_⟩
      · rw [(hd.1 hdue).prompts, hasked, hnone hdue.2.1, List.append_nil]
      · exact absurd hdue.1 (hall (.turn o) (List.mem_append_right _ List.mem_cons_self))
    · exact hstill (hd.2 hdue).1

/-- **A session is named once**: over all turns and requests for titles since it was made, whatever the model answers and
however its messages are compacted, the model is asked for at most one title.  The one that may ask is the owner's first
turn, and it does if the session has the default title then: it asks with its text, and the session has the title that the
reply gives, or stays as it was.  No other turn asks for a title or changes it, and no other request asks for one. -/
theorem run_names_once {w₀ w : World} {owner : Int} {title : String} {s : Session} (hw : w₀.Steady) (ht : w₀.chats.Sound)
    (hbelongs : ∀ m ∈ w₀.chats.messages, ∃ x ∈ w₀.chats.sessions, x.id = m.session)
    (hmade : World.addSession owner title w₀ = (.ok (some s), w)) (hfits : fitsColumn s.id = true) (ds : List Deed)
    (hds : ∀ d ∈ ds, d.Regular) :
    (∃ asked, ((Deed.machine s.uid w).run ds).titlePrompts = w.titlePrompts ++ asked ∧ asked.length ≤ 1) ∧
      ∀ pre d post, ds = pre ++ d :: post →
        (∃ old, ((Deed.machine s.uid w).run pre).title? s.uid = some old) ∧
          d.Does s.owner s.uid pre ((Deed.machine s.uid w).run pre) ((Deed.machine s.uid w).run (pre ++ [d])) := by
  have hstep {pre post : List Deed} {d : Deed} (hpre : ds = pre ++ d :: post)
      (h : Held s pre ((Deed.machine s.uid w).run pre)) :
      Held s (pre ++ [d]) ((Deed.machine s.uid w).run (pre ++ [d])) ∧
        d.Does s.owner s.uid pre ((Deed.machine s.uid w).run pre) ((Deed.machine s.uid w).run (pre ++ [d])) := by
    rw [Machine.run_concat]
    exact h.step hfits (hds d (hpre ▸ List.mem_append_right pre List.mem_cons_self))
  have hmoments : ∀ pre post, ds = pre ++ post →
      Held s pre ((Deed.machine s.uid w).run pre) ∧ AskedOnce s.owner w pre ((Deed.machine s.uid w).run pre) := by
    refine beginnings_induction ⟨.of_made hw ht hbelongs hmade, [], (List.append_nil _).symm, Nat.zero_le _, fun _ => rfl⟩ ?_
    intro pre d post hpre ih
    obtain ⟨hheld, hdoes⟩ := hstep hpre ih.1
    exact ⟨hheld, ih.2.step hdoes⟩
  refine ⟨?_, fun pre d post hpre => ?_⟩
  · obtain ⟨asked, hasked, hone, -⟩ := (hmoments ds [] (List.append_nil ds).symm).2
    exact ⟨asked, hasked, hone⟩
  · have hheld := (hmoments pre (d :: post) hpre).1
    obtain ⟨x, hx, -⟩ := hheld.there
    exact ⟨⟨x.title, by rw [World.title?, hx]; rfl⟩, (hstep hpre hheld).2⟩

/-- A model that answers the first request for a title with quotes alone, and no sessions yet. -/
def quotesAlone : World :=
  { newSession with
    chats := .empty
    model := .fresh (.always "yes") (.always "in short") ⟨[.text "\"\""], fun _ => .text "Chat", 0⟩ }

/-- Turns whose compaction keeps no message, and requests for other titles between them. -/
def emptyingDeeds : List Deed :=
  let turn (text : String) : Deed := .turn ⟨9, { policy := ⟨0, 0⟩ }, { user := 1, indexed := false }, text⟩
  let mine : Deed := .rename 9 1 (Json.pieces "Mine")
  [turn "hello", turn "again", mine, .rename 9 1 (Json.pieces "New Chat"), turn "well?"]

theorem run_names_once_emptyingDeeds :
    let s : Session := ⟨1, "00000001", 1, defaultTitle, "", 5, 5⟩
    let w := (World.addSession 1 defaultTitle quotesAlone).2
    (World.addSession 1 defaultTitle quotesAlone).1 = .ok (some s) ∧
    ((Deed.machine s.uid w).run emptyingDeeds).titlePrompts = [Title.prompt "hello"] ∧
    (((Deed.machine s.uid w).run (emptyingDeeds.take 2)).chats.live s.id).map (·.content) = ["again", "yes"] ∧
    ((Deed.machine s.uid w).run (emptyingDeeds.take 2)).title? s.uid = some defaultTitle ∧
    ((Deed.machine s.uid w).run (emptyingDeeds.take 3)).title? s.uid = some "Mine" ∧
    ∀ pre d post, emptyingDeeds = pre ++ d :: post →
      (∃ old, ((Deed.machine s.uid w).run pre).title? s.uid = some old) ∧
        d.Does s.owner s.uid pre ((Deed.machine s.uid w).run pre) ((Deed.machine s.uid w).run (pre ++ [d])) := by
  intro s w
  have hmade : (World.addSession 1 defaultTitle quotesAlone).1 = .ok (some s) := by decide +kernel
  have hsteady : quotesAlone.Steady := fun _ _ => rfl
  have hregular : ∀ d ∈ emptyingDeeds, d.Regular := by
    simp [emptyingDeeds, Deed.Regular, fitsColumn]
  exact ⟨hmade, by decide +kernel, by decide +kernel, by decide +kernel, by decide +kernel,
    (run_names_once hsteady Table.sound_empty (List.forall_mem_nil _) (Prod.ext hmade rfl) (by decide) emptyingDeeds
      hregular).2⟩

end Chat
end NoteAgent
