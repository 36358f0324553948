import NoteAgent.Proofs.AgentRounds
import NoteAgent.Proofs.ChatSteps
import NoteAgent.Proofs.ToolReach
/-!
# TurnReach — what a turn does to the chats after its compaction

Once the compaction is over, a turn only adds messages to its session and changes what is no summary (`Growing`), whatever
the model asks for, whatever the tools come to and wherever the turn breaks off.  So the world after a turn has grown from
the one that its steps up to the compaction lead to (`visit_growing`).
-/
namespace NoteAgent
namespace World

open Attempt (Ends Keeps)
open Chat (Message Session Table)

/-- The chats have grown in a session, and what strikes their store and was asked of the model is still there. -/
structure Growing (session : Int) (w w' : World) : Prop where
  onward : w.Onward w'
  grows : Table.Grows session w.chats w'.chats

variable {session : Int}

theorem Growing.of_same {w w' : World} (h : w.Onward w') (hc : w'.chats = w.chats) : Growing session w w' :=
  ⟨h, hc ▸ Table.Grows.refl session w.chats⟩

theorem Growing.refl (w : World) : Growing session w w := .of_same (.refl w) rfl

theorem Growing.trans {w w' w'' : World} (h : Growing session w w') (h' : Growing session w' w'') :
    Growing session w w'' := ⟨h.onward.trans h'.onward, h.grows.trans h'.grows⟩

instance : Std.Refl (Growing session) := ⟨Growing.refl⟩
instance : Trans (Growing session) (Growing session) (Growing session) := ⟨Growing.trans⟩

/-- The clock and the chats are as they were, and no prompt is forgotten. -/
structure Aside (w w' : World) : Prop where
  clock : w'.clock = w.clock
  chats : w'.chats = w.chats
  onward : w.Onward w'

theorem Aside.refl (w : World) : Aside w w := ⟨rfl, rfl, .refl w⟩

theorem Aside.trans {w w' w'' : World} (h : Aside w w') (h' : Aside w' w'') : Aside w w'' :=
  ⟨h'.clock.trans h.clock, h'.chats.trans h.chats, h.onward.trans h'.onward⟩

instance : Std.Refl Aside := ⟨Aside.refl⟩
instance : Trans Aside Aside Aside := ⟨Aside.trans⟩

theorem Spares.aside {user : Int} {w w' : World} (h : Spares user w w') : Aside w w' :=
  ⟨h.clock, h.chats, by rw [h.chatFaults], h.model ▸ List.prefix_rfl⟩

theorem Aside.growing {w w' : World} (h : Aside w w') : Growing session w w' := .of_same h.onward h.chats

theorem aside_indexed {α : Type} (t : Attempt Vector.Index α) : Keeps Aside (indexed t) := fun _ =>
  ⟨rfl, rfl, rfl, List.prefix_rfl⟩

theorem aside_asking {α : Type} {t : Attempt Model.Client α} (ht : ∀ c, c.prompts <+: (t c).2.prompts) :
    Keeps Aside (asking t) := fun w => ⟨rfl, rfl, rfl, ht w.model⟩

theorem addLoose_pieces (session : Int) (role content toolName : String) :
    addLoose session role (Json.pieces content) toolName = addMessage session role content toolName := by
  rw [addLoose, Json.text?_pieces]

/-- What a use of the chat store keeps and the storing of every text keeps, the storing of what may be none keeps. -/
theorem keeps_addLoose {R : World → World → Prop} {role toolName : String} (hused : ∀ w : World, R w w.chatUsed)
    (hadd : ∀ content, Keeps R (addMessage session role content toolName)) (content : LooseText) :
    Keeps R (addLoose session role content toolName) := fun w => by
  unfold addLoose
  cases Json.text? content with
  | some content => exact hadd content w
  | none => exact chatMethod_ends (Q := fun _ w' => R w w') (fun _ => hused w) (hused w) (hused w)

theorem growing_addMessage (role content toolName : String) :
    Keeps (Growing session) (addMessage session role content toolName) := fun w => by
  obtain ⟨hb, hsame | ⟨m, hm⟩⟩ := addMessage_ends session role content toolName w
  · exact .of_same hb.onward hsame
  · exact ⟨hb.onward, Table.grows_addMessage hm⟩

theorem growing_reviseSession (uid : String) (title : Option String) :
    Keeps (Growing session) (reviseSession uid title none) := fun w => by
  obtain ⟨hb, hsame | hrevised⟩ := reviseSession_ends uid title none w
  · exact .of_same hb.onward hsame
  · exact ⟨hb.onward, Table.grows_revise hrevised⟩

end World

/-- **However many rounds the agent goes**, the chats are as they were. -/
theorem Agent.aside_run (who : Tool.Caller) (maxRounds : Int) (entries : List Model.Entry) :
    Attempt.Keeps World.Aside (run who maxRounds entries) :=
  keeps_runWith (fun name arguments => (Tool.keeps_dispatch who name arguments).mono World.Spares.aside)
    (fun _ => World.aside_asking fun _ => List.prefix_rfl) maxRounds entries

namespace Chat
namespace Turn

open Attempt (Ends Keeps)
open World (Growing)

variable {session : Int}

theorem keeps_sources {R : World → World → Prop} [Std.Refl R] [Trans R R R]
    (hindexed : ∀ {α : Type} (t : Attempt Vector.Index α), Keeps R (World.indexed t)) (who : Tool.Caller)
    (text : LooseText) : Keeps R (sources who text) := by
  unfold sources
  split
  · exact .done _
  · refine (hindexed _).settle.bind fun found => ?_
    cases found with
    | error e => exact .done _
    | ok hits => exact .ofExcept _

/-- The end of a turn once its messages are stored: sources are named and the session is touched. -/
def closing (who : Tool.Caller) (s : Session) (text : LooseText) : Attempt World (List Event) := do
  let found ← sources who text
  (World.reviseSession s.uid none none).ignore
  return found

theorem conclude_eq (settings : Settings) (who : Tool.Caller) (s : Session) (text : LooseText) (o : Agent.Outcome) :
    conclude settings who s text o =
      (if settings.keepsResults then keepResults s.id o.results else .done ()) >>= fun _ =>
        (if o.text.isEmpty then .done () else (World.addMessage s.id assistantRole o.text "").ignore) >>= fun _ =>
          closing who s text := by
  unfold conclude
  cases settings.keepsResults <;> cases o.text.isEmpty <;> rfl

/-- What everything that a turn uses the services for after its compaction keeps, the session having the number
`session`. -/
structure UsesKeep (R : World → World → Prop) (session : Int) : Prop where
  used : ∀ w : World, R w w.chatUsed
  addMessage : ∀ role content toolName, Keeps R (World.addMessage session role content toolName)
  touch : ∀ uid, Keeps R (World.reviseSession uid none none)
  indexed : ∀ {α : Type} (t : Attempt Vector.Index α), Keeps R (World.indexed t)
  agent : ∀ who maxRounds entries, Keeps R (Agent.run who maxRounds entries)

namespace UsesKeep

variable {R : World → World → Prop} [Std.Refl R] [Trans R R R] {s : Session}

theorem conclude (h : UsesKeep R s.id) (settings : Settings) (who : Tool.Caller) (text : LooseText) (o : Agent.Outcome) :
    Keeps R (conclude settings who s text o) := by
  rw [conclude_eq]
  refine Keeps.bind ?_ fun _ => Keeps.bind ?_ fun _ =>
    (keeps_sources h.indexed who text).bind fun _ => (h.touch _).ignore.bind fun _ => .done _
  · split
    · exact .each (fun _ => (h.addMessage _ _ _).ignore) _
    · exact .done _
  · split
    · exact .done _
    · exact (h.addMessage _ _ _).ignore

/-- What the uses of the services keep stands between the world in which the user's message is stored and the one at the end
of the turn. -/
theorem goOn_tail (h : UsesKeep R s.id) (settings : Settings) (who : Tool.Caller) (history kept : List Message)
    (text : LooseText) (w : World) :
    R (World.addLoose s.id userRole text "" w).2 (goOn settings who s history kept text w).2 := by
  have hnow : Keeps R World.now := (Keeps.look _).bind fun _ => .ofExcept _
  refine Keeps.tail (World.addLoose s.id userRole text "").ignore (fun _ => hnow.settle.bind fun now => ?_) w
  cases now with
  | error e => exact .done _
  | ok now =>
    refine (h.agent who _ _).bind fun o => ?_
    simp only
    split
    · exact .done _
    · refine (h.conclude settings who text o).settle.bind fun found => ?_
      cases found <;> exact .done _

/-- **What the uses of the services keep, the part of a turn after its compaction keeps.** -/
theorem goOn (h : UsesKeep R s.id) (settings : Settings) (who : Tool.Caller) (history kept : List Message)
    (text : LooseText) : Keeps R (goOn settings who s history kept text) := fun w =>
  Trans.trans (World.keeps_addLoose h.used (h.addMessage _ · _) text w) (h.goOn_tail settings who history kept text w)

end UsesKeep

theorem growing_uses (session : Int) : UsesKeep (Growing session) session where
  used w := .of_same (World.beside_chatUsed w).onward rfl
  addMessage := World.growing_addMessage
  touch _ := World.growing_reviseSession _ _
  indexed t := (World.aside_indexed t).mono World.Aside.growing
  agent who _ _ := (Agent.aside_run who _ _).mono World.Aside.growing

theorem keeps_title {R : World → World → Prop} [Std.Refl R] [Trans R R R]
    (hask : ∀ prompt, Keeps R (World.asking (Model.Client.complete .title prompt)))
    (hrevise : ∀ uid title, Keeps R (World.reviseSession uid (some title) none)) (uid : String) (message : LooseText) :
    Keeps R (Title.find uid message) := by
  have htitle : Keeps R (Title.ask message) := by
    refine (hask _).settle.bind fun reply => ?_
    cases reply <;> exact .done _
  refine htitle.bind fun title => ?_
  cases title with
  | none => exact .done _
  | some title =>
    refine (hrevise _ _).settle.bind fun revised => ?_
    cases revised <;> exact .done _

theorem growing_title (uid : String) (message : LooseText) : Keeps (Growing session) (Title.find uid message) :=
  keeps_title (fun _ => (World.aside_asking fun _ => List.prefix_append _ _).mono World.Aside.growing)
    (fun _ _ => World.growing_reviseSession _ _) uid message

/-! ## Around the compaction -/

/-- The session that a compaction comes back with has the number of the one it was given. -/
theorem fold_id (policy : Compaction.Policy) {s : Session} (ms : List Message) {w : World}
    (hs : w.chats.session? s.uid = some s) :
    Ends (Compaction.fold policy s ms) w fun r _ => ∀ kept s', r = .ok (kept, some s') → s'.id = s.id := by
  cases hn : Compaction.oldCount? policy ms with
  | none =>
    rw [Compaction.fold_none hn]
    rintro kept s' h
    cases h
    rfl
  | some n =>
    rw [Compaction.fold_some hn]
    refine (Compaction.summarise_ends _ w).bind ?_ fun e w' _ kept s' h => by cases h
    rintro text w' ⟨hchats, -⟩
    rw [← hchats] at hs
    refine (Compaction.store_ends s _ _ text w').mono fun r w'' h kept s' hr => ?_
    obtain ⟨-, ⟨-, hno⟩ | ⟨hstored, hread, -⟩⟩ := h
    · exact absurd hr (hno kept s')
    · obtain ⟨x, hx, hid, -⟩ := hstored.session? hs
      cases hx.symm.trans (hread kept s' hr)
      exact hid

theorem compacted_ends (policy : Compaction.Policy) {s : Session} (ms : List Message) {w : World}
    (hs : w.chats.session? s.uid = some s) :
    Ends (compacted policy s ms) w fun r w' => w' = (Compaction.fold policy s ms w).2 ∧
      ∀ kept s', r = .ok (kept, some s') → s'.id = s.id := by
  have hid := fold_id policy ms hs
  unfold Ends at hid ⊢
  unfold compacted
  rw [Attempt.settle_bind_run]
  cases hr : (Compaction.fold policy s ms w).1 with
  | ok r =>
    refine ⟨rfl, fun kept s' h => hid kept s' ?_⟩
    rw [hr]
    exact h
  | error e =>
    by_cases he : Compaction.isFailure e = true
    · simp only [he, if_true]
      refine ⟨rfl, fun kept s' h => ?_⟩
      cases h
      rfl
    · simp only [he]
      exact ⟨rfl, fun kept s' h => by cases h⟩

/-- **After its compaction a turn only adds messages to its session.** -/
theorem attempt_growing (settings : Settings) (who : Tool.Caller) {s : Session} (text : LooseText) {w : World}
    (hs : w.chats.session? s.uid = some s) :
    Growing s.id ((listing s.id >>= Compaction.fold settings.policy s) w).2 (attempt settings who s text w).2 := by
  have hlist : (do World.needList (← World.messagesOf s.id)) = listing s.id := rfl
  have hlisting := Stage.listing_ends s.id w
  unfold Ends at hlisting
  unfold attempt
  rw [hlist, Attempt.settle_bind_run]
  rcases hrun : listing s.id w with ⟨_ | ms, w₁⟩
  · rw [Attempt.bind_run_error hrun]
    exact .refl w₁
  · rw [hrun] at hlisting
    obtain ⟨rfl, -⟩ := hlisting
    rw [Attempt.bind_run_ok hrun]
    obtain ⟨hworld, hid⟩ := compacted_ends settings.policy ms (s := s) (w := w.chatUsed) hs
    simp only
    rw [Attempt.settle_bind_run, hworld]
    rcases hr : (compacted settings.policy s ms w.chatUsed).1 with _ | ⟨kept, _ | s'⟩
    · exact .refl _
    · exact .refl _
    · rw [← hid kept s' hr]
      exact (growing_uses s'.id).goOn settings who ms kept text _

/-- **What the uses of the services keep, a turn keeps** up to its job. -/
theorem keeps_stream {R : World → World → Prop} [Std.Refl R] [Trans R R R] {settings : Settings} {s : Session}
    (hlisting : Keeps R (listing s.id)) (hfold : ∀ ms, Keeps R (Compaction.fold settings.policy s ms))
    (huses : ∀ session, UsesKeep R session) (who : Tool.Caller) (text : LooseText) :
    Keeps R (stream settings who s text) := by
  have hcompacted (ms : List Message) : Keeps R (compacted settings.policy s ms) := by
    refine (hfold ms).settle.bind fun folded => ?_
    cases folded with
    | ok r => exact .done _
    | error e =>
      dsimp only
      split
      · exact .done _
      · exact .fail _
  refine Keeps.bind (hlisting.settle.bind fun listed => ?_) fun _ => .done _
  cases listed with
  | error e => exact .done _
  | ok history =>
    refine (hcompacted history).settle.bind fun folded => ?_
    obtain _ | ⟨kept, _ | s'⟩ := folded
    · exact .done _
    · exact .done _
    · exact (huses s'.id).goOn settings who history kept text

theorem run_growing (settings : Settings) (who : Tool.Caller) (s : Session) (text : LooseText) (w : World) :
    Growing session (attempt settings who s text w).2 (run settings who s text w).2 := by
  have hstream : Growing session (attempt settings who s text w).2 (stream settings who s text w).2 :=
    Keeps.tail _ (fun _ => .done _) w
  refine hstream.trans (Keeps.tail _ (fun account => ?_) w)
  cases account.job with
  | none => exact .done _
  | some job => exact (growing_title _ _).bind fun _ => .done _

/-- **A turn grows from where its compaction leads**, which are the steps of a request that nothing comes between. -/
theorem visit_growing (settings : Settings) (who : Tool.Caller) {uid : String} (text : LooseText) {w : World}
    {s : Session} (hs : w.chats.session? uid = some s) :
    Growing s.id (Request.alone ⟨who.user, uid, settings.policy⟩ w).2 (Http.visit settings who uid text w).2 := by
  have hown := Stage.ownSession_ends who.user uid w
  unfold Ends at hown
  rw [(Request.alone_follows _ w).1, Request.begun, Http.visit]
  rcases hload : Http.ownSession who.user uid w with ⟨_ | s', w₁⟩
  · rw [Attempt.bind_run_error hload, Attempt.bind_run_error hload]
    exact .refl w₁
  · rw [Attempt.bind_run_ok hload, Attempt.bind_run_ok hload]
    rw [hload] at hown
    obtain ⟨rfl, hfound⟩ := hown
    cases hs.symm.trans (hfound s' rfl).1
    obtain ⟨-, rfl⟩ := Table.session?_some hs
    exact (attempt_growing settings who text (w := w.chatUsed) hs).trans (run_growing settings who s text w.chatUsed)

end Turn
end Chat
end NoteAgent
