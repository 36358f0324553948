import NoteAgent.Proofs.TurnReach
/-!
# TurnSpeech — what a turn says in its session where the store does not fail

Where no fault strikes the chat store, and the session is there under a number that fits, a message that is well formed is
stored.  So the part of a turn that stores something adds just the messages that it is to store, in order, and nothing else
that it does adds any (`Says`).
-/
namespace NoteAgent
namespace Chat

/-- What a message says: its role, its content, and the tool that it is of. -/
def Message.line (m : Message) : String × String × String := (m.role, m.content, m.toolName)

theorem Table.addMessage_eq {t : Table} {session now : Int} {role toolName : String} (content : String)
    (hrole : isRole role = true) (hname : (role == toolRole) = !toolName.isEmpty)
    (hfits : checkColumns [session, now] = .ok ()) (hhere : ∃ s ∈ t.sessions, s.id = session) :
    ∃ m t', t.addMessage session role content toolName now = .ok (m, t') ∧ m.line = (role, content, toolName) := by
  have hany : t.sessions.any (·.id == session) = true := by simpa using hhere
  let m : Message := ⟨t.lastMessage + 1, session, role, content, toolName, content.length / charsPerToken, now⟩
  refine ⟨m, { t with messages := t.messages ++ [m], lastMessage := m.id }, ?_, rfl⟩
  unfold addMessage
  rw [if_neg (by simp [hrole]), if_neg (by simp [hname]), hfits]
  exact if_pos hany

end Chat

namespace World

open Attempt (Keeps)
open Chat (Message Session Table)

/-- The clock, what strikes the chat store and the turns of the model are as they were. -/
structure Unturned (w w' : World) : Prop where
  clock : w'.clock = w.clock
  strikes : w'.chatFaults.strikes = w.chatFaults.strikes
  model : w.model.Unturned w'.model

theorem Unturned.refl (w : World) : Unturned w w := ⟨rfl, rfl, .refl _⟩

theorem Unturned.trans {w w' w'' : World} (h : Unturned w w') (h' : Unturned w' w'') : Unturned w w'' :=
  ⟨h'.clock.trans h.clock, h'.strikes.trans h.strikes, h.model.trans h'.model⟩

instance : Std.Refl Unturned := ⟨Unturned.refl⟩
instance : Trans Unturned Unturned Unturned := ⟨Unturned.trans⟩

theorem Beside.unturned {w w' : World} (h : Beside w w') : Unturned w w' := ⟨h.clock, h.strikes, h.model ▸ .refl _⟩

theorem unturned_complete {p : Model.Purpose} (hp : p ≠ .turn) (prompt : String) :
    Keeps Unturned (asking (Model.Client.complete p prompt)) := fun w => by
  refine ⟨rfl, rfl, rfl, ?_⟩
  change (if Model.Purpose.turn = p then _ else w.model.supply .turn) = w.model.supply .turn
  rw [if_neg hp.symm]

/-- Messages that say `lines` have been added to the session, and the rest is as a turn needs it. -/
structure Says (session : Int) (lines : List (String × String × String)) (w w' : World) : Prop where
  unturned : Unturned w w'
  grows : Table.Grows session w.chats w'.chats
  lines : ∀ added, w'.chats.messages = w.chats.messages ++ added → added.map Message.line = lines

namespace Says

variable {session : Int} {lines more : List (String × String × String)} {w w' w'' : World}

theorem of_messages (h : Unturned w w') (hg : Table.Grows session w.chats w'.chats)
    (hsame : w'.chats.messages = w.chats.messages) : Says session [] w w' :=
  ⟨h, hg, fun added hadded => by rw [List.append_right_eq_self.1 (hadded.symm.trans hsame), List.map_nil]⟩

theorem of_chats (h : Unturned w w') (hsame : w'.chats = w.chats) : Says session [] w w' :=
  .of_messages h (hsame ▸ Table.Grows.refl session w.chats) (by rw [hsame])

theorem refl (session : Int) (w : World) : Says session [] w w := .of_chats (.refl w) rfl

theorem trans (h : Says session lines w w') (h' : Says session more w' w'') : Says session (lines ++ more) w w'' := by
  refine ⟨h.unturned.trans h'.unturned, h.grows.trans h'.grows, fun added hadded => ?_⟩
  obtain ⟨first, hfirst, -⟩ := h.grows.messages
  obtain ⟨later, hlater, -⟩ := h'.grows.messages
  have hparts : added = first ++ later :=
    List.append_cancel_left (hadded.symm.trans (by rw [hlater, hfirst, List.append_assoc]))
  rw [hparts, List.map_append, h.lines first hfirst, h'.lines later hlater]

instance : Std.Refl (Says session []) := ⟨Says.refl session⟩
instance : Trans (Says session []) (Says session []) (Says session []) := ⟨Says.trans⟩

/-- The session has the messages that were said after those that it had. -/
theorem live (h : Says session lines w w') : ∃ added, w'.chats.live session = w.chats.live session ++ added ∧
    added.map Message.line = lines := by
  obtain ⟨added, hadded, hsession, -⟩ := h.grows.messages
  exact ⟨added, Table.live_append hadded hsession, h.lines added hadded⟩

end Says

/-- The session can be added to: no fault strikes, it is there, and its number and the time fit the columns. -/
structure Able (session : Int) (w : World) : Prop where
  steady : w.Steady
  here : ∃ s ∈ w.chats.sessions, s.id = session
  fits : fitsColumn session = true
  time : fitsColumn w.clock = true

variable {session : Int} {lines : List (String × String × String)} {w w' : World}

theorem Says.able (h : Says session lines w w') (ha : w.Able session) : w'.Able session := by
  obtain ⟨f, hf, -, hsessions⟩ := h.grows.sessions
  obtain ⟨s, hs, hid⟩ := ha.here
  refine ⟨ha.steady.of_strikes h.unturned.strikes, ⟨f s, ?_, (hf s).1.trans hid⟩, ha.fits, ?_⟩
  · rw [hsessions]
    exact List.mem_map_of_mem hs
  · rw [h.unturned.clock]
    exact ha.time

theorem Aside.able (h : Aside w w') (ha : w.Able session) : w'.Able session where
  steady := ha.steady.of_strikes h.onward.strikes
  here := h.chats ▸ ha.here
  fits := ha.fits
  time := h.clock ▸ ha.time

theorem Able.listing (ha : w.Able session) : Chat.listing session w = (.ok (w.chats.live session), w.chatUsed) := by
  have hlist : w.chatUsed.chats.messagesOf session = .ok (w.chats.live session) := by
    rw [Table.messagesOf, checkColumns, if_pos (by simp [ha.fits])]
    rfl
  have hmessages : messagesOf session w = (.ok (some (w.chats.live session)), w.chatUsed) := by
    unfold messagesOf
    rw [chatMethod_steady ha.steady, Attempt.map_run, Attempt.bind_run_ok (Attempt.look_run _ _), Attempt.ofExcept_run,
      hlist]
    rfl
  exact Attempt.bind_run_ok hmessages

/-! ## Messages -/

theorem says_addMessage (ha : w.Able session) {role toolName : String} (content : String)
    (hrole : Chat.isRole role = true) (hname : (role == Chat.toolRole) = !toolName.isEmpty) :
    Says session [(role, content, toolName)] w (addMessage session role content toolName w).2 := by
  have hfits : checkColumns [session, w.clock] = .ok () := by
    rw [checkColumns, if_pos (by simp [ha.fits, ha.time])]
  obtain ⟨m, t', hadd, hline⟩ := Table.addMessage_eq content hrole hname hfits ha.here
  have hrun : addMessage session role content toolName w = (.ok (some m), { w.chatUsed with chats := t' }) := by
    have hadd' : w.chatUsed.chats.addMessage session role content toolName w.chatUsed.clock = .ok (m, t') := hadd
    unfold addMessage
    rw [chatMethod_steady ha.steady, Attempt.map_run, Attempt.bind_run_ok (Attempt.look_run _ _), onChats, hadd']
    rfl
  rw [hrun]
  refine ⟨⟨rfl, rfl, .refl _⟩, Table.grows_addMessage hadd, fun added hadded => ?_⟩
  obtain ⟨-, -, rfl⟩ := Table.addMessage_ok hadd
  rw [← List.append_cancel_left hadded, List.map_singleton, hline]

theorem says_nameless (w : World) (content : String) :
    Says session [] w (addMessage session Chat.toolRole content "" w).2 := by
  obtain ⟨hbeside, hsame | ⟨m, hm⟩⟩ := addMessage_ends session Chat.toolRole content "" w
  · exact .of_chats hbeside.unturned hsame
  · cases hm

theorem keeps_reviseSession (uid : String) (title : Option String) :
    Keeps (Says session []) (reviseSession uid title none) := fun w => by
  obtain ⟨hbeside, hsame | hrevised⟩ := reviseSession_ends uid title none w
  · exact .of_chats hbeside.unturned hsame
  · exact .of_messages hbeside.unturned (Table.grows_revise hrevised) (by rw [Table.revise_ok hrevised])

end World

namespace Chat
namespace Turn

open Attempt (Keeps)
open World (Says Able)

variable {session : Int} {w : World}

/-- What is stored of results: those that have a name, in their order. -/
def resultLines (rs : List Agent.Result) : List (String × String × String) :=
  (rs.filter fun r => !(storedName r.name).isEmpty).map fun r => (toolRole, r.text, storedName r.name)

/-- What is stored of an answer: an empty one is not stored. -/
def answerLines (answer : String) : List (String × String × String) :=
  if answer.isEmpty then [] else [(assistantRole, answer, "")]

theorem says_keepResults (ha : w.Able session) (rs : List Agent.Result) : ∃ w',
    keepResults session rs w = (.ok (), w') ∧ Says session (resultLines rs) w w' := by
  induction rs generalizing w with
  | nil => exact ⟨w, rfl, .refl session w⟩
  | cons r rs ih =>
    have hfirst : Says session (resultLines [r]) w
        (World.addMessage session toolRole r.text (storedName r.name) w).2 := by
      cases hname : (storedName r.name).isEmpty with
      | true =>
        rw [String.isEmpty_iff.1 hname, resultLines]
        simpa [hname] using World.says_nameless w r.text
      | false =>
        have hnamed : (toolRole == toolRole) = !(storedName r.name).isEmpty := by
          rw [hname]
          decide
        simpa [resultLines, hname] using World.says_addMessage ha r.text (by decide) hnamed
    obtain ⟨w', hrun, hlater⟩ := ih (hfirst.able ha)
    refine ⟨w', ?_, ?_⟩
    · exact hrun
    · have hlines : resultLines (r :: rs) = resultLines [r] ++ resultLines rs := by
        rw [resultLines, resultLines, resultLines, ← List.map_append, ← List.filter_append]
        rfl
      rw [hlines]
      exact hfirst.trans hlater

/-- What is stored of an outcome: its results if they are kept, and its answer. -/
def outcomeLines (settings : Settings) (o : Agent.Outcome) : List (String × String × String) :=
  (if settings.keepsResults then resultLines o.results else []) ++ answerLines o.text

/-- **The end of a turn stores what it is to store**, whatever else breaks off. -/
theorem says_conclude (settings : Settings) (who : Tool.Caller) (s : Session) (text : LooseText) (o : Agent.Outcome)
    (ha : w.Able s.id) : Says s.id (outcomeLines settings o) w (conclude settings who s text o w).2 := by
  have hclosing : Keeps (Says s.id []) (closing who s text) :=
    (keeps_sources (fun _ _ => .of_chats ⟨rfl, rfl, .refl _⟩ rfl) who text).bind fun _ =>
      (World.keeps_reviseSession _ _).ignore.bind fun _ => .done _
  have hresults : ∃ w₁, (if settings.keepsResults then keepResults s.id o.results else .done ()) w = (.ok (), w₁) ∧
      Says s.id (if settings.keepsResults then resultLines o.results else []) w w₁ := by
    split
    · exact says_keepResults ha o.results
    · exact ⟨w, rfl, .refl s.id w⟩
  obtain ⟨w₁, hrun, hstored⟩ := hresults
  have hanswer : ∃ w₂, (if o.text.isEmpty then .done () else
        (World.addMessage s.id assistantRole o.text "").ignore : Attempt World Unit) w₁ = (.ok (), w₂) ∧
      Says s.id (answerLines o.text) w₁ w₂ := by
    unfold answerLines
    split
    · exact ⟨w₁, rfl, .refl s.id w₁⟩
    · exact ⟨_, rfl, World.says_addMessage (hstored.able ha) o.text (by decide) (by decide)⟩
  obtain ⟨w₂, hrun', hstored'⟩ := hanswer
  rw [conclude_eq, Attempt.bind_run_ok hrun, Attempt.bind_run_ok hrun']
  have hall := (hstored.trans hstored').trans (hclosing w₂)
  rwa [List.append_nil] at hall

end Turn
end Chat
end NoteAgent
