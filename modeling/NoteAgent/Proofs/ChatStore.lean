import NoteAgent.Proofs.SummaryTransaction
/-!
# ChatStore — what each use of the chat store comes to

A use of the chat store touches the chats, the count of its uses and the number for the next id, and nothing else
(`Beside`).  Here each one is taken apart once, for any faults: what it answers, and what the tables are afterwards.  With
no faults (`Steady`) a summary is stored exactly when storing it answers with the session.
-/
namespace NoteAgent
namespace World

open Attempt (Ends Keeps)
open Chat (Message Session Table)

/-- Everything but the chats, the uses of their store and the number for the next id is as it was. -/
structure Beside (w w' : World) : Prop where
  clock : w'.clock = w.clock
  notes : w'.notes = w.notes
  index : w'.index = w.index
  model : w'.model = w.model
  strikes : w'.chatFaults.strikes = w.chatFaults.strikes

/-- What strikes the chat store is the same, and no prompt is forgotten. -/
structure Onward (w w' : World) : Prop where
  strikes : w'.chatFaults.strikes = w.chatFaults.strikes
  prompts : w.model.prompts <+: w'.model.prompts

theorem Onward.refl (w : World) : Onward w w := ⟨rfl, List.prefix_rfl⟩

theorem Onward.trans {w w' w'' : World} (h : Onward w w') (h' : Onward w' w'') : Onward w w'' :=
  ⟨h'.strikes.trans h.strikes, h.prompts.trans h'.prompts⟩

theorem Beside.onward {w w' : World} (h : Beside w w') : Onward w w' := ⟨h.strikes, h.model ▸ List.prefix_rfl⟩

/-- No fault ever strikes the chat store. -/
def Steady (w : World) : Prop := ∀ n m, w.chatFaults.strikes n m = none

theorem Steady.of_strikes {w w' : World} (hw : w.Steady) (h : w'.chatFaults.strikes = w.chatFaults.strikes) :
    w'.Steady := fun n m => by rw [h]; exact hw n m

/-- The world once a method of the chat store has been used. -/
def chatUsed (w : World) : World := { w with chatFaults := { w.chatFaults with uses := w.chatFaults.uses + 1 } }

theorem beside_chatUsed (w : World) : Beside w w.chatUsed := ⟨rfl, rfl, rfl, rfl, rfl⟩

theorem chatMethod_run {α : Type} (m : Chat.Method) (t : Attempt World α) (w : World) :
    chatMethod m t w = match w.chatFaults.strikes w.chatFaults.uses m with
      | some (.breaks text) => (.error (.broken text), w.chatUsed)
      | some .silent => (.ok none, w.chatUsed)
      | none => (some <$> t) w.chatUsed := rfl

theorem chatMethod_steady {α : Type} {w : World} (hw : w.Steady) (m : Chat.Method) (t : Attempt World α) :
    chatMethod m t w = (some <$> t) w.chatUsed := by rw [chatMethod_run, hw]

theorem chatMethod_ne_none {α : Type} {w : World} (hw : w.Steady) (m : Chat.Method) (t : Attempt World α) :
    (chatMethod m t w).1 ≠ .ok none := by
  rw [chatMethod_steady hw, Attempt.map_run]
  intro h
  cases hr : (t w.chatUsed).1 with
  | error e =>
    rw [hr] at h
    cases h
  | ok a =>
    rw [hr] at h
    cases h

theorem chatMethod_ends {α : Type} {m : Chat.Method} {t : Attempt World α} {w : World}
    {Q : Except Failure (Option α) → World → Prop} (broken : ∀ text, Q (.error (.broken text)) w.chatUsed)
    (silent : Q (.ok none) w.chatUsed) (ran : Ends t w.chatUsed fun r w' => Q (r.map some) w') :
    Ends (chatMethod m t) w Q := by
  unfold Ends
  rw [chatMethod_run]
  split
  · exact broken _
  · exact silent
  · rw [Attempt.map_run]
    exact ran

/-! ## Reading -/

theorem messagesOf_ends (session : Int) (w : World) :
    Ends (messagesOf session) w fun r w' => w' = w.chatUsed ∧ ∀ ms, r = .ok (some ms) → ms = w.chats.live session := by
  refine chatMethod_ends (fun _ => ⟨rfl, fun _ h => by cases h⟩) ⟨rfl, fun _ h => by cases h⟩ ⟨rfl, fun ms h => ?_⟩
  change (w.chats.messagesOf session).map some = _ at h
  unfold Table.messagesOf at h
  cases hc : checkColumns [session] with
  | error e => rw [hc] at h; cases h
  | ok u => rw [hc] at h; cases h; rfl

theorem findSession_run (uid : String) (w : World) :
    findSession uid w = (match w.chatFaults.strikes w.chatFaults.uses .findSession with
      | some (.breaks text) => .error (.broken text)
      | some .silent => .ok none
      | none => .ok (w.chats.session? uid), w.chatUsed) := by
  unfold findSession
  rw [Attempt.bind_run, chatMethod_run]
  cases w.chatFaults.strikes w.chatFaults.uses .findSession with
  | none => rfl
  | some f => cases f <;> rfl

theorem findSession_ends (uid : String) (w : World) :
    Ends (findSession uid) w fun r w' => w' = w.chatUsed ∧ ∀ s, r = .ok (some s) → w.chats.session? uid = some s := by
  unfold Ends
  rw [findSession_run]
  refine ⟨rfl, fun s hs => ?_⟩
  cases hf : w.chatFaults.strikes w.chatFaults.uses .findSession with
  | none =>
    rw [hf] at hs
    exact Except.ok.inj hs
  | some f =>
    rw [hf] at hs
    cases f <;> cases hs

theorem sessionsOf_ends (owner : Int) (w : World) : Ends (sessionsOf owner) w fun _ w' => w' = w.chatUsed :=
  chatMethod_ends (fun _ => rfl) rfl rfl

/-! ## Writing -/

theorem addSession_ends (owner : Int) (title : String) (w : World) :
    Ends (addSession owner title) w fun _ w' => Beside w w' ∧ (w'.chats = w.chats ∨
      ∃ uid s, w.chats.addSession uid owner title w.clock = .ok (s, w'.chats)) := by
  refine chatMethod_ends (fun _ => ⟨beside_chatUsed w, .inl rfl⟩) ⟨beside_chatUsed w, .inl rfl⟩ ?_
  refine Ends.next (a := w.nextId) rfl (Ends.look ?_)
  simp only [Ends, onChats]
  split
  · rename_i s t h
    exact ⟨⟨rfl, rfl, rfl, rfl, rfl⟩, .inr ⟨_, s, h⟩⟩
  · exact ⟨⟨rfl, rfl, rfl, rfl, rfl⟩, .inl rfl⟩

theorem removeSession_ends (uid : String) (w : World) :
    Ends (removeSession uid) w fun _ w' => Beside w w' ∧
      (w'.chats = w.chats ∨ w'.chats = w.chats.eraseSession uid) :=
  chatMethod_ends (fun _ => ⟨beside_chatUsed w, .inl rfl⟩) ⟨beside_chatUsed w, .inl rfl⟩
    ⟨⟨rfl, rfl, rfl, rfl, rfl⟩, .inr rfl⟩

theorem addMessage_ends (session : Int) (role content toolName : String) (w : World) :
    Ends (addMessage session role content toolName) w fun _ w' => Beside w w' ∧ (w'.chats = w.chats ∨
      ∃ m, w.chats.addMessage session role content toolName w.clock = .ok (m, w'.chats)) := by
  refine chatMethod_ends (fun _ => ⟨beside_chatUsed w, .inl rfl⟩) ⟨beside_chatUsed w, .inl rfl⟩ ?_
  unfold Ends
  rw [Attempt.bind_run_ok (Attempt.look_run _ _)]
  simp only [onChats]
  split
  · rename_i m t h
    exact ⟨⟨rfl, rfl, rfl, rfl, rfl⟩, .inr ⟨m, h⟩⟩
  · exact ⟨beside_chatUsed w, .inl rfl⟩

/-- A statement without an answer is carried out, or breaks off with nothing done. -/
theorem onChats_ends (f : Table → Except Failure Table) (w : World) :
    Ends (onChats fun t => do return ((), ← f t)) w fun r w' =>
      (∃ e, r = .error e ∧ w' = w) ∨ (r = .ok () ∧ ∃ t, f w.chats = .ok t ∧ w' = { w with chats := t }) := by
  simp only [Ends, onChats]
  cases f w.chats with
  | error e => exact .inl ⟨e, rfl, rfl⟩
  | ok t => exact .inr ⟨rfl, t, rfl, rfl⟩

theorem reviseSession_ends (uid : String) (title summary : Option String) (w : World) :
    Ends (reviseSession uid title summary) w fun _ w' => Beside w w' ∧ (w'.chats = w.chats ∨
      w.chats.revise uid title summary w.clock = .ok w'.chats) := by
  refine Ends.bind (P := fun _ w' => Beside w w' ∧ (w'.chats = w.chats ∨
    w.chats.revise uid title summary w.clock = .ok w'.chats)) ?_ (fun _ _ h => h) fun _ _ h => h
  refine chatMethod_ends (fun _ => ⟨beside_chatUsed w, .inl rfl⟩) ⟨beside_chatUsed w, .inl rfl⟩ ?_
  refine Ends.look ((onChats_ends _ w.chatUsed).bind (fun _ w' h => ?_) fun e w' h => ?_)
  · obtain ⟨e, he, -⟩ | ⟨-, t, ht, rfl⟩ := h
    · cases he
    · refine (findSession_ends uid _).mono fun r w' h => ?_
      rw [h.1]
      exact ⟨⟨rfl, rfl, rfl, rfl, rfl⟩, .inr ht⟩
  · obtain ⟨-, -, rfl⟩ | ⟨he, -⟩ := h
    · exact ⟨beside_chatUsed w, .inl rfl⟩
    · cases he

/-- Storing a summary gets as far as the commit, which makes these the tables. -/
structure Commits (strikes : Chat.Strikes) (uid summary : String) (bound : Int) (w : World) (t : Table) : Prop where
  used : w.chatFaults.strikes w.chatFaults.uses .fold = none
  unstruck : ∀ st, strikes st = none
  compact : w.chats.compact uid summary bound w.clock = .ok t

/-- What strikes the reading of a session once one more method was used. -/
def rereadFault? (w : World) : Option Fault := w.chatFaults.strikes (w.chatFaults.uses + 1) .findSession

theorem connected_ends (strikes : Chat.Strikes) (uid summary : String) (bound now : Int) (w : World) :
    Ends (connected (Chat.Connection.transact strikes (Chat.Connection.fold strikes uid summary bound now))) w fun r w' =>
      (r = .ok () ∧ (∀ st, strikes st = none) ∧
        ∃ t, w.chats.compact uid summary bound now = .ok t ∧ w' = { w with chats := t }) ∨
      (∃ e, r = .error e) ∧ w' = w ∧
        ¬((∀ st, strikes st = none) ∧ ∃ t, w.chats.compact uid summary bound now = .ok t) := by
  have h := Chat.Connection.transact_fold strikes uid summary bound now w.chats
  unfold Ends connected at *
  rw [Attempt.on_run]
  obtain ⟨hr, hs, hc⟩ | ⟨he, hc, hno⟩ := h
  · exact .inl ⟨hr, hs, _, hc, rfl⟩
  · exact .inr ⟨he, by rw [hc], hno⟩

/-- Reading a session that is there gives it, unless the reading is struck. -/
theorem reread_ends {uid : String} {w : World} {s : Session} (hs : w.chats.session? uid = some s) :
    Ends (do match ← findSession uid with
      | some s => return s
      | none => .fail (.noSession uid)) w fun r w' => w' = w.chatUsed ∧
        ((∃ f, w.chatFaults.strikes w.chatFaults.uses .findSession = some f ∧ ∃ e, r = .error e) ∨
          w.chatFaults.strikes w.chatFaults.uses .findSession = none ∧ r = .ok s) := by
  unfold Ends
  rw [Attempt.bind_run, findSession_run]
  cases hf : w.chatFaults.strikes w.chatFaults.uses .findSession with
  | none =>
    dsimp only
    rw [hs]
    exact ⟨rfl, .inr ⟨rfl, rfl⟩⟩
  | some f => cases f <;> exact ⟨rfl, .inl ⟨_, rfl, _, rfl⟩⟩

/-- **A summary is stored and the messages are dropped, or neither**; where they are, the answer is the session, unless
the reading of it is struck. -/
theorem foldHistoryUnder_ends (strikes : Chat.Strikes) (uid summary : String) (bound : Int) (w : World) :
    Ends (foldHistoryUnder strikes uid summary bound) w fun r w' => Beside w w' ∧
      ((w'.chats = w.chats ∧ (∀ s, r ≠ .ok (some s)) ∧ ∀ t, ¬Commits strikes uid summary bound w t) ∨
        Commits strikes uid summary bound w w'.chats ∧
          ((∃ f, w.rereadFault? = some f ∧ ∃ e, r = .error e) ∨
            w.rereadFault? = none ∧ ∃ s, r = .ok (some s) ∧ w'.chats.session? uid = some s)) := by
  have hstruck {f : Fault} (hf : w.chatFaults.strikes w.chatFaults.uses .fold = some f) (t : Table) :
      ¬Commits strikes uid summary bound w t := fun h => by
    have := h.used
    rw [hf] at this
    cases this
  unfold Ends foldHistoryUnder
  rw [chatMethod_run]
  cases hused : w.chatFaults.strikes w.chatFaults.uses .fold with
  | some f =>
    cases f <;> exact ⟨beside_chatUsed w, .inl ⟨rfl, (fun _ h => by cases h), hstruck hused⟩⟩
  | none =>
    dsimp only
    rw [Attempt.map_run]
    refine Ends.look (Q := fun r w' => Beside w w' ∧
      ((w'.chats = w.chats ∧ (∀ s, r.map some ≠ .ok (some s)) ∧ ∀ t, ¬Commits strikes uid summary bound w t) ∨
        Commits strikes uid summary bound w w'.chats ∧
          ((∃ f, w.rereadFault? = some f ∧ ∃ e, r.map some = .error e) ∨
            w.rereadFault? = none ∧ ∃ s, r.map some = .ok (some s) ∧ w'.chats.session? uid = some s))) ?_
    refine (connected_ends strikes uid summary bound _ w.chatUsed).bind (fun _ w' h => ?_) fun e w' h => ?_
    · obtain ⟨-, hs, t, ht, rfl⟩ | ⟨⟨e, he⟩, -⟩ := h
      · obtain ⟨s, hfound, -⟩ := Table.compact_ok ht
        have hcommits : Commits strikes uid summary bound w t := ⟨hused, hs, ht⟩
        refine (reread_ends (w := { w.chatUsed with chats := t }) (Table.session?_compact hfound ht)).mono fun r w' h => ?_
        obtain ⟨rfl, ⟨f, hf, e, rfl⟩ | ⟨hf, rfl⟩⟩ := h
        · exact ⟨⟨rfl, rfl, rfl, rfl, rfl⟩, .inr ⟨hcommits, .inl ⟨f, hf, e, rfl⟩⟩⟩
        · exact ⟨⟨rfl, rfl, rfl, rfl, rfl⟩, .inr ⟨hcommits, .inr ⟨hf, _, rfl, Table.session?_compact hfound ht⟩⟩⟩
      · cases he
    · obtain ⟨hr, -⟩ | ⟨-, rfl, hno⟩ := h
      · cases hr
      · exact ⟨beside_chatUsed w, .inl ⟨rfl, (fun _ h => by cases h), fun t h => hno ⟨h.unstruck, t, h.compact⟩⟩⟩

/-- The same where no statement is struck: the answer is a session only if the summary is stored, and without faults it is
one if it is. -/
theorem foldHistory_ends (uid summary : String) (bound : Int) (w : World) :
    Ends (foldHistory uid summary bound) w fun r w' => Beside w w' ∧
      ((w'.chats = w.chats ∧ ∀ s, r ≠ .ok (some s)) ∨
        (w.chats.compact uid summary bound w.clock = .ok w'.chats ∧
          (∀ s, r = .ok (some s) → w'.chats.session? uid = some s) ∧ (w.Steady → ∃ s, r = .ok (some s)))) := by
  refine (foldHistoryUnder_ends Chat.unstruck uid summary bound w).mono fun r w' h => ⟨h.1, ?_⟩
  obtain ⟨hsame, hno, -⟩ | ⟨hc, ⟨f, hf, e, rfl⟩ | ⟨-, s, rfl, hs⟩⟩ := h.2
  · exact .inl ⟨hsame, hno⟩
  · refine .inr ⟨hc.compact, (fun _ h => by cases h), fun hw => ?_⟩
    rw [rereadFault?, hw] at hf
    cases hf
  · refine .inr ⟨hc.compact, fun x hx => ?_, fun _ => ⟨s, rfl⟩⟩
    cases hx
    exact hs

end World
end NoteAgent
