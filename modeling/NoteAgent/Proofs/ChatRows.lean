import Mathlib.Data.List.Sort
import NoteAgent.Chat.Use
import NoteAgent.Proofs.ChatStore
/-!
# ChatRows — every row of the chat store, whatever it is used for

All sessions and messages that uses of the store make go on a roll, in the order they were made (`Roll`).  What a state
of the tables owes to the roll is one invariant, `Roll.Covers`: numbers rise along the roll and come up once, the rows
that are left stand in its order, uids are single, and each message belongs to a session that is there.  Each statement
keeps it, so each use of the store does, and so do all of them.
-/
namespace NoteAgent
namespace Chat

open Attempt (Ends)

/-- What a session is made with and keeps. -/
def Session.origin (s : Session) : Int × String × Int × Int := (s.id, s.uid, s.owner, s.created)

/-- A message is a role's, a tool is named exactly in a tool's, and four characters are reckoned as one token. -/
structure Message.WellMade (m : Message) : Prop where
  role : m.role = "user" ∨ m.role = "assistant" ∨ m.role = "tool"
  toolName : m.toolName ≠ "" ↔ m.role = "tool"
  tokens : m.tokens = m.content.length / 4

theorem Table.addMessage_made {t t' : Table} {session now : Int} {role content toolName : String} {m : Message}
    (hrun : t.addMessage session role content toolName now = .ok (m, t')) :
    m.WellMade ∧ ∃ s ∈ t.sessions, s.id = session := by
  unfold Table.addMessage at hrun
  split at hrun
  · cases hrun
  · rename_i hrole
    split at hrun
    · cases hrun
    · rename_i htool
      cases hcolumns : checkColumns [session, now] with
      | error e => rw [hcolumns] at hrun; cases hrun
      | ok u =>
        rw [hcolumns] at hrun
        change (if _ then _ else _) = _ at hrun
        split at hrun
        · rename_i hhere
          cases hrun
          have hknown : isRole role = true := by simpa using hrole
          have hnamed : role = "tool" ↔ ¬toolName.isEmpty = true := by
            rw [bne_iff_ne, ne_eq, not_not, Bool.eq_iff_iff] at htool
            simpa [toolRole] using htool
          refine ⟨⟨?_, ?_, rfl⟩, by simpa using hhere⟩
          · simpa [isRole, userRole, assistantRole, toolRole, or_assoc] using hknown
          · rw [hnamed, String.isEmpty_iff]
        · cases hrun

namespace Roll

@[simp] theorem add_empty (roll : Roll) : roll.add empty = roll := by simp [add, empty]

/-- The tables hold some of what is on the roll, in its order, and nothing else. -/
structure Covers (roll : Roll) (t : Table) : Prop where
  uids : (t.sessions.map (·.uid)).Nodup
  sessionsRise : roll.sessions.Pairwise (·.id < ·.id)
  messagesRise : roll.messages.Pairwise (·.id < ·.id)
  sessionsKept : (t.sessions.map Session.origin).Sublist (roll.sessions.map Session.origin)
  messagesKept : t.messages.Sublist roll.messages
  sessionsGiven : ∀ s ∈ roll.sessions, s.id ≤ t.lastSession
  messagesGiven : ∀ m ∈ roll.messages, m.id ≤ t.lastMessage
  belongs : ∀ m ∈ t.messages, ∃ s ∈ t.sessions, s.id = m.session
  wellMade : ∀ m ∈ t.messages, m.WellMade

theorem covers_empty : empty.Covers Table.empty :=
  ⟨.nil, .nil, .nil, .refl _, .refl _, List.forall_mem_nil _, List.forall_mem_nil _, List.forall_mem_nil _,
    List.forall_mem_nil _⟩

namespace Covers

variable {roll : Roll} {t t' : Table}

/-! ## Statements -/

theorem addSession (h : roll.Covers t) {uid title : String} {owner now : Int} {s : Session}
    (hrun : t.addSession uid owner title now = .ok (s, t')) : (roll.add ⟨[s], []⟩).Covers t' := by
  obtain ⟨hfree, huid, hid, rfl⟩ := Table.addSession_ok hrun
  have hnew : s.uid ∉ t.sessions.map (·.uid) := by
    intro hmem
    obtain ⟨x, hx, hxuid⟩ := List.mem_map.1 hmem
    exact hfree x hx (hxuid.trans huid)
  constructor
  case uids =>
    rw [List.map_append, List.nodup_append_comm]
    exact List.nodup_cons.2 ⟨hnew, h.uids⟩
  case sessionsRise =>
    refine List.pairwise_append.2 ⟨h.sessionsRise, List.pairwise_singleton _ _, fun a ha b hb => ?_⟩
    rw [List.mem_singleton.1 hb]
    have hgiven := h.sessionsGiven a ha
    omega
  case messagesRise => simpa [add] using h.messagesRise
  case sessionsKept =>
    rw [add, List.map_append, List.map_append]
    exact h.sessionsKept.append_right _
  case messagesKept => simpa [add] using h.messagesKept
  case sessionsGiven =>
    intro x hx
    rcases List.mem_append.1 hx with hx | hx
    · have hgiven := h.sessionsGiven x hx
      simp only
      omega
    · rw [List.mem_singleton.1 hx]
  case messagesGiven => simpa [add] using h.messagesGiven
  case belongs =>
    intro m hm
    obtain ⟨x, hx, hxm⟩ := h.belongs m hm
    exact ⟨x, List.mem_append_left _ hx, hxm⟩
  case wellMade => exact h.wellMade

theorem addMessage (h : roll.Covers t) {session now : Int} {role content toolName : String} {m : Message}
    (hrun : t.addMessage session role content toolName now = .ok (m, t')) : (roll.add ⟨[], [m]⟩).Covers t' := by
  obtain ⟨hwell, x, hx, hxid⟩ := Table.addMessage_made hrun
  obtain ⟨hid, hsession, rfl⟩ := Table.addMessage_ok hrun
  constructor
  case uids => exact h.uids
  case sessionsRise => simpa [add] using h.sessionsRise
  case messagesRise =>
    refine List.pairwise_append.2 ⟨h.messagesRise, List.pairwise_singleton _ _, fun a ha b hb => ?_⟩
    rw [List.mem_singleton.1 hb]
    have hgiven := h.messagesGiven a ha
    omega
  case sessionsKept => simpa [add] using h.sessionsKept
  case messagesKept => exact h.messagesKept.append_right _
  case sessionsGiven => simpa [add] using h.sessionsGiven
  case messagesGiven =>
    intro a ha
    rcases List.mem_append.1 ha with ha | ha
    · have hgiven := h.messagesGiven a ha
      simp only
      omega
    · rw [List.mem_singleton.1 ha, hid]
  case belongs =>
    intro a ha
    rcases List.mem_append.1 ha with ha | ha
    · exact h.belongs a ha
    · rw [List.mem_singleton.1 ha]
      exact ⟨x, hx, hxid.trans hsession.symm⟩
  case wellMade =>
    intro a ha
    rcases List.mem_append.1 ha with ha | ha
    · exact h.wellMade a ha
    · rwa [List.mem_singleton.1 ha]

/-- A change of sessions that leaves what they were made with, and a choice of the messages. -/
theorem of_map (h : roll.Covers t) {f : Session → Session} (hf : ∀ s, (f s).origin = s.origin)
    (hsessions : t'.sessions = t.sessions.map f) (hmessages : t'.messages.Sublist t.messages)
    (hsession : t'.lastSession = t.lastSession) (hmessage : t'.lastMessage = t.lastMessage) : roll.Covers t' := by
  have hid (s : Session) : (f s).id = s.id := congrArg (·.1) (hf s)
  have huid (s : Session) : (f s).uid = s.uid := congrArg (·.2.1) (hf s)
  constructor
  case uids =>
    have heq : (fun s : Session => s.uid) ∘ f = (·.uid) := funext huid
    rw [hsessions, List.map_map, heq]
    exact h.uids
  case sessionsRise => exact h.sessionsRise
  case messagesRise => exact h.messagesRise
  case sessionsKept =>
    have heq : Session.origin ∘ f = Session.origin := funext hf
    rw [hsessions, List.map_map, heq]
    exact h.sessionsKept
  case messagesKept => exact hmessages.trans h.messagesKept
  case sessionsGiven => exact hsession ▸ h.sessionsGiven
  case messagesGiven => exact hmessage ▸ h.messagesGiven
  case belongs =>
    intro m hm
    obtain ⟨s, hs, hsm⟩ := h.belongs m (hmessages.subset hm)
    exact ⟨f s, hsessions ▸ List.mem_map_of_mem hs, (hid s).trans hsm⟩
  case wellMade => exact fun m hm => h.wellMade m (hmessages.subset hm)

theorem revise (h : roll.Covers t) {uid : String} {title summary : Option String} {now : Int}
    (hrun : t.revise uid title summary now = .ok t') : roll.Covers t' := by
  rw [Table.revise_ok hrun]
  refine h.of_map (fun s => ?_) rfl (.refl _) rfl rfl
  split <;> rfl

theorem compact (h : roll.Covers t) {uid summary : String} {bound now : Int}
    (hrun : t.compact uid summary bound now = .ok t') : roll.Covers t' := by
  obtain ⟨s, -, rfl⟩ := Table.compact_ok hrun
  refine h.of_map (fun x => ?_) rfl List.filter_sublist rfl rfl
  unfold Table.Session.summed
  split <;> rfl

theorem eraseSession (h : roll.Covers t) (uid : String) : roll.Covers (t.eraseSession uid) := by
  have hleft : (t.eraseSession uid).sessions.Sublist t.sessions := List.filter_sublist
  constructor
  case uids => exact h.uids.sublist (hleft.map _)
  case sessionsRise => exact h.sessionsRise
  case messagesRise => exact h.messagesRise
  case sessionsKept => exact (hleft.map _).trans h.sessionsKept
  case messagesKept => exact List.filter_sublist.trans h.messagesKept
  case sessionsGiven => exact h.sessionsGiven
  case messagesGiven => exact h.messagesGiven
  case belongs =>
    -- a message stays only if its session is not among those that go
    intro m hm
    obtain ⟨hmem, hstays⟩ := List.mem_filter.1 hm
    obtain ⟨s, hs, hsm⟩ := h.belongs m hmem
    refine ⟨s, List.mem_filter.2 ⟨hs, ?_⟩, hsm⟩
    by_contra huid
    simp only [Bool.not_eq_true', List.any_eq_false, List.mem_filter] at hstays
    exact hstays s ⟨hs, by simpa using huid⟩ (by simpa using hsm)
  case wellMade => exact fun m hm => h.wellMade m (List.mem_filter.1 hm).1

end Covers
end Roll

/-! ## Uses of the store -/

/-- No fault ever strikes the reading of a session. -/
def Readable (w : World) : Prop := ∀ n, w.chatFaults.strikes n .findSession = none

/-- A use leaves what strikes the store, and what it has made goes on the roll that covers the tables.  Where a session
can be read, it changes no table if it breaks off. -/
structure Use.Orderly (w : World) (r : Except Failure Roll) (w' : World) : Prop where
  strikes : w'.chatFaults.strikes = w.chatFaults.strikes
  covers : ∀ roll : Roll, roll.Covers w.chats → (roll.add (.made r)).Covers w'.chats
  whole : Readable w → ∀ e, r = .error e → w'.chats = w.chats

namespace Use.Orderly

variable {w w' : World} {r : Except Failure Roll}

theorem idle (hstrikes : w'.chatFaults.strikes = w.chatFaults.strikes) (hchats : w'.chats = w.chats)
    (hmade : Roll.made r = .empty) : Orderly w r w' := by
  refine ⟨hstrikes, fun roll h => ?_, fun _ _ _ => hchats⟩
  rw [hmade, Roll.add_empty, hchats]
  exact h

theorem kept (hstrikes : w'.chatFaults.strikes = w.chatFaults.strikes) (hmade : Roll.made r = .empty)
    (hcovers : ∀ roll : Roll, roll.Covers w.chats → roll.Covers w'.chats)
    (hwhole : Readable w → ∀ e, r ≠ .error e) : Orderly w r w' := by
  refine ⟨hstrikes, fun roll h => ?_, fun hw e he => absurd he (hwhole hw e)⟩
  rw [hmade, Roll.add_empty]
  exact hcovers roll h

theorem new {new : Roll} (hstrikes : w'.chatFaults.strikes = w.chatFaults.strikes)
    (hcovers : ∀ roll : Roll, roll.Covers w.chats → (roll.add new).Covers w'.chats) : Orderly w (.ok new) w' :=
  ⟨hstrikes, hcovers, fun _ _ he => by cases he⟩

theorem map {α : Type} {f : α → Roll} {t : Attempt World α} (h : Ends t w fun r w' => Orderly w (r.map f) w') :
    Ends (f <$> t) w (Orderly w) := by
  unfold Ends at h ⊢
  rwa [Attempt.map_run]

/-- A method that is struck makes nothing, so it comes to what it does where it is not. -/
theorem chatMethod {α : Type} {m : Method} {f : Option α → Roll} {t : Attempt World α} (hnone : f none = .empty)
    (h : Ends t w.chatUsed fun r w' => Orderly w ((r.map some).map f) w') :
    Ends (f <$> World.chatMethod m t) w (Orderly w) :=
  map (World.chatMethod_ends (fun _ => idle rfl rfl rfl) (idle rfl rfl hnone) h)

end Use.Orderly

open Use (Orderly)

theorem made_map_empty {α : Type} (r : Except Failure α) : Roll.made (r.map fun _ => .empty) = .empty := by
  cases r <;> rfl

theorem addSession_orderly (owner : Int) (title : String) (w : World) :
    Ends (Use.addSession owner title).perform w (Orderly w) := by
  refine Orderly.chatMethod rfl (Ends.next (a := w.nextId) rfl (Ends.look ?_))
  simp only [Ends, World.onChats]
  split
  · rename_i s t hrun
    exact .new rfl fun roll h => h.addSession hrun
  · exact .idle rfl rfl rfl

theorem addMessage_orderly (session : Int) (role content toolName : String) (w : World) :
    Ends (Use.addMessage session role content toolName).perform w (Orderly w) := by
  refine Orderly.chatMethod rfl (Ends.look ?_)
  simp only [Ends, World.onChats]
  split
  · rename_i m t hrun
    exact .new rfl fun roll h => h.addMessage hrun
  · exact .idle rfl rfl rfl

/-- A revision that was made breaks off only where the session cannot be read after it. -/
theorem reviseSession_orderly (uid : String) (title summary : Option String) (w : World) :
    Ends (Use.reviseSession uid title summary).perform w (Orderly w) := by
  refine Orderly.map (Ends.bind (P := fun r w' => Orderly w (r.map fun _ => .empty) w') ?_ (fun _ _ h => h)
    fun _ _ h => h)
  refine World.chatMethod_ends (fun _ => .idle rfl rfl rfl) (.idle rfl rfl rfl) ?_
  refine Ends.look ((World.onChats_ends _ w.chatUsed).bind (fun _ w' h => ?_) fun e w' h => ?_)
  · obtain ⟨e, he, -⟩ | ⟨-, t, ht, rfl⟩ := h
    · cases he
    · unfold Ends
      rw [World.findSession_run]
      refine .kept rfl (made_map_empty _) (fun roll h => h.revise ht) fun hw e he => ?_
      rw [show w.chatUsed.chatFaults.strikes _ .findSession = none from hw _] at he
      cases he
  · obtain ⟨e', he, rfl⟩ | ⟨he, -⟩ := h
    · exact .idle rfl rfl (made_map_empty _)
    · cases he

theorem foldHistory_orderly (strikes : Strikes) (uid summary : String) (keepFrom : Int) (w : World) :
    Ends (Use.foldHistory strikes uid summary keepFrom).perform w (Orderly w) := by
  refine Orderly.map ((World.foldHistoryUnder_ends strikes uid summary keepFrom w).mono fun r w' h => ?_)
  obtain ⟨hbeside, ⟨hsame, -, -⟩ | ⟨hcommits, hread⟩⟩ := h
  · exact .idle hbeside.strikes hsame (made_map_empty r)
  · refine .kept hbeside.strikes (made_map_empty r) (fun roll h => h.compact hcommits.compact) fun hw e he => ?_
    obtain ⟨f, hf, -⟩ | ⟨-, s, rfl, -⟩ := hread
    · rw [World.rereadFault?, hw] at hf
      cases hf
    · cases he

/-- **One use of the store keeps what the tables owe to the roll**, whatever strikes it. -/
theorem Use.perform_ends (u : Use) (w : World) : Ends u.perform w (Orderly w) := by
  cases u with
  | addSession owner title => exact addSession_orderly owner title w
  | findSession uid =>
    exact .map ((World.findSession_ends uid w).mono fun r w' h => h.1 ▸ .idle rfl rfl (made_map_empty r))
  | listSessions owner => exact .chatMethod rfl (.idle rfl rfl (made_map_empty _))
  | reviseSession uid title summary => exact reviseSession_orderly uid title summary w
  | removeSession uid =>
    exact .chatMethod rfl (.kept rfl rfl (fun roll h => h.eraseSession uid) fun _ _ he => by cases he)
  | addMessage session role content toolName => exact addMessage_orderly session role content toolName w
  | listMessages session =>
    exact .map ((World.messagesOf_ends session w).mono fun r w' h => h.1 ▸ .idle rfl rfl (made_map_empty r))
  | foldHistory strikes uid summary keepFrom => exact foldHistory_orderly strikes uid summary keepFrom w
  | elapse clock nextId => exact .idle rfl rfl rfl

/-! ## Runs -/

/-- What is listed of a session are the messages on its roll that are still there, in the order they were made. -/
def Roll.Lists (roll : Roll) (w : World) : Prop :=
  ∀ session, fitsColumn session = true → w.chatFaults.strikes w.chatFaults.uses .listMessages = none →
    (World.messagesOf session w).1 =
      .ok (some (roll.messages.filter fun m => m.session = session ∧ m ∈ w.chats.messages))

theorem Roll.Covers.lists {roll : Roll} {w : World} (h : roll.Covers w.chats) : roll.Lists w := by
  intro session hfits hstrikes
  have : Std.Irrefl fun a b : Message => a.id < b.id := ⟨fun m => Int.lt_irrefl m.id⟩
  have : Std.Antisymm fun a b : Message => a.id < b.id := ⟨fun a b hab hba => absurd hab (by omega)⟩
  have hlive : (w.chats.live session).Pairwise (·.id < ·.id) := (h.messagesRise.sublist h.messagesKept).filter _
  have hkept : w.chats.live session = roll.messages.filter fun m => m.session = session ∧ m ∈ w.chats.messages := by
    refine hlive.eq_of_mem_iff (h.messagesRise.filter _) fun m => ?_
    have hroll (hm : m ∈ w.chats.messages) : m ∈ roll.messages := h.messagesKept.subset hm
    simp only [Table.mem_live, List.mem_filter, decide_eq_true_eq]
    exact ⟨fun ⟨hm, hs⟩ => ⟨hroll hm, hs, hm⟩, fun ⟨_, hs, hm⟩ => ⟨hm, hs⟩⟩
  have hlisted : w.chats.messagesOf session = .ok (w.chats.live session) := by
    rw [Table.messagesOf, checkColumns, if_pos (by simp [hfits])]
    rfl
  rw [World.messagesOf, World.chatMethod_run, hstrikes, Attempt.map_run, ← hkept]
  exact congrArg (Except.map some) hlisted

/-- **Whatever the store is used for and whatever strikes it, its tables are covered by the roll of all that was made**,
and what is listed of a session is what is left of its messages, in the order they were made.  Where a session can be
read, a use that breaks off changes no table. -/
theorem afterUses_covers (w : World) (hempty : w.chats = .empty) (uses : List Use) :
    (afterUses w uses).2.Covers (afterUses w uses).1.chats ∧ (afterUses w uses).2.Lists (afterUses w uses).1 ∧
      (Readable w → ∀ (u : Use) (e : Failure), (u.perform (afterUses w uses).1).1 = .error e →
        (u.perform (afterUses w uses).1).2.chats = (afterUses w uses).1.chats) := by
  have hrun : ∀ (uses : List Use) (state : World × Roll), state.2.Covers state.1.chats →
      (uses.foldl Use.follow state).2.Covers (uses.foldl Use.follow state).1.chats ∧
        (uses.foldl Use.follow state).1.chatFaults.strikes = state.1.chatFaults.strikes := by
    intro uses
    induction uses with
    | nil => exact fun _ h => ⟨h, rfl⟩
    | cons u uses ih =>
      intro state h
      have hstep := u.perform_ends state.1
      obtain ⟨hcovers, hstrikes⟩ := ih (u.follow state) (hstep.covers state.2 h)
      exact ⟨hcovers, hstrikes.trans hstep.strikes⟩
  obtain ⟨hcovers, hstrikes⟩ := hrun uses (w, .empty) (hempty ▸ Roll.covers_empty)
  refine ⟨hcovers, hcovers.lists, fun hw u e he => ?_⟩
  exact (u.perform_ends _).whole (fun n => (congrFun (congrFun hstrikes n) _).trans (hw n)) e he

/-- A world with empty stores, where a fault strikes the chat store at its eighth use. -/
def emptyWorld : World :=
  { World.fresh 7 (.fresh .empty ⟨fun _ _ => .ok [[]], 0⟩ 0) (.fresh (.always "") (.always "") (.always "")) with
    chatFaults := ⟨fun n m => if n = 7 ∧ m = .addMessage then some (.breaks "disk full") else none, 0⟩ }

def someUses : List Use :=
  [.addSession 1 "", .addSession 2 "Mine", .addMessage 1 "user" "hello" "", .addMessage 1 "tool" "found it" "",
    .addMessage 9 "user" "hello" "", .removeSession "00000002", .addMessage 1 "tool" "found it" "search_notes",
    .addMessage 1 "assistant" "yes" "", .foldHistory unstruck "00000001" "They met." 2, .elapse 9 3,
    .addMessage 1 "assistant" "yes" "", .addSession 2 ""]

theorem afterUses_covers_someUses :
    emptyWorld.chats = .empty ∧ Readable emptyWorld ∧
    (afterUses emptyWorld someUses).2.Covers (afterUses emptyWorld someUses).1.chats ∧
    (afterUses emptyWorld someUses).1.chats.sessions.map (·.id) = [1, 3] ∧
    (afterUses emptyWorld someUses).2.messages.map (·.id) = [1, 2, 3] ∧
    (afterUses emptyWorld someUses).1.chats.messages.map (·.id) = [2, 3] ∧
    ((Use.addMessage 2 "user" "hello" "").perform (afterUses emptyWorld someUses).1).2.chats =
      (afterUses emptyWorld someUses).1.chats := by
  have hreads : Readable emptyWorld := fun n => if_neg fun h => by cases h.2
  obtain ⟨hcovers, -, hwhole⟩ := afterUses_covers emptyWorld rfl someUses
  refine ⟨rfl, hreads, hcovers, by decide +kernel, by decide +kernel, by decide +kernel, ?_⟩
  exact hwhole hreads _ .dangling (by decide +kernel)

end Chat
end NoteAgent
