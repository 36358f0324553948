import NoteAgent.Http.Startup
import NoteAgent.Proofs.ChatStore
/-!
# SessionSecrecy — a session of somebody else is answered like one that is not there

Four routes are about a session.  Each checks whose session it is before it does anything, and a chat looks at nothing but
the message before that.  So where the session is hidden from the user — not there, or somebody else's — what a request
comes to does not depend on the chats at all, and it changes nothing but how often their store was used (`Blind`).
-/
namespace NoteAgent
namespace Http

open Chat (Session)

/-- The session that a route is about. -/
def Route.session? : Route → Option String
  | .rename uid | .remove uid | .messages uid | .chat uid => some uid
  | _ => none

/-- No session of the user's stands under the uid. -/
def Hides (user : Int) (uid : String) (t : Chat.Table) : Prop := ∀ s, t.session? uid = some s → s.owner ≠ user

theorem hides_of_foreign {user : Int} {uid : String} {t : Chat.Table} {s : Session} (hs : t.session? uid = some s)
    (howner : s.owner ≠ user) : Hides user uid t := fun x hx => by
  rw [hs] at hx
  cases hx
  exact howner

theorem hides_eraseSession (user : Int) (uid : String) (t : Chat.Table) : Hides user uid (t.eraseSession uid) := by
  intro s hs
  obtain ⟨hmem, huid⟩ := Chat.Table.session?_some hs
  have hleft := (List.mem_filter.1 hmem).2
  simp [huid] at hleft

/-- The sessions, the messages, the notes and the clock are as they were, and neither the index nor the model was used. -/
structure Untouched (w w' : World) : Prop where
  chats : w'.chats = w.chats
  notes : w'.notes = w.notes
  index : w'.index = w.index
  model : w'.model = w.model
  clock : w'.clock = w.clock
  nextId : w'.nextId = w.nextId

theorem Untouched.refl (w : World) : Untouched w w := ⟨rfl, rfl, rfl, rfl, rfl, rfl⟩

theorem untouched_chatUsed (w : World) : Untouched w w.chatUsed := ⟨rfl, rfl, rfl, rfl, rfl, rfl⟩

/-- What a request for a session that is hidden breaks off with. -/
def hiddenFailure (w : World) (uid : String) : Failure :=
  match w.chatFaults.strikes w.chatFaults.uses .findSession with
  | some (.breaks text) => .broken text
  | _ => .foreignSession uid

/-- **A session that is hidden is not found**, be it not there or somebody else's. -/
theorem ownSession_hidden {user : Int} {uid : String} {w : World} (h : Hides user uid w.chats) :
    ownSession user uid w = (.error (hiddenFailure w uid), w.chatUsed) := by
  unfold ownSession hiddenFailure
  rw [Attempt.bind_run, World.findSession_run]
  cases w.chatFaults.strikes w.chatFaults.uses .findSession with
  | some f => cases f <;> rfl
  | none =>
    cases hs : w.chats.session? uid with
    | none => rfl
    | some s =>
      have howner : (s.owner == user) = false := by simpa using h s hs
      simp only [howner]
      rfl

/-! ## Attempts that see nothing -/

/-- Whatever the chats are, as long as they hide the session, the attempt comes to the same, and the chats' store was used
once at most and nothing else is touched. -/
def Blind {α : Type} (user : Int) (uid : String) (t : Attempt World α) : Prop :=
  ∀ w : World, ∃ (r : Except Failure α) (w₁ : World), (w₁ = w ∨ w₁ = w.chatUsed) ∧
    ∀ chats, Hides user uid chats → t { w with chats := chats } = (r, { w₁ with chats := chats })

namespace Blind

variable {α β : Type} {user : Int} {uid : String}

theorem ofExcept (r : Except Failure α) : Blind user uid (.ofExcept r) := fun w => ⟨r, w, .inl rfl, fun _ _ => rfl⟩

theorem done (a : α) : Blind user uid (.done a) := .ofExcept (.ok a)

theorem fail (f : Failure) : Blind user uid (.fail f : Attempt World α) := .ofExcept (.error f)

/-- What is settled without the world may be looked at first. -/
theorem ofExcept_bind {r : Except Failure α} {next : α → Attempt World β}
    (hn : ∀ a, r = .ok a → Blind user uid (next a)) : Blind user uid (Attempt.ofExcept r >>= next) := by
  cases r with
  | ok a => exact hn a rfl
  | error f => exact fail f

theorem ownSession_bind (next : Session → Attempt World β) : Blind user uid (ownSession user uid >>= next) := fun w => by
  refine ⟨.error (hiddenFailure w uid), w.chatUsed, .inr rfl, fun chats hchats => ?_⟩
  rw [Attempt.bind_run_error (ownSession_hidden (w := { w with chats := chats }) hchats)]
  rfl

theorem visit_bind (settings : Chat.Turn.Settings) {who : Tool.Caller} (hwho : who.user = user) (text : LooseText)
    (next : List Chat.Event → Attempt World β) : Blind user uid (visit settings who uid text >>= next) := fun w => by
  subst hwho
  refine ⟨.error (hiddenFailure w uid), w.chatUsed, .inr rfl, fun chats hchats => ?_⟩
  exact Attempt.bind_run_error (Attempt.bind_run_error (ownSession_hidden (w := { w with chats := chats }) hchats))

end Blind

/-! ## Requests -/

variable {user : Int} {uid : String}

theorem blind_perform (services : Services) (settings : Chat.Turn.Settings) (given : Given) {route : Route}
    (hroute : route.session? = some uid) : Blind user uid (perform services settings user given route) := by
  cases route <;> cases hroute
  case rename => exact .ownSession_bind _
  case remove => exact .ownSession_bind _
  case messages => exact .ownSession_bind _
  case chat =>
    refine .ofExcept_bind fun content _ => .visit_bind settings ?_ content _
    rfl

theorem blind_answer (services : Services) (settings : Chat.Turn.Settings) (r : Request) {route : Route}
    (hroute : route.session? = some uid) (huser : userOf? (plainHeader r.user) = some user) :
    Blind user uid (answer services settings route r) := by
  have hcaller : (if route.isOpen then .ok 0 else caller (plainHeader r.user)) = .ok user := by
    have hclosed : route.isOpen = false := by cases route <;> first | rfl | cases hroute
    rw [hclosed, caller, huser]
    rfl
  unfold answer
  split
  · exact .done _
  · refine .ofExcept_bind fun asking hasking => .ofExcept_bind fun _ _ => ?_
    cases hcaller.symm.trans hasking
    split
    · exact .done _
    · exact blind_perform services settings _ hroute

theorem serve_found (services : Services) (settings : Chat.Turn.Settings) {r : Request} {route : Route}
    (hfound : resolve r.method (decodePath r.path) = .found route) :
    serve services settings r = (answer services settings route r).settle >>= fun answered =>
      .done (match answered with
        | .ok response => response
        | .error e => failed e) := by
  funext w
  unfold serve
  rw [hfound, Attempt.settle_bind_run]
  dsimp only
  rw [Attempt.settle_bind_run]
  cases (answer services settings route r w).1 <;> rfl

/-- A request that passes every check does what its route does. -/
theorem answer_checked (settings : Chat.Turn.Settings) {services : Services} {r : Request} {route : Route} {body : Body}
    {given : Given} {user : Int} (hread : (if route.readsBody then readBody r.body else .ok none) = .ok body)
    (huser : (if route.isOpen then .ok 0 else caller (plainHeader r.user)) = .ok user)
    (hready : services.ready route = .ok ()) (htake : route.take body = .ok given) :
    answer services settings route r = perform services settings user given route := by
  have hgo {α β : Type} (a : α) (next : α → Attempt World β) : (Attempt.ofExcept (.ok a) >>= next) = next a := rfl
  unfold answer
  simp only [hread, huser, hready, hgo, htake]

/-- **A session of somebody else looks like one that is not there**: a request to rename it, to remove it, to list its
messages or to chat in it is answered as it would be if the session and its messages did not exist, and in either case
nothing is changed, and neither the index nor the model is asked. -/
theorem serve_hides_foreign (services : Services) (settings : Chat.Turn.Settings) (r : Request) (w : World) (route : Route)
    (uid : String) (user : Int) (s : Session) (hfound : resolve r.method (decodePath r.path) = .found route)
    (hroute : route.session? = some uid) (huser : userOf? (plainHeader r.user) = some user)
    (hs : w.chats.session? uid = some s) (howner : s.owner ≠ user) :
    (∃ response, (serve services settings r w).1 = .ok response ∧
      (serve services settings r { w with chats := w.chats.eraseSession uid }).1 = .ok response) ∧
    Untouched w (serve services settings r w).2 ∧
    Untouched { w with chats := w.chats.eraseSession uid }
      (serve services settings r { w with chats := w.chats.eraseSession uid }).2 := by
  rw [serve_found services settings hfound]
  obtain ⟨e, w₁, hw₁, hrun⟩ := blind_answer services settings r hroute huser w
  have hthere := hrun w.chats (hides_of_foreign hs howner)
  have hgone := hrun (w.chats.eraseSession uid) (hides_eraseSession user uid w.chats)
  rw [Attempt.settle_bind_run, Attempt.settle_bind_run, hgone, hthere]
  refine ⟨⟨_, rfl, rfl⟩, ?_⟩
  rcases hw₁ with rfl | rfl
  · exact ⟨.refl _, .refl _⟩
  · exact ⟨untouched_chatUsed w, untouched_chatUsed _⟩

/-- A session of the second user, with a message in it. -/
def somebodyElses : World :=
  { World.fresh 5 (.fresh .empty ⟨fun _ _ => .ok [[]], 0⟩ 0) (.fresh (.always "") (.always "") (.always "")) with
    chats := ⟨[⟨1, "a", 2, Chat.defaultTitle, "", 0, 0⟩], [⟨1, 1, Chat.userRole, "hello", "", 1, 0⟩], 1, 1⟩ }

/-- The first user asks to chat in it. -/
def intruding : Request :=
  ⟨"POST", "/api/v1/ai/sessions/a/chat", some "1", some "\x7b\"content\": \"hi\"\x7d"⟩

theorem serve_hides_foreign_chat :
    resolve intruding.method (decodePath intruding.path) = .found (.chat "a") ∧
    userOf? (plainHeader intruding.user) = some 1 ∧
    (serve {} {} intruding somebodyElses).1.map (·.status) = .ok 404 ∧
    (serve {} {} intruding { somebodyElses with chats := somebodyElses.chats.eraseSession "a" }).1.map (·.status) =
      .ok 404 := by
  have hfound : resolve intruding.method (decodePath intruding.path) = .found (.chat "a") := by decide +kernel
  have huser : userOf? (plainHeader intruding.user) = some 1 := by decide +kernel
  have hstatus : (serve {} {} intruding somebodyElses).1.map (·.status) = .ok 404 := by decide +kernel
  obtain ⟨⟨response, hthere, hgone⟩, -⟩ := serve_hides_foreign {} {} intruding somebodyElses (.chat "a") "a" 1 _ hfound rfl
    huser rfl (by decide)
  refine ⟨hfound, huser, hstatus, ?_⟩
  rw [hgone, ← hthere]
  exact hstatus

end Http
end NoteAgent
