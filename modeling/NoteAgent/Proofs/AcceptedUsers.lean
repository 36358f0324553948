import NoteAgent.Proofs.ArgumentPassing
import NoteAgent.Proofs.NoteHistory
import NoteAgent.Proofs.NoteQuery
import NoteAgent.Proofs.ToolAtomicity
/-!
# AcceptedUsers — who is let in, and for whom the stores work

A header lets in every whole number above zero, but the columns of the stores take 64 bits.  While the stores work, a user
whose number fits is served by the routes that list and make sessions, and by the tools that count, query and create notes;
one whose number is wider is let in too, and then broken off by each of them (`accepted_usable_iff`).
-/
namespace NoteAgent

theorem checkColumns_singleton (n : Int) :
    checkColumns [n] = if fitsColumn n = true then .ok () else .error .wideInteger := by simp [checkColumns]

namespace Chat
namespace Table

variable {t : Table} {now : Int} {uid : String}

theorem sessionsOf_eq (t : Table) (owner : Int) : t.sessionsOf owner = if fitsColumn owner = true then
    .ok ((t.sessions.filter (·.owner == owner)).mergeSort laterOrEqual) else .error .wideInteger := by
  rw [sessionsOf, checkColumns_singleton]
  split <;> rfl

/-- The session that is added for an owner. -/
def added (t : Table) (uid : String) (owner : Int) (title : String) (now : Int) : Session :=
  ⟨t.lastSession + 1, uid, owner, if title.isEmpty then defaultTitle else title, "", now, now⟩

theorem addSession_eq (hnew : ∀ s ∈ t.sessions, s.uid ≠ uid) (hnow : fitsColumn now = true) (owner : Int)
    (title : String) :
    t.addSession uid owner title now = if fitsColumn owner = true then
      .ok (t.added uid owner title now,
        { t with sessions := t.sessions ++ [t.added uid owner title now], lastSession := t.lastSession + 1 })
      else .error .wideInteger := by
  have hcheck : checkColumns [owner, now] = checkColumns [owner] := by simp [checkColumns, hnow]
  have hfree : t.sessions.any (·.uid == uid) = false := by
    rw [List.any_eq_false]
    exact fun s hs huid => hnew s hs (beq_iff_eq.1 huid)
  rw [addSession, hcheck, checkColumns_singleton, hfree]
  split <;> rfl

end Table
end Chat

namespace World

open Attempt (Ends)

variable {w : World}

/-- The stores work: nothing strikes them, the clock fits a column, the ids to come are not in use, and the notes lie as they
were added, created at times that can be printed. -/
structure Working (w : World) : Prop where
  notes : ∀ n m, w.noteFaults.strikes n m = none
  chats : w.Steady
  clock : fitsColumn w.clock = true
  newNote : ∀ n ∈ w.notes.toList, n.uid ≠ idText noteUidLength w.nextId
  newSession : ∀ s ∈ w.chats.sessions, s.uid ≠ idText sessionUidLength w.nextId
  sound : w.notes.Sound
  printable : ∀ n ∈ w.notes.toList, Calendar.Printable n.created

/-- What an attempt for a user comes to: it answers if the user's number fits the columns, and breaks off there if not. -/
def FitsOr {α : Type} (user : Int) (fits : α → World → Prop) (wide : World → Prop) (r : Except Failure α) (w' : World) :
    Prop :=
  (fitsColumn user = true → ∃ a, r = .ok a ∧ fits a w') ∧ (fitsColumn user = false → r = .error .wideInteger ∧ wide w')

section
variable {α β : Type} {user : Int} {P : α → World → Prop} {Q : β → World → Prop} {wide : World → Prop}

theorem FitsOr.of_fits (h : fitsColumn user = true) {a : α} (ha : P a w) : FitsOr user P wide (.ok a) w :=
  ⟨fun _ => ⟨a, rfl, ha⟩, fun hwide => absurd (h.symm.trans hwide) (by decide)⟩

theorem FitsOr.of_wide (h : fitsColumn user = false) (hw : wide w) : FitsOr user P wide (.error .wideInteger) w :=
  ⟨fun hfits => absurd (hfits.symm.trans h) (by decide), fun _ => ⟨rfl, hw⟩⟩

/-- What goes on from an answer, and does not break off, breaks off only where what is before it does. -/
theorem FitsOr.bind {t : Attempt World α} {next : α → Attempt World β} (ht : Ends t w (FitsOr user P wide))
    (hnext : ∀ a w', P a w' → Ends (next a) w' fun r w'' => ∃ b, r = .ok b ∧ Q b w'') :
    Ends (t >>= next) w (FitsOr user Q wide) := by
  refine ht.bind (fun a w' h => ?_) fun e w' h => ?_
  · cases hfits : fitsColumn user with
    | true =>
      obtain ⟨_, ⟨⟩, ha⟩ := h.1 hfits
      refine (hnext a w' ha).mono ?_
      rintro _ w'' ⟨b, rfl, hb⟩
      exact .of_fits hfits hb
    | false => cases (h.2 hfits).1
  · cases hfits : fitsColumn user with
    | true =>
      obtain ⟨_, ⟨⟩, -⟩ := h.1 hfits
    | false =>
      obtain ⟨⟨⟩, hwide⟩ := h.2 hfits
      exact .of_wide hfits hwide

end

theorem chatMethod_ends_steady {α : Type} {m : Chat.Method} {t : Attempt World α} (hw : w.Steady)
    {Q : Except Failure (Option α) → World → Prop} (ran : Ends t w.chatUsed fun r w' => Q (r.map some) w') :
    Ends (chatMethod m t) w Q := by
  unfold Ends
  rw [chatMethod_steady hw]
  exact Ends.map ran

theorem sessionsOf_fits (hw : w.Steady) (owner : Int) : Ends (sessionsOf owner) w (FitsOr owner
    (fun ss _ => ss = some ((w.chats.sessions.filter (·.owner == owner)).mergeSort Chat.Table.laterOrEqual))
    fun w' => w' = w.chatUsed) := by
  refine chatMethod_ends_steady hw (Ends.look ?_)
  have hlisted := w.chats.sessionsOf_eq owner
  unfold Ends
  change FitsOr _ _ _ ((w.chats.sessionsOf owner).map some) w.chatUsed
  cases hfits : fitsColumn owner with
  | true =>
    rw [if_pos hfits] at hlisted
    rw [hlisted]
    exact .of_fits hfits rfl
  | false =>
    rw [if_neg (by simp [hfits])] at hlisted
    rw [hlisted]
    exact .of_wide hfits rfl

theorem addSession_fits (hw : w.Working) (owner : Int) (title : String) : Ends (addSession owner title) w (FitsOr owner
    (fun made w' => ∃ s, made = some s ∧ s.owner = owner ∧ s ∈ w'.chats.sessions) fun w' => w'.chats = w.chats) := by
  have hadded := Chat.Table.addSession_eq hw.newSession hw.clock owner title
  refine chatMethod_ends_steady hw.chats (Ends.next (a := w.nextId) rfl (Ends.look ?_))
  have hadding : ∀ w₁ : World, w₁.chats = w.chats → Ends (onChats
      (·.addSession (idText sessionUidLength w.nextId) owner title w.clock)) w₁ fun r w' => FitsOr owner
        (fun made w' => ∃ s, made = some s ∧ s.owner = owner ∧ s ∈ w'.chats.sessions) (fun w' => w'.chats = w.chats)
        (r.map some) w' := by
    intro w₁ hw₁
    unfold Ends onChats
    dsimp only
    rw [hw₁, hadded]
    cases hfits : fitsColumn owner with
    | true =>
      exact .of_fits hfits ⟨_, rfl, rfl, List.mem_append_right _ (List.mem_singleton_self _)⟩
    | false => exact .of_wide hfits hw₁
  exact hadding _ rfl

theorem addNote_fits (hw : w.Working) (owner : Int) (content : String) : Ends (addNote owner content none Note.normal) w
    (FitsOr owner (fun made w' => ∃ n, made = some n ∧ n.owner = owner ∧ n.content = content ∧ n ∈ w'.notes.toList)
      fun w' => w'.notes = w.notes) := by
  let made : Note := ⟨idText noteUidLength w.nextId, owner, content, Note.normal, w.clock, w.clock⟩
  refine noteMethod_ends_steady (hw.notes · _) (Ends.next rfl (Ends.look ?_))
  have hadding : ∀ w₁ : World, w₁.notes = w.notes → Ends (do onNotes (·.insert made); return made) w₁ fun r w' =>
      FitsOr owner (fun made w' => ∃ n, made = some n ∧ n.owner = owner ∧ n.content = content ∧ n ∈ w'.notes.toList)
        (fun w' => w'.notes = w.notes) (r.map some) w' := by
    intro w₁ hw₁
    unfold Ends
    cases hfits : fitsColumn owner with
    | true =>
      have hcolumns : ∀ k ∈ [made.owner, made.created, made.updated], fitsColumn k = true := by
        simp [made, hfits, hw.clock]
      obtain ⟨t, ht⟩ := Note.Table.insert_of_new hcolumns hw.newNote
      rw [Attempt.bind_run_ok (onNotes_ok (f := (·.insert made)) (hw₁.symm ▸ ht))]
      refine .of_fits hfits ⟨made, rfl, rfl, rfl, ?_⟩
      rw [(Note.Table.insert_ok ht).2]
      exact List.mem_map.2 ⟨_, List.mem_append_right _ (List.mem_singleton_self _), rfl⟩
    | false =>
      have hwide : w.notes.insert made = .error .wideInteger := by
        rw [Note.Table.insert, Note.checkColumns_of_not_fits (by simp [made, hfits])]
        rfl
      have hrefused : onNotes (·.insert made) w₁ = (.error .wideInteger, w₁) := by rw [onNotes_run, hw₁, hwide]
      rw [Attempt.bind_run_error hrefused]
      exact .of_wide hfits hw₁
  exact hadding _ rfl

end World

/-! ## Requests and calls of an accepted user -/

namespace Http

open Attempt (Ends)
open World (FitsOr)

/-- The body of a request for a session gives a title, or none. -/
def Titled (body : Option String) : Prop := ∃ b given title, readBody body = .ok b ∧ Route.newSession.take b = .ok given ∧
  Json.text? (given.text "title") = some title

variable {w : World} {user : Int}

theorem caller_pos {header : Option String} (h : caller header = .ok user) : 0 < user := by
  rw [caller, userOf?] at h
  split at h
  · rename_i n hn
    cases h
    split at hn
    · rename_i hpos
      split at hn
      · cases hn
        assumption
      · cases hn
    · cases hn
  · cases h

theorem showSessions_fits (hw : w.Steady) (user : Int) : Ends (showSessions user) w (FitsOr user
    (fun response _ => ∃ ss : List Chat.Session, (∀ s, s ∈ ss ↔ s ∈ w.chats.sessions ∧ s.owner = user) ∧
      response = ⟨200, .json (.list (ss.map sessionJson))⟩)
    fun w' => w' = w.chatUsed) := by
  refine FitsOr.bind (World.sessionsOf_fits hw user) ?_
  rintro _ w' rfl
  refine ⟨_, rfl, _, fun s => ?_, rfl⟩
  rw [List.mem_mergeSort, List.mem_filter, beq_iff_eq]

theorem makeSession_fits (hw : w.Working) (user : Int) {ps : LooseText} {title : String}
    (htitle : Json.text? ps = some title) : Ends (makeSession user ps) w (FitsOr user
      (fun response w' => ∃ s : Chat.Session, s.owner = user ∧ s ∈ w'.chats.sessions ∧
        response = ⟨201, .json (sessionJson s)⟩)
      fun w' => w'.chats = w.chats) := by
  unfold makeSession
  rw [htitle]
  refine FitsOr.bind (World.addSession_fits hw user _) ?_
  rintro _ w' ⟨s, rfl, howner, hs⟩
  exact ⟨_, rfl, s, howner, hs, rfl⟩

/-- A request whose route breaks off for want of columns is answered by status 500. -/
theorem serve_fits {services : Services} {settings : Chat.Turn.Settings} {r : Request} {route : Route}
    (hfound : resolve r.method (decodePath r.path) = .found route) {P : Response → World → Prop} {wide : World → Prop}
    (h : Ends (answer services settings route r) w (FitsOr user P wide)) :
    Ends (serve services settings r) w fun answered w' =>
      (fitsColumn user = true → ∃ response, answered = .ok response ∧ P response w') ∧
      (fitsColumn user = false → answered = .ok broken ∧ wide w') := by
  rw [serve_found services settings hfound]
  unfold Ends at h ⊢
  rw [Attempt.settle_bind_run]
  refine ⟨fun hfits => ?_, fun hwide => ?_⟩
  · obtain ⟨response, hanswer, hresponse⟩ := h.1 hfits
    rw [hanswer]
    exact ⟨response, rfl, hresponse⟩
  · obtain ⟨hanswer, hleft⟩ := h.2 hwide
    rw [hanswer]
    exact ⟨rfl, hleft⟩

end Http

namespace Tool

open Attempt (Ends)
open World (FitsOr)

variable {c : Caller} {w : World} {raw : String} {args : Arguments}

/-- What is answered to a call by its tool: there always is an answer, also where the tool breaks off. -/
theorem dispatch_execute (c : Caller) (t : Tool) (raw : String) :
    (registry c).dispatch (.text t.name) (.text raw) = answerTo t.name (some (t.execute c raw)) := by
  rw [dispatch_registry, run, named?_name, Option.map_some]

theorem execute_content (hargs : Form.content.read raw = some args) : Tool.createNote.execute c raw = c.createNote args := by
  simp only [execute, form?, hargs]
  rfl

theorem dispatch_userStats (hw : w.Working) (c : Caller) (raw : String) : ∃ answer w',
    (registry c).dispatch (.text "get_user_stats") (.text raw) w = (.ok answer, w') ∧
    (fitsColumn c.user = true → answer = "User Statistics:\nTotal Active Notes: " ++
      toString ((w.notes.of c.user).countP fun n => n.status == Note.normal)) ∧
    (fitsColumn c.user = false → answer = "Error retrieving stats: " ++ Failure.wideInteger.message) := by
  have hcounted : (World.noteCount c.user Note.normal w).1 = (w.notes.count c.user Note.normal).map some :=
    World.noteCount_fst (hw.notes · _) _ _
  rw [Note.Table.count_eq, checkColumns_singleton] at hcounted
  have hdispatch : (registry c).dispatch (.text "get_user_stats") (.text raw) =
      answerTo "get_user_stats" (some c.userStats) := dispatch_execute c .userStats raw
  rw [hdispatch]
  have hrun : c.userStats w = _ := Attempt.settle_bind_run _ _ w
  rw [hcounted] at hrun
  cases hfits : fitsColumn c.user with
  | true =>
    rw [if_pos hfits] at hrun
    exact ⟨_, _, answerTo_ok hrun, fun _ => rfl, fun h => (by cases h)⟩
  | false =>
    rw [if_neg (by simp [hfits])] at hrun
    exact ⟨_, _, answerTo_ok hrun, fun h => (by cases h), fun _ => rfl⟩

theorem dispatch_createNote (hw : w.Working) (c : Caller) (hargs : Form.content.read raw = some args) : ∃ answer w',
    (registry c).dispatch (.text "create_note") (.text raw) w = (.ok answer, w') ∧
    (fitsColumn c.user = true → ∃ n : Note, n.owner = c.user ∧ n.content = text args "content" ∧ n ∈ w'.notes.toList ∧
      answer = "Note successfully created with UID: " ++ n.uid) ∧
    (fitsColumn c.user = false → answer = "Error creating note: " ++ Failure.wideInteger.message ∧ w'.notes = w.notes) := by
  have hadded : FitsOr _ _ _ _ _ := World.addNote_fits hw c.user (text args "content")
  have hdispatch : (registry c).dispatch (.text "create_note") (.text raw) =
      answerTo "create_note" (some (c.createNote args)) := by
    rw [← execute_content hargs]
    exact dispatch_execute c .createNote raw
  rw [hdispatch]
  have hrun : c.createNote args w = _ := Attempt.settle_bind_run _ _ w
  cases hfits : fitsColumn c.user with
  | true =>
    obtain ⟨_, hmade, n, rfl, howner, hcontent, hn⟩ := hadded.1 hfits
    obtain ⟨htold, hnotes⟩ := Caller.tell_done c n.uid (some n.content)
      (World.addNote c.user (text args "content") none Note.normal w).2
    rw [hmade] at hrun
    have hneeded := hrun.trans (Attempt.bind_run_ok rfl)
    have hanswer := hneeded.trans (Attempt.bind_run_ok (Prod.ext htold rfl))
    exact ⟨_, _, answerTo_ok hanswer, fun _ => ⟨n, howner, hcontent, hnotes.symm ▸ hn, rfl⟩, fun h => (by cases h)⟩
  | false =>
    obtain ⟨hmade, hnotes⟩ := hadded.2 hfits
    rw [hmade] at hrun
    exact ⟨_, _, answerTo_ok hrun, fun h => (by cases h), fun _ => ⟨rfl, hnotes⟩⟩

end Tool

namespace Http

open World (FitsOr)

variable {w : World} {header : Option String} {user : Int}

/-- What a tool answers to a call. -/
def toolAnswer (c : Tool.Caller) (t : Tool) (raw : String) (w : World) : Except Failure String :=
  ((Tool.registry c).dispatch (.text t.name) (.text raw) w).1

/-- A user is served: the routes that list and make sessions answer, and the tools that count, query and create notes do
what they are there to do. -/
structure Usable (header : Option String) (user : Int) (w : World) : Prop where
  listed : ∀ (services : Services) (settings : Chat.Turn.Settings) (r : Request), services.stores = true →
    resolve r.method (decodePath r.path) = .found .sessions → plainHeader r.user = header →
      ∃ ss : List Chat.Session, (∀ s, s ∈ ss ↔ s ∈ w.chats.sessions ∧ s.owner = user) ∧
        (serve services settings r w).1 = .ok ⟨200, .json (.list (ss.map sessionJson))⟩
  made : ∀ (services : Services) (settings : Chat.Turn.Settings) (r : Request), services.stores = true →
    resolve r.method (decodePath r.path) = .found .newSession → plainHeader r.user = header → Titled r.body →
      ∃ s : Chat.Session, s.owner = user ∧ s ∈ (serve services settings r w).2.chats.sessions ∧
        (serve services settings r w).1 = .ok ⟨201, .json (sessionJson s)⟩
  counted : ∀ (c : Tool.Caller) (raw : String), c.user = user → toolAnswer c .userStats raw w =
    .ok ("User Statistics:\nTotal Active Notes: " ++
      toString ((w.notes.of user).countP fun n => n.status == Note.normal))
  queried : ∀ (c : Tool.Caller) (raw : String) (args : Tool.Arguments), c.user = user →
    Tool.Form.queryNotes.read raw = some args → Calendar.readDay (Tool.text args "date_end") ≠ some Calendar.lastDay →
      ∃ ns answer, w.notes.Listing (fun n => n.owner = user ∧ Tool.Finds args n) ns ∧ Tool.Tells ns answer ∧
        toolAnswer c .queryNotes raw w = .ok answer
  created : ∀ (c : Tool.Caller) (raw : String) (args : Tool.Arguments), c.user = user →
    Tool.Form.content.read raw = some args → ∃ n : Note, n.owner = user ∧ n.content = Tool.text args "content" ∧
      n ∈ ((Tool.registry c).dispatch (.text "create_note") (.text raw) w).2.notes.toList ∧
      toolAnswer c .createNote raw w = .ok ("Note successfully created with UID: " ++ n.uid)

/-- A user is broken off: the routes answer with status 500, the tools with the error of the store, and neither a session nor
a note is made. -/
structure Refused (header : Option String) (user : Int) (w : World) : Prop where
  listed : ∀ (services : Services) (settings : Chat.Turn.Settings) (r : Request), services.stores = true →
    resolve r.method (decodePath r.path) = .found .sessions → plainHeader r.user = header →
      (serve services settings r w).1 = .ok broken
  made : ∀ (services : Services) (settings : Chat.Turn.Settings) (r : Request), services.stores = true →
    resolve r.method (decodePath r.path) = .found .newSession → plainHeader r.user = header → Titled r.body →
      (serve services settings r w).1 = .ok broken ∧ (serve services settings r w).2.chats = w.chats
  counted : ∀ (c : Tool.Caller) (raw : String), c.user = user →
    toolAnswer c .userStats raw w = .ok ("Error retrieving stats: " ++ Failure.wideInteger.message)
  queried : ∀ (c : Tool.Caller) (raw : String) (args : Tool.Arguments), c.user = user →
    Tool.Form.queryNotes.read raw = some args → Calendar.readDay (Tool.text args "date_end") ≠ some Calendar.lastDay →
      toolAnswer c .queryNotes raw w = .ok ("Error: " ++ Failure.wideInteger.message)
  created : ∀ (c : Tool.Caller) (raw : String) (args : Tool.Arguments), c.user = user →
    Tool.Form.content.read raw = some args →
      toolAnswer c .createNote raw w = .ok ("Error creating note: " ++ Failure.wideInteger.message) ∧
      ((Tool.registry c).dispatch (.text "create_note") (.text raw) w).2.notes = w.notes

theorem serve_listed (haccepted : caller header = .ok user) (hw : w.Working) {services : Services}
    (settings : Chat.Turn.Settings) {r : Request} (hstores : services.stores = true)
    (hfound : resolve r.method (decodePath r.path) = .found .sessions) (hheader : plainHeader r.user = header) :
    Attempt.Ends (serve services settings r) w fun answered _ =>
      (fitsColumn user = true → ∃ ss : List Chat.Session, (∀ s, s ∈ ss ↔ s ∈ w.chats.sessions ∧ s.owner = user) ∧
        answered = .ok ⟨200, .json (.list (ss.map sessionJson))⟩) ∧
      (fitsColumn user = false → answered = .ok broken) := by
  have hready : services.ready .sessions = .ok () := by rw [Services.ready, Services.needStore, if_pos hstores]
  have huser : (if Route.sessions.isOpen then .ok 0 else caller (plainHeader r.user)) = .ok user := by
    rw [hheader]
    exact haccepted
  have htaken : Route.sessions.take none = .ok .nothing := rfl
  have hperformed : answer services settings .sessions r = showSessions user :=
    answer_checked settings rfl huser hready htaken
  refine (serve_fits hfound (hperformed ▸ showSessions_fits hw.chats user)).mono fun answered w' h => ⟨fun hfits => ?_,
    fun hwide => (h.2 hwide).1⟩
  obtain ⟨response, hanswered, ss, hss, rfl⟩ := h.1 hfits
  exact ⟨ss, hss, hanswered⟩

theorem serve_made (haccepted : caller header = .ok user) (hw : w.Working) {services : Services}
    (settings : Chat.Turn.Settings) {r : Request} (hstores : services.stores = true)
    (hfound : resolve r.method (decodePath r.path) = .found .newSession) (hheader : plainHeader r.user = header)
    (hbody : Titled r.body) : Attempt.Ends (serve services settings r) w fun answered w' =>
      (fitsColumn user = true → ∃ s : Chat.Session, s.owner = user ∧ s ∈ w'.chats.sessions ∧
        answered = .ok ⟨201, .json (sessionJson s)⟩) ∧
      (fitsColumn user = false → answered = .ok broken ∧ w'.chats = w.chats) := by
  obtain ⟨b, given, title, hread, htake, htitle⟩ := hbody
  have hready : services.ready .newSession = .ok () := by rw [Services.ready, Services.needStore, if_pos hstores]
  have huser : (if Route.newSession.isOpen then .ok 0 else caller (plainHeader r.user)) = .ok user := by
    rw [hheader]
    exact haccepted
  have hperformed : answer services settings .newSession r = makeSession user (given.text "title") :=
    answer_checked settings hread huser hready htake
  refine (serve_fits hfound (hperformed ▸ makeSession_fits hw user htitle)).mono fun answered w' h => ⟨fun hfits => ?_, h.2⟩
  obtain ⟨response, hanswered, s, howner, hs, rfl⟩ := h.1 hfits
  exact ⟨s, howner, hs, hanswered⟩

/-- A user whose number fits the columns is served. -/
theorem usable_of_fits (haccepted : caller header = .ok user) (hw : w.Working) (hfits : fitsColumn user = true) :
    Usable header user w where
  listed _ settings _ hstores hfound hheader := (serve_listed haccepted hw settings hstores hfound hheader).1 hfits
  made _ settings _ hstores hfound hheader hbody :=
    (serve_made haccepted hw settings hstores hfound hheader hbody).1 hfits
  counted c raw hc := by
    subst hc
    obtain ⟨answer, w', hrun, hanswer, -⟩ := Tool.dispatch_userStats hw c raw
    rw [hanswer hfits] at hrun
    exact congrArg Prod.fst hrun
  queried c raw args hc hargs hend := by
    subst hc
    obtain ⟨ns, answer, hrun, hlisting, htells⟩ := Tool.queryNotes_ok hw.sound (hw.notes · _)
      (fun n hn _ => hw.printable n hn) hend hfits
    have hdispatch := congrFun (Tool.dispatch_queryNotes c hargs) w
    exact ⟨ns, answer, hlisting, htells, congrArg Prod.fst (hdispatch.trans (Tool.answerTo_ok hrun))⟩
  created c raw args hc hargs := by
    subst hc
    obtain ⟨answer, w', hrun, hmade, -⟩ := Tool.dispatch_createNote hw c hargs
    obtain ⟨n, howner, hcontent, hn, rfl⟩ := hmade hfits
    refine ⟨n, howner, hcontent, ?_, congrArg Prod.fst hrun⟩
    rw [hrun]
    exact hn

/-- A user whose number is wider than a column is broken off. -/
theorem refused_of_wide (haccepted : caller header = .ok user) (hw : w.Working) (hwide : fitsColumn user = false) :
    Refused header user w where
  listed _ settings _ hstores hfound hheader := (serve_listed haccepted hw settings hstores hfound hheader).2 hwide
  made _ settings _ hstores hfound hheader hbody :=
    (serve_made haccepted hw settings hstores hfound hheader hbody).2 hwide
  counted c raw hc := by
    subst hc
    obtain ⟨answer, w', hrun, -, hanswer⟩ := Tool.dispatch_userStats hw c raw
    rw [hanswer hwide] at hrun
    exact congrArg Prod.fst hrun
  queried c raw args hc hargs hend := by
    subst hc
    have hdispatch := congrFun (Tool.dispatch_queryNotes c hargs) w
    exact congrArg Prod.fst (hdispatch.trans (Tool.answerTo_error (Tool.queryNotes_wide (hw.notes · _) hend hwide)))
  created c raw args hc hargs := by
    subst hc
    obtain ⟨answer, w', hrun, -, hrefused⟩ := Tool.dispatch_createNote hw c hargs
    obtain ⟨rfl, hnotes⟩ := hrefused hwide
    refine ⟨congrArg Prod.fst hrun, ?_⟩
    rw [hrun]
    exact hnotes

/-- **An accepted user is served just if the number is less than the 63rd power of two**, for every header that lets a user in
and while the stores work.  Any wider number is let in too, and then every route and every tool breaks off. -/
theorem accepted_usable_iff (haccepted : caller header = .ok user) (hw : w.Working) :
    (Usable header user w ↔ user < 2 ^ 63) ∧ (2 ^ 63 ≤ user → Refused header user w) := by
  have hpos := caller_pos haccepted
  have hfits : fitsColumn user = true ↔ user < 2 ^ 63 := by
    rw [fitsColumn_iff]
    omega
  have hrefused : 2 ^ 63 ≤ user → Refused header user w := fun hle =>
    refused_of_wide haccepted hw (Bool.eq_false_iff.2 fun h => absurd (hfits.1 h) (by omega))
  refine ⟨⟨fun husable => ?_, fun hlt => usable_of_fits haccepted hw (hfits.2 hlt)⟩, hrefused⟩
  by_contra hge
  have hcounted := (hrefused (by omega)).counted { user := user, indexed := false } "" rfl
  rw [husable.counted { user := user, indexed := false } "" rfl] at hcounted
  have hbegins := congrArg (·.toList.head?) (Except.ok.inj hcounted)
  simp at hbegins

/-- A note and a session of the user with the largest number that fits. -/
def lastUser : World :=
  { Note.noNotes with
    notes := ⟨[⟨1, "a", 9223372036854775807, "milk", Note.normal, 5, 5⟩]⟩
    chats := ⟨[⟨1, "s", 9223372036854775807, Chat.defaultTitle, "", 0, 0⟩], [], 1, 0⟩ }

/-- A request for the sessions of a user. -/
def forSessions (user : String) : Request := ⟨"GET", "/api/v1/ai/sessions", some user, none⟩

theorem accepted_usable_iff_lastUser :
    caller (some " +9223372036854775807") = .ok 9223372036854775807 ∧ lastUser.Working ∧
    Usable (some " +9223372036854775807") 9223372036854775807 lastUser ∧
    (serve {} {} (forSessions " +9223372036854775807") lastUser).1.map (·.status) = .ok 200 := by
  have haccepted : caller (some " +9223372036854775807") = .ok 9223372036854775807 := by decide +kernel
  have hw : lastUser.Working :=
    ⟨fun _ _ => rfl, fun _ _ => rfl, by decide, by decide, by decide, ⟨by decide, by decide⟩, by decide⟩
  have husable := (accepted_usable_iff haccepted hw).1.2 (by decide)
  obtain ⟨ss, -, hserved⟩ := husable.listed {} {} (forSessions " +9223372036854775807") rfl (by decide +kernel)
    (by decide +kernel)
  refine ⟨haccepted, hw, husable, ?_⟩
  rw [hserved]
  rfl

/-- A user is let in whose number is wider than a column, and none of the routes and tools that ask for it works. -/
theorem wide_user_is_let_in :
    caller (plainHeader (forSessions "9223372036854775808").user) = .ok 9223372036854775808 ∧
    (serve {} {} (forSessions "9223372036854775808") Note.noNotes).1.map (·.status) = .ok 500 ∧
    (serve {} {} ⟨"POST", "/api/v1/ai/sessions", some "9223372036854775808", none⟩ Note.noNotes).1.map (·.status) =
      .ok 500 ∧
    toolAnswer { user := 9223372036854775808, indexed := true } .userStats "\x7b\x7d" Note.noNotes =
      .ok "Error retrieving stats: Python int too large to convert to SQLite INTEGER" ∧
    toolAnswer { user := 9223372036854775808, indexed := true } .queryNotes "\x7b\x7d" Note.noNotes =
      .ok "Error: Python int too large to convert to SQLite INTEGER" ∧
    toolAnswer { user := 9223372036854775808, indexed := true } .createNote "\x7b\"content\": \"x\"\x7d" Note.noNotes =
      .ok "Error creating note: Python int too large to convert to SQLite INTEGER" ∧
    ¬Usable (some "9223372036854775808") 9223372036854775808 Note.noNotes := by
  have hstats : toolAnswer { user := 9223372036854775808, indexed := true } .userStats "\x7b\x7d" Note.noNotes =
      .ok "Error retrieving stats: Python int too large to convert to SQLite INTEGER" := by decide +kernel
  refine ⟨by decide +kernel, by decide +kernel, by decide +kernel, hstats, by decide +kernel, by decide +kernel, fun h => ?_⟩
  have hcounted := h.counted { user := 9223372036854775808, indexed := true } "\x7b\x7d" rfl
  rw [hstats] at hcounted
  exact absurd (Except.ok.inj hcounted) (by decide +kernel)

end Http
end NoteAgent
