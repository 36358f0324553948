import NoteAgent.Proofs.AgentRounds
import NoteAgent.Proofs.NoteViews
import NoteAgent.Proofs.ToolReach
import NoteAgent.Proofs.TwoRuns
/-!
# ToolSecrecy — what a tool shows a user of others

A tool run for a user reads the user's notes and collection, the clock, the next id, and of all others' notes only which
uids they stand under.  From two worlds that agree in these (`SameTo`) it answers with the same text and leaves worlds that
agree in these again, whatever the others' notes are and whatever breaks off.  The one use of the note store that reads more
is looking a note up by its uid; what is made of the answer is the same whoever else the note belongs to (`respects_ownNote`).
-/
namespace NoteAgent

/-- Two embedders embed alike from here on. -/
def Vector.Embedder.Onward (e e' : Vector.Embedder) : Prop :=
  ∀ n text, e.embed (e.asked + n) text = e'.embed (e'.asked + n) text

theorem Vector.Embedder.asksAgree_onward : AsksAgree Onward := fun e e' h => by
  refine ⟨fun text => h 0 text, fun n text => ?_⟩
  have hnext := h (n + 1) text
  simp only [Embedder.next]
  rw [Nat.add_assoc, Nat.add_comm 1 n, hnext, Nat.add_assoc e'.asked, Nat.add_comm 1 n]

namespace World

open Attempt (Respects)

/-- Two worlds are the same to a user: the clock and the next id, the user's notes and the uids that others have taken, the
user's collection and whether the index knows it; and what fails from here on fails in both. -/
structure SameTo (user : Int) (w w' : World) : Prop where
  clock : w.clock = w'.clock
  nextId : w.nextId = w'.nextId
  notes : Note.Table.SameTo user w.notes w'.notes
  noteFaults : ∀ n m, w.noteFaults.strikes (w.noteFaults.uses + n) m = w'.noteFaults.strikes (w'.noteFaults.uses + n) m
  index : Vector.IndexOver.SameBy (Vector.Service.SameOf (Vector.collectionOf user)) Vector.Embedder.Onward
    (Vector.collectionOf user) w.index w'.index

variable {user : Int}

theorem SameTo.noteUsed {w w' : World} (h : SameTo user w w') : SameTo user w.noteUsed w'.noteUsed :=
  { h with
    noteFaults := fun n m => by
      simp only [World.noteUsed]
      rw [Nat.add_assoc, Nat.add_assoc, h.noteFaults] }

/-! ## The note store -/

/-- A method of the note store is struck in both worlds or in neither. -/
theorem respects_noteMethod {α : Type} (m : Note.Method) {t : Attempt World α} (ht : Respects (SameTo user) t) :
    Respects (SameTo user) (noteMethod m t) := fun w w' h => by
  have hstrikes : w.noteFaults.strikes w.noteFaults.uses m = w'.noteFaults.strikes w'.noteFaults.uses m := h.noteFaults 0 m
  rw [noteMethod_run, noteMethod_run, hstrikes]
  split
  · exact ⟨rfl, h.noteUsed⟩
  · exact ⟨rfl, h.noteUsed⟩
  · exact ht.map some w.noteUsed w'.noteUsed h.noteUsed

theorem respects_onNotes {f : Note.Table → Except Failure Note.Table}
    (hf : ∀ t t', Note.Table.SameTo user t t' → Note.Table.Alike user (f t) (f t')) :
    Respects (SameTo user) (onNotes f) := by
  refine .update fun w w' h => ?_
  obtain ⟨e, he, he'⟩ | ⟨t, t', ht, ht', hsame⟩ := hf w.notes w'.notes h.notes
  · rw [he, he']
    exact .inl ⟨e, rfl, rfl⟩
  · rw [ht, ht']
    exact .inr ⟨_, _, rfl, rfl, { h with notes := hsame }⟩

theorem respects_addNote (content : String) (created : Option Int) (status : String) :
    Respects (SameTo user) (addNote user content created status) := by
  have htake : Respects (SameTo user) takeId := fun w w' h =>
    ⟨congrArg Except.ok h.nextId, { h with nextId := congrArg (· + 1) h.nextId }⟩
  refine respects_noteMethod _ (htake.bind fun id => (Respects.look fun _ _ h => h.clock).bind fun now => ?_)
  let note : Note := ⟨idText noteUidLength id, user, content, status, created.getD now, now⟩
  have hinsert : Respects (SameTo user) (onNotes (·.insert note)) := respects_onNotes fun _ _ h => h.insert rfl
  exact hinsert.bind fun _ => .done _

theorem respects_replaceContent (uid content : String) : Respects (SameTo user) (replaceContent uid content) :=
  respects_noteMethod _ ((Respects.look fun _ _ h => h.clock).bind fun now =>
    respects_onNotes fun _ _ h => h.setContent uid content now)

theorem respects_removeNote (uid : String) : Respects (SameTo user) (removeNote uid) :=
  respects_noteMethod _ (respects_onNotes fun _ _ h => .inr ⟨_, _, rfl, rfl, h.erase uid⟩)

theorem respects_notesOf (f : Note.Filter) : Respects (SameTo user) (notesOf user f) := by
  refine respects_noteMethod _ fun w w' h => ?_
  simp only [Attempt.bind_run_ok (Attempt.look_run _ _), Attempt.ofExcept_run]
  exact ⟨h.notes.select f, h⟩

theorem respects_noteCount (status : String) : Respects (SameTo user) (noteCount user status) := by
  refine respects_noteMethod _ fun w w' h => ?_
  simp only [Attempt.bind_run_ok (Attempt.look_run _ _), Attempt.ofExcept_run]
  exact ⟨h.notes.count status, h⟩

/-! ## The index -/

theorem respects_indexed {α : Type} {t : Attempt Vector.Index α}
    (ht : Respects (Vector.IndexOver.SameBy (Vector.Service.SameOf (Vector.collectionOf user)) Vector.Embedder.Onward
      (Vector.collectionOf user)) t) : Respects (SameTo user) (indexed t) :=
  ht.on (fun _ _ h => h.index) fun _ _ _ _ h hi => { h with index := hi }

theorem respects_need {α : Type} (member : String) (a : Option α) : Respects (SameTo user) (need member a) := by
  cases a with
  | none => exact .fail _
  | some a => exact .done a

end World

namespace Tool

open Attempt (Respects)
open World (SameTo)

namespace Caller

variable {c : Caller}

theorem respects_index (uid content : String) : Respects (SameTo c.user) (c.index uid content) := by
  unfold index
  split
  · exact (World.respects_indexed (Vector.Index.respects_upsert (Vector.Service.callsRespect_sameOf _)
      Vector.Embedder.asksAgree_onward _ _ _)).ignore
  · exact .done _

theorem respects_forget (uid : String) : Respects (SameTo c.user) (c.forget uid) := by
  unfold forget
  split
  · exact (World.respects_indexed (Vector.Index.respects_delete (Vector.Service.callsRespect_sameOf _) _)).ignore
  · exact .done _

/-- **What a caller is told of a note under a uid** is made of the caller's notes and of which uids are taken. -/
theorem claim_get? {t : Note.Table} (hk : t.Keyed) (uid : String) :
    c.claim (t.get? uid) = match (t.of c.user).find? (·.uid == uid) with
      | some note => .ok note
      | none => .error (if t.takenByOther c.user uid then foreign else notFound) := by
  rcases Note.Table.get?_cases hk c.user uid with
    ⟨n, hget, howner, hfind⟩ | ⟨n, hget, hother, hfind, htaken⟩ | ⟨hget, hfind, htaken⟩
  · rw [hget, hfind]
    simp [claim, howner]
  · rw [hget, hfind, htaken]
    simp [claim, hother]
  · rw [hget, hfind, htaken]
    rfl

theorem respects_ownNote (uid : String) : Respects (SameTo c.user) (c.ownNote uid) := by
  unfold ownNote lookUp
  split
  · exact (Respects.done _).bind fun _ => .done _
  · -- what is found may differ, so the lookup respects nothing by itself; only with what is claimed of it
    intro w w' h
    have hstrikes : w.noteFaults.strikes w.noteFaults.uses .find = w'.noteFaults.strikes w'.noteFaults.uses .find :=
      h.noteFaults 0 .find
    have hclaim : c.claim (w.notes.get? uid) = c.claim (w'.notes.get? uid) := by
      rw [claim_get? h.notes.sound.keyed, claim_get? h.notes.sound'.keyed, h.notes.own, h.notes.taken]
    unfold World.findNote
    simp only [Attempt.bind_run, World.noteMethod_run, hstrikes]
    cases w'.noteFaults.strikes w'.noteFaults.uses .find with
    | some f => cases f <;> exact ⟨rfl, h.noteUsed⟩
    | none => exact ⟨congrArg Except.ok hclaim, h.noteUsed⟩

theorem respects_searchNotes (args : Arguments) : Respects (SameTo c.user) (c.searchNotes args) := by
  simp only [searchNotes]
  split
  · exact .done _
  · exact (World.respects_indexed (Vector.Index.respects_search (Vector.Service.callsRespect_sameOf _)
      Vector.Embedder.asksAgree_onward _ _ _)).bind fun _ => .ofExcept _

theorem respects_queryNotes (args : Arguments) : Respects (SameTo c.user) (c.queryNotes args) :=
  (Respects.ofExcept _).bind fun _ => (World.respects_notesOf _).bind fun _ => .ofExcept _

theorem respects_createNote (args : Arguments) : Respects (SameTo c.user) (c.createNote args) := by
  refine (World.respects_addNote _ _ _).settle.bind fun made => ?_
  cases made with
  | error e => exact .done _
  | ok made => exact (World.respects_need _ _).bind fun note => (respects_index _ _).bind fun _ => .done _

theorem respects_changeNote (args : Arguments) (change : String → String) (failed success : String) :
    Respects (SameTo c.user) (c.changeNote args change failed success) := by
  refine (respects_ownNote _).bind fun own => ?_
  cases own with
  | error answer => exact .done _
  | ok note =>
    refine (World.respects_replaceContent _ _).settle.bind fun stored => ?_
    cases stored with
    | error e => exact .done _
    | ok _ => exact (respects_index _ _).bind fun _ => .done _

theorem respects_deleteNote (args : Arguments) : Respects (SameTo c.user) (c.deleteNote args) := by
  refine (respects_ownNote _).bind fun own => ?_
  cases own with
  | error answer => exact .done _
  | ok note =>
    refine (World.respects_removeNote _).settle.bind fun removed => ?_
    cases removed with
    | error e => exact .done _
    | ok _ => exact (respects_forget _).bind fun _ => .done _

theorem respects_userStats : Respects (SameTo c.user) c.userStats := by
  refine (World.respects_noteCount _).settle.bind fun total => ?_
  cases total <;> exact .done _

theorem respects_notesByTag (args : Arguments) : Respects (SameTo c.user) (c.notesByTag args) := by
  simp only [notesByTag]
  split
  · exact .done _
  · refine (World.respects_notesOf _).settle.bind fun found => ?_
    cases found <;> exact .done _

end Caller

theorem respects_perform (c : Caller) (args : Arguments) (t : Tool) : Respects (SameTo c.user) (t.perform c args) := by
  cases t <;> simp only [perform, Caller.appendToNote, Caller.updateNote, Caller.updateNoteTags]
  case searchNotes => exact Caller.respects_searchNotes args
  case queryNotes => exact Caller.respects_queryNotes args
  case createNote => exact Caller.respects_createNote args
  case appendToNote => exact Caller.respects_changeNote args _ _ _
  case updateNote => exact Caller.respects_changeNote args _ _ _
  case updateNoteTags => exact Caller.respects_changeNote args _ _ _
  case deleteNote => exact Caller.respects_deleteNote args
  case userStats => exact Caller.respects_userStats
  case notesByTag => exact Caller.respects_notesByTag args

theorem respects_execute (c : Caller) (t : Tool) (raw : String) : Respects (SameTo c.user) (t.execute c raw) := by
  unfold execute
  split
  · exact .done _
  · split
    · exact respects_perform c [] t
    · split
      · exact .done _
      · exact respects_perform c _ t

theorem respects_dispatch (c : Caller) (name arguments : Json) :
    Respects (SameTo c.user) ((registry c).dispatch name arguments) := by
  unfold Registry.dispatch answerTo
  cases hfound : (registry c).find? name with
  | none => exact .done _
  | some o =>
    obtain ⟨tool, -, rfl⟩ := List.mem_map.1 (List.mem_of_find?_eq_some hfound)
    refine (respects_execute c tool _).settle.bind fun answer => ?_
    cases answer <;> exact .done _

/-- **A tool shows a user nothing of others but which uids are taken**: from two worlds that are the same to the user, a call
is answered with the same text, and the user's notes and the user's collection are the same afterwards; so the worlds are
still the same to the user, however many tools are run. -/
theorem dispatch_sameTo (c : Caller) (name arguments : Json) (w w' : World) (h : SameTo c.user w w') :
    (∃ text, ((registry c).dispatch name arguments w).1 = .ok text ∧
      ((registry c).dispatch name arguments w').1 = .ok text) ∧
    ((registry c).dispatch name arguments w).2.notes.of c.user =
      ((registry c).dispatch name arguments w').2.notes.of c.user ∧
    Json.lookup (Vector.collectionOf c.user) ((registry c).dispatch name arguments w).2.index.service.collections =
      Json.lookup (Vector.collectionOf c.user) ((registry c).dispatch name arguments w').2.index.service.collections ∧
    SameTo c.user ((registry c).dispatch name arguments w).2 ((registry c).dispatch name arguments w').2 := by
  obtain ⟨hanswer, hsame⟩ := respects_dispatch c name arguments w w' h
  obtain ⟨text, w₁, hrun⟩ := (registry c).dispatch_ok name arguments w
  have htext : ((registry c).dispatch name arguments w).1 = .ok text := by rw [hrun]
  exact ⟨⟨text, htext, hanswer ▸ htext⟩, hsame.notes.own, hsame.index.service.collection, hsame⟩

/-- A note of the user's and one of somebody else, with a vector service that refuses every other call. -/
def besideOne : World :=
  { World.fresh 5 (.fresh ⟨[("user_2_notes", [])], [], fun n _ => if n % 2 = 0 then none else some (.refused "busy"),
      fun _ => none, fun _ _ => none⟩ ⟨fun _ _ => .ok [[]], 0⟩ 0) (.fresh (.always "") (.always "") (.always "")) with
    notes := ⟨[⟨1, "a", 1, "one", Note.normal, 0, 0⟩, ⟨2, "b", 2, "two", Note.normal, 0, 0⟩]⟩ }

/-- The same, but that the other note is another one of yet somebody else, who has used the index twice. -/
def besideOther : World :=
  { besideOne with
    notes := ⟨[⟨3, "b", 9, "nine", "ARCHIVED", 8, 8⟩, ⟨7, "a", 1, "one", Note.normal, 0, 0⟩]⟩
    index := { besideOne.index with
      known := ["user_9_notes"]
      service := { besideOne.index.service with
        collections := [("user_9_notes", [])]
        log := [.has "user_9_notes", .flush "user_9_notes"] } } }

theorem sameTo_beside : SameTo 1 besideOne besideOther where
  clock := rfl
  nextId := rfl
  notes := ⟨⟨by decide, by decide⟩, ⟨by decide, by decide⟩, by decide, fun _ => rfl⟩
  noteFaults _ _ := rfl
  index := by
    refine ⟨by decide, rfl, ⟨rfl, fun n call => ?_, fun _ => rfl, fun _ _ => rfl⟩, fun _ _ => rfl⟩
    have hlog : (2 + n) % 2 = (0 + n) % 2 := by omega
    simp only [besideOne, besideOther, World.fresh, Vector.Index.fresh, List.length_cons, List.length_nil]
    rw [hlog]

theorem dispatch_sameTo_beside :
    SameTo 1 besideOne besideOther ∧
    ((registry ⟨1, true, "", 5⟩).dispatch (.text "delete_note") (.text "\x7b\"uid\": \"b\"\x7d") besideOther).1 =
      .ok foreign := by
  obtain ⟨⟨text, hone, hother⟩, -⟩ := dispatch_sameTo ⟨1, true, "", 5⟩ (.text "delete_note")
    (.text "\x7b\"uid\": \"b\"\x7d") besideOne besideOther sameTo_beside
  have hforeign : ((registry ⟨1, true, "", 5⟩).dispatch (.text "delete_note") (.text "\x7b\"uid\": \"b\"\x7d")
      besideOne).1 = .ok foreign := by decide +kernel
  exact ⟨sameTo_beside, hother.trans (hone.symm.trans hforeign)⟩

end Tool
end NoteAgent
