import NoteAgent.Proofs.IndexReach
import NoteAgent.Proofs.NoteKeys
import NoteAgent.Tool.Call
import NoteAgent.Tool.Registry
/-!
# ToolReach — what a tool run for a user can change

A tool run for a user reaches the notes of that user and the user's collection.  Everything else is as it was, whatever
the model wrote, wherever a store or the index breaks off, and however many tools are run (`Spares`).  The tools that
change a note that is there look it up first, and find its owner in the row that the statement will name; that a uid names
one row makes this enough.
-/
namespace NoteAgent
namespace World

open Attempt (Ends Keeps)

/-- Everything but the notes and the collection of the user is as it was. -/
structure Spares (user : Int) (w w' : World) : Prop where
  clock : w'.clock = w.clock
  chats : w'.chats = w.chats
  chatFaults : w'.chatFaults = w.chatFaults
  model : w'.model = w.model
  collections : Vector.Index.Spares (Vector.collectionOf user) w.index w'.index
  keyed : w.notes.Keyed → w'.notes.Keyed
  others : w.notes.Keyed → w'.notes.others user = w.notes.others user

variable {user : Int} {w : World}

theorem Spares.refl (user : Int) (w : World) : Spares user w w :=
  ⟨rfl, rfl, rfl, rfl, Std.Refl.refl (r := Vector.Index.Spares _) _, id, fun _ => rfl⟩

theorem Spares.trans {w w' w'' : World} (h : Spares user w w') (h' : Spares user w' w'') : Spares user w w'' where
  clock := h'.clock.trans h.clock
  chats := h'.chats.trans h.chats
  chatFaults := h'.chatFaults.trans h.chatFaults
  model := h'.model.trans h.model
  collections := Trans.trans (r := Vector.Index.Spares _) (s := Vector.Index.Spares _) (t := Vector.Index.Spares _)
    h.collections h'.collections
  keyed := h'.keyed ∘ h.keyed
  others hk := (h'.others (h.keyed hk)).trans (h.others hk)

instance : Std.Refl (Spares user) := ⟨Spares.refl user⟩
instance : Trans (Spares user) (Spares user) (Spares user) := ⟨Spares.trans⟩

theorem Spares.of_notes {t : Note.Table} (hk : w.notes.Keyed → t.Keyed)
    (ho : w.notes.Keyed → t.others user = w.notes.others user) : Spares user w { w with notes := t } :=
  { Spares.refl user w with keyed := hk, others := ho }

/-! ## The note store -/

/-- The world once a method of the note store has been used. -/
def noteUsed (w : World) : World := { w with noteFaults := { w.noteFaults with uses := w.noteFaults.uses + 1 } }

theorem spares_noteUsed (user : Int) (w : World) : Spares user w w.noteUsed := { Spares.refl user w with }

/-- The world is as it was, but for a use of the note store. -/
def Looked (w w' : World) : Prop := w' = w ∨ w' = w.noteUsed

theorem Looked.notes {w' : World} (h : w.Looked w') : w'.notes = w.notes := by rcases h with rfl | rfl <;> rfl

theorem Looked.spares {w' : World} (h : w.Looked w') (user : Int) : Spares user w w' := by
  rcases h with rfl | rfl
  · exact Spares.refl user w'
  · exact spares_noteUsed user w

theorem noteMethod_run {α : Type} (m : Note.Method) (t : Attempt World α) (w : World) :
    noteMethod m t w = match w.noteFaults.strikes w.noteFaults.uses m with
      | some (.breaks text) => (.error (.broken text), w.noteUsed)
      | some .silent => (.ok none, w.noteUsed)
      | none => (some <$> t) w.noteUsed := rfl

/-- A method that reads uses the store once and leaves everything as it is. -/
theorem noteMethod_reads {α : Type} (m : Note.Method) {t : Attempt World α} (ht : ∀ w, (t w).2 = w) (w : World) :
    (noteMethod m t w).2 = w.noteUsed := by
  rw [noteMethod_run]
  split
  · rfl
  · rfl
  · rw [Attempt.map_run, ht]

theorem spares_noteMethod {α : Type} (m : Note.Method) {t : Attempt World α} (h : Spares user w.noteUsed (t w.noteUsed).2) :
    Spares user w (noteMethod m t w).2 := by
  rw [noteMethod_run]
  split
  · exact spares_noteUsed user w
  · exact spares_noteUsed user w
  · rw [Attempt.map_run]
    exact (spares_noteUsed user w).trans h

theorem onNotes_run (f : Note.Table → Except Failure Note.Table) (w : World) :
    onNotes f w = match f w.notes with
      | .ok t => (.ok (), { w with notes := t })
      | .error e => (.error e, w) := by
  simp only [onNotes, Attempt.update]
  cases f w.notes <;> rfl

theorem keeps_addNote (owner : Int) (content : String) (created : Option Int) (status : String) :
    Keeps (Spares owner) (addNote owner content created status) := fun w => by
  refine spares_noteMethod .add (Keeps.bind (fun w => { Spares.refl owner w with }) (fun id => ?_) w.noteUsed)
  refine (Keeps.look _).bind fun now => Keeps.bind (fun w => ?_) fun _ => .done _
  rw [onNotes_run]
  split
  · rename_i t ht
    exact .of_notes (fun hk => hk.insert ht) fun _ => Note.Table.others_insert ht
  · exact Spares.refl owner w

theorem spares_replaceContent {uid : String} (ho : w.notes.Keyed → w.notes.Owns user uid) (content : String) :
    Spares user w (replaceContent uid content w).2 := by
  refine spares_noteMethod .replace ?_
  rw [Attempt.bind_run_ok (Attempt.look_run _ _), onNotes_run]
  split
  · rename_i t ht
    exact .of_notes (fun hk => hk.setContent ht) fun hk => Note.Table.others_setContent ht (ho hk)
  · exact Spares.refl user _

theorem spares_removeNote {uid : String} (ho : w.notes.Keyed → w.notes.Owns user uid) :
    Spares user w (removeNote uid w).2 := by
  refine spares_noteMethod .remove ?_
  rw [onNotes_run]
  exact .of_notes (fun hk => hk.erase uid) fun hk => Note.Table.others_erase (ho hk)

theorem keeps_notesOf (owner : Int) (f : Note.Filter) : Keeps (Spares user) (notesOf owner f) := fun _ =>
  spares_noteMethod .list ((Keeps.look _).bind (fun _ => .ofExcept _) _)

theorem keeps_noteCount (owner : Int) (status : String) : Keeps (Spares user) (noteCount owner status) := fun _ =>
  spares_noteMethod .count ((Keeps.look _).bind (fun _ => .ofExcept _) _)

theorem findNote_ends (uid : String) (w : World) :
    Ends (findNote uid) w fun r w' => w' = w.noteUsed ∧ ∀ n, r = .ok (some n) → w.notes.get? uid = some n := by
  unfold findNote
  refine Ends.bind (P := fun r w' => w' = w.noteUsed ∧ ∀ n, r = .ok (some (some n)) → w.notes.get? uid = some n) ?_
    (fun found w' h => ⟨h.1, fun n hn => h.2 n ?_⟩) fun e w' h => ⟨h.1, fun n hn => by cases hn⟩
  · unfold Ends
    rw [noteMethod_run]
    split
    · exact ⟨rfl, fun n hn => by cases hn⟩
    · exact ⟨rfl, fun n hn => by cases hn⟩
    · rw [Attempt.map_run]
      exact ⟨rfl, fun n hn => Option.some.inj (Except.ok.inj hn)⟩
  · have hn : found.join = some n := Except.ok.inj hn
    rw [Option.join_eq_some_iff.1 hn]

/-! ## The index -/

theorem keeps_indexed {α : Type} {t : Attempt Vector.Index α}
    (ht : Keeps (Vector.Index.Spares (Vector.collectionOf user)) t) : Keeps (Spares user) (indexed t) := fun w =>
  { Spares.refl user w with collections := ht w.index }

theorem keeps_need {α : Type} (member : String) (a : Option α) : Keeps (Spares user) (need member a) := by
  cases a with
  | none => exact .fail _
  | some a => exact .done a

end World

/-! ## The tools -/

namespace Tool
namespace Caller

open Attempt (Ends Keeps)
open World (Spares)

variable (c : Caller)

theorem keeps_index (uid content : String) : Keeps (Spares c.user) (c.index uid content) := by
  unfold index
  split
  · exact (World.keeps_indexed (Vector.Index.keeps_upsert _ _ _ _)).ignore
  · exact .done _

theorem keeps_forget (uid : String) : Keeps (Spares c.user) (c.forget uid) := by
  unfold forget
  split
  · exact (World.keeps_indexed (Vector.Index.keeps_delete _ _)).ignore
  · exact .done _

theorem lookUp_ends (uid : String) (w : World) :
    Ends (lookUp uid) w fun r w' => w.Looked w' ∧ ∀ n, r = .ok (some n) → w.notes.get? uid = some n := by
  unfold lookUp
  split
  · exact ⟨.inl rfl, fun n hn => by cases hn⟩
  · exact (World.findNote_ends uid w).mono fun r w' h => ⟨.inr h.1, h.2⟩

theorem claim_ok {c : Caller} {found : Option Note} {note : Note} (h : c.claim found = .ok note) :
    found = some note ∧ note.owner = c.user := by
  cases found with
  | none => cases h
  | some n =>
    by_cases howner : n.owner = c.user
    · simp only [claim, howner, beq_self_eq_true, if_true, Except.ok.injEq] at h
      exact ⟨congrArg some h, h ▸ howner⟩
    · simp [claim, howner] at h

/-- What the answer for a caller's own note is made from: the note that stands under the uid, if it was found. -/
theorem ownNote_claims (uid : String) (w : World) :
    Ends (c.ownNote uid) w fun r w' => w.Looked w' ∧ ∀ own, r = .ok own →
      ∃ found, own = c.claim found ∧ ∀ note, found = some note → w.notes.get? uid = some note := by
  refine (lookUp_ends uid w).bind (fun found w' h => ⟨h.1, fun own hown => ⟨found, ?_, fun note hn => h.2 note ?_⟩⟩)
    fun e w' h => ⟨h.1, fun n hn => by cases hn⟩
  · exact (Except.ok.inj hown).symm
  · rw [hn]

/-- **A note that a caller may change is the caller's**, and so is whatever else stands under its uid. -/
theorem ownNote_ends (uid : String) (w : World) :
    Ends (c.ownNote uid) w fun r w' => Spares c.user w w' ∧
      ∀ note, r = .ok (.ok note) → w'.notes.Keyed → w'.notes.Owns c.user note.uid := by
  refine (c.ownNote_claims uid w).mono fun r w' h => ⟨h.1.spares c.user, fun note hn hk => ?_⟩
  -- the owner is read off one row; no other stands under the uid, so the statement reaches nobody else's
  obtain ⟨found, hclaim, hget⟩ := h.2 _ hn
  obtain ⟨rfl, howner⟩ := claim_ok hclaim.symm
  have hget := hget note rfl
  obtain ⟨e, -, rfl, rfl⟩ := Note.Table.get?_some hget
  rw [h.1.notes] at hk ⊢
  rw [← howner]
  exact hk.owns_of_get? hget

/-- What is done with the caller's own note only has to spare others where the note is the caller's. -/
theorem keeps_withOwnNote (uid : String) {next : Except String Note → Attempt World String}
    (refused : ∀ answer, Keeps (Spares c.user) (next (.error answer)))
    (found : ∀ note w, (w.notes.Keyed → w.notes.Owns c.user note.uid) → Spares c.user w (next (.ok note) w).2) :
    Keeps (Spares c.user) (c.ownNote uid >>= next) := fun w => by
  refine (c.ownNote_ends uid w).bind (Q := fun _ w' => Spares c.user w w') (fun own w' h => ?_) fun e w' h => h.1
  cases own with
  | error answer => exact h.1.trans (refused answer w')
  | ok note => exact h.1.trans (found note w' (h.2 note rfl))

theorem keeps_createNote (args : Arguments) : Keeps (Spares c.user) (c.createNote args) := by
  refine (World.keeps_addNote _ _ _ _).settle.bind fun made => ?_
  cases made with
  | error e => exact .done _
  | ok made => exact (World.keeps_need _ _).bind fun note => (c.keeps_index _ _).bind fun _ => .done _

theorem keeps_changeNote (args : Arguments) (change : String → String) (failed success : String) :
    Keeps (Spares c.user) (c.changeNote args change failed success) := by
  refine c.keeps_withOwnNote _ (fun answer => .done _) fun note w ho => ?_
  refine (World.spares_replaceContent ho (change note.content)).trans ?_
  simp only [Attempt.settle_bind_run]
  cases (World.replaceContent note.uid (change note.content) w).1 with
  | error e => exact Spares.refl _ _
  | ok _ => exact (c.keeps_index _ _).bind (fun _ => .done _) _

theorem keeps_deleteNote (args : Arguments) : Keeps (Spares c.user) (c.deleteNote args) := by
  refine c.keeps_withOwnNote _ (fun answer => .done _) fun note w ho => ?_
  refine (World.spares_removeNote ho).trans ?_
  simp only [Attempt.settle_bind_run]
  cases (World.removeNote note.uid w).1 with
  | error e => exact Spares.refl _ _
  | ok _ => exact (c.keeps_forget _).bind (fun _ => .done _) _

/-! Tools that only read keep what their one use of a store or of the index keeps. -/

section
variable {R : World → World → Prop} [Std.Refl R] [Trans R R R]

theorem keeps_searchNotes (args : Arguments)
    (searched : ∀ query k tag, Keeps R (World.indexed (Vector.Index.search c.user query k tag))) :
    Keeps R (c.searchNotes args) := by
  simp only [searchNotes]
  split
  · exact .done _
  · exact (searched _ _ _).bind fun _ => .ofExcept _

theorem keeps_queryNotes (args : Arguments) (listed : ∀ f, Keeps R (World.notesOf c.user f)) :
    Keeps R (c.queryNotes args) :=
  (Keeps.ofExcept _).bind fun _ => (listed _).bind fun _ => .ofExcept _

theorem keeps_userStats (counted : ∀ status, Keeps R (World.noteCount c.user status)) : Keeps R c.userStats := by
  refine (counted _).settle.bind fun total => ?_
  cases total <;> exact .done _

theorem keeps_notesByTag (args : Arguments) (listed : ∀ f, Keeps R (World.notesOf c.user f)) :
    Keeps R (c.notesByTag args) := by
  simp only [notesByTag]
  split
  · exact .done _
  · refine (listed _).settle.bind fun found => ?_
    cases found <;> exact .done _

end

end Caller

open Attempt (Keeps)
open World (Spares)

theorem keeps_perform (c : Caller) (args : Arguments) (t : Tool) : Keeps (Spares c.user) (t.perform c args) := by
  cases t <;> simp only [perform, Caller.appendToNote, Caller.updateNote, Caller.updateNoteTags]
  case searchNotes =>
    exact c.keeps_searchNotes args fun _ _ _ => World.keeps_indexed (Vector.Index.keeps_search _ _ _ _)
  case queryNotes => exact c.keeps_queryNotes args fun _ => World.keeps_notesOf _ _
  case createNote => exact c.keeps_createNote args
  case appendToNote => exact c.keeps_changeNote args _ _ _
  case updateNote => exact c.keeps_changeNote args _ _ _
  case updateNoteTags => exact c.keeps_changeNote args _ _ _
  case deleteNote => exact c.keeps_deleteNote args
  case userStats => exact c.keeps_userStats fun _ => World.keeps_noteCount _ _
  case notesByTag => exact c.keeps_notesByTag args fun _ => World.keeps_notesOf _ _

/-- Each use of the note store and of the index that a tool makes keeps `R`. -/
structure UsesKeep (R : World → World → Prop) (c : Caller) : Prop where
  added : ∀ content, Keeps R (World.addNote c.user content none Note.normal)
  found : ∀ uid, Keeps R (World.findNote uid)
  replaced : ∀ uid content, Keeps R (World.replaceContent uid content)
  removed : ∀ uid, Keeps R (World.removeNote uid)
  listed : ∀ f, Keeps R (World.notesOf c.user f)
  counted : ∀ status, Keeps R (World.noteCount c.user status)
  indexed : ∀ {α : Type} (t : Attempt Vector.Index α), Keeps R (World.indexed t)

namespace UsesKeep

variable {R : World → World → Prop} [Std.Refl R] {c : Caller}

theorem index (h : UsesKeep R c) (uid content : String) : Keeps R (c.index uid content) := by
  unfold Caller.index
  split
  · exact (h.indexed _).ignore
  · exact .done _

theorem forget (h : UsesKeep R c) (uid : String) : Keeps R (c.forget uid) := by
  unfold Caller.forget
  split
  · exact (h.indexed _).ignore
  · exact .done _

variable [Trans R R R]

theorem ownNote (h : UsesKeep R c) (uid : String) : Keeps R (c.ownNote uid) := by
  refine Keeps.bind ?_ fun found => .done _
  unfold Caller.lookUp
  split
  · exact .done _
  · exact h.found uid

theorem createNote (h : UsesKeep R c) (args : Arguments) : Keeps R (c.createNote args) := by
  refine (h.added _).settle.bind fun made => ?_
  cases made with
  | error e => exact .done _
  | ok made =>
    cases made with
    | none => exact Keeps.bind (.fail _) fun _ => (h.index _ _).bind fun _ => .done _
    | some note => exact Keeps.bind (.done note) fun _ => (h.index _ _).bind fun _ => .done _

theorem changeNote (h : UsesKeep R c) (args : Arguments) (change : String → String) (failed success : String) :
    Keeps R (c.changeNote args change failed success) := by
  refine (h.ownNote _).bind fun own => ?_
  cases own with
  | error answer => exact .done _
  | ok note =>
    refine (h.replaced _ _).settle.bind fun done => ?_
    cases done with
    | error e => exact .done _
    | ok _ => exact (h.index _ _).bind fun _ => .done _

theorem deleteNote (h : UsesKeep R c) (args : Arguments) : Keeps R (c.deleteNote args) := by
  refine (h.ownNote _).bind fun own => ?_
  cases own with
  | error answer => exact .done _
  | ok note =>
    refine (h.removed _).settle.bind fun done => ?_
    cases done with
    | error e => exact .done _
    | ok _ => exact (h.forget _).bind fun _ => .done _

/-- **What each use of a store and of the index keeps, every tool keeps.** -/
theorem perform (h : UsesKeep R c) (t : Tool) (args : Arguments) : Keeps R (t.perform c args) := by
  cases t <;> simp only [Tool.perform, Caller.appendToNote, Caller.updateNote, Caller.updateNoteTags]
  case searchNotes => exact c.keeps_searchNotes args fun _ _ _ => h.indexed _
  case queryNotes => exact c.keeps_queryNotes args h.listed
  case createNote => exact h.createNote args
  case appendToNote => exact h.changeNote args _ _ _
  case updateNote => exact h.changeNote args _ _ _
  case updateNoteTags => exact h.changeNote args _ _ _
  case deleteNote => exact h.deleteNote args
  case userStats => exact c.keeps_userStats h.counted
  case notesByTag => exact c.keeps_notesByTag args h.listed

end UsesKeep

theorem keeps_execute {R : World → World → Prop} [Std.Refl R] {c : Caller}
    (performed : ∀ (t : Tool) args, Keeps R (t.perform c args)) (t : Tool) (raw : String) :
    Keeps R (t.execute c raw) := by
  unfold execute
  split
  · exact .done _
  · split
    · exact performed t []
    · split
      · exact .done _
      · exact performed t _

theorem answerTo_ok {name answer : String} {t : Attempt World String} {w w' : World} (h : t w = (.ok answer, w')) :
    answerTo name (some t) w = (.ok answer, w') := by
  rw [answerTo, Attempt.settle_bind_run, h]
  rfl

theorem answerTo_error {name : String} {t : Attempt World String} {w w' : World} {e : Failure} (h : t w = (.error e, w')) :
    answerTo name (some t) w = (.ok ("Error: " ++ e.message), w') := by
  rw [answerTo, Attempt.settle_bind_run, h]
  rfl

/-- What a tool keeps, the answer to its call keeps. -/
theorem keeps_answerTo {R : World → World → Prop} [Std.Refl R] [Trans R R R] (name : String)
    {found : Option (Attempt World String)} (h : ∀ t ∈ found, Keeps R t) : Keeps R (answerTo name found) := by
  unfold answerTo
  cases found with
  | none => exact .done _
  | some t =>
    refine (h t rfl).settle.bind fun answer => ?_
    cases answer <;> exact .done _

/-- What every tool keeps, whatever its arguments, the running of a tool keeps. -/
theorem keeps_run_of {R : World → World → Prop} [Std.Refl R] [Trans R R R] {c : Caller}
    (performed : ∀ (t : Tool) args, Keeps R (t.perform c args)) (name raw : String) : Keeps R (run c name raw) := by
  refine keeps_answerTo name fun t ht => ?_
  obtain ⟨tool, -, rfl⟩ := Option.map_eq_some_iff.1 ht
  exact keeps_execute performed tool raw

/-- **A tool run for a user spares what others have**, whatever the model wrote and whatever breaks off. -/
theorem keeps_run (c : Caller) (name raw : String) : Keeps (Spares c.user) (run c name raw) :=
  keeps_run_of (fun t args => keeps_perform c args t) name raw

theorem keeps_dispatch (c : Caller) (name arguments : Json) :
    Keeps (Spares c.user) ((registry c).dispatch name arguments) := by
  refine keeps_answerTo _ fun t ht => ?_
  obtain ⟨o, ho, rfl⟩ := Option.map_eq_some_iff.1 ht
  obtain ⟨tool, -, rfl⟩ := List.mem_map.1 (List.mem_of_find?_eq_some ho)
  exact keeps_execute (fun t args => keeps_perform c args t) tool _

/-! ## Runs of tools -/

/-- What a call keeps of others; the clock and the ids are not theirs. -/
structure KeepsOthers (user : Int) (w w' : World) : Prop where
  keyed : w.notes.Keyed → w'.notes.Keyed
  others : w.notes.Keyed → w'.notes.others user = w.notes.others user
  collections : Vector.Index.Spares (Vector.collectionOf user) w.index w'.index

theorem Call.keepsOthers (user : Int) (w : World) (k : Call) : KeepsOthers user w (k.after user w) :=
  have h := keeps_run (k.caller user) k.name k.raw { w with clock := k.clock, nextId := k.nextId }
  ⟨h.keyed, h.others, h.collections⟩

theorem afterCalls_keepsOthers (user : Int) (w : World) (ks : List Call) : KeepsOthers user w (afterCalls user w ks) := by
  induction ks generalizing w with
  | nil => exact ⟨id, fun _ => rfl, fun _ _ => rfl⟩
  | cons k ks ih =>
    have h := k.keepsOthers user w
    have h' := ih (k.after user w)
    exact ⟨h'.keyed ∘ h.keyed, fun hk => (h'.others (h.keyed hk)).trans (h.others hk),
      fun n hn => (h'.collections n hn).trans (h.collections n hn)⟩

/-- **However many tools are run for a user, nothing of others changes**: their rows of the note table are the same in the
same order, every other collection is the same or still not there, and a note that some call makes, changes or deletes is
the user's before and after that call. -/
theorem afterCalls_spares_others (user : Int) (w : World) (hk : w.notes.Keyed) (ks : List Call) :
    (afterCalls user w ks).notes.others user = w.notes.others user ∧
    (∀ name, name ≠ Vector.collectionOf user →
      Json.lookup name (afterCalls user w ks).index.service.collections =
        Json.lookup name w.index.service.collections) ∧
    ∀ (pre : List Call) (k : Call) (post : List Call), ks = pre ++ k :: post →
      ∀ (uid : String) (n : Note),
        (afterCalls user w pre).notes.get? uid ≠ (k.after user (afterCalls user w pre)).notes.get? uid →
        (afterCalls user w pre).notes.get? uid = some n ∨
          (k.after user (afterCalls user w pre)).notes.get? uid = some n →
        n.owner = user := by
  have h := afterCalls_keepsOthers user w ks
  refine ⟨h.others hk, h.collections, fun pre k post _ uid n hc hn => ?_⟩
  have hpre := (afterCalls_keepsOthers user w pre).keyed hk
  have hstep := k.keepsOthers user (afterCalls user w pre)
  exact Note.Table.owner_of_get?_ne hpre (hstep.keyed hpre) (hstep.others hpre) hc hn

/-- Two notes of two owners, and a vector service that refuses every other call. -/
def twoOwners : World :=
  { World.fresh 5 (.fresh ⟨[], [], fun n _ => if n % 2 = 0 then none else some (.refused "busy"), fun _ => none,
      fun _ _ => none⟩ ⟨fun _ _ => .ok [[]], 0⟩ 0) (.fresh (.always "") (.always "") (.always "")) with
    notes := ⟨[⟨1, "a", 1, "one", Note.normal, 0, 0⟩, ⟨2, "b", 2, "two", Note.normal, 0, 0⟩]⟩ }

/-- A note of the user's is rewritten, and one of somebody else's is asked to be deleted. -/
def twoCalls : List Call :=
  [⟨7, 1, true, "", "update_note", "\x7b\"uid\": \"a\", \"content\": \"new\"\x7d"⟩,
    ⟨8, 1, true, "", "delete_note", "\x7b\"uid\": \"b\"\x7d"⟩]

theorem afterCalls_spares_others_twoOwners :
    twoOwners.notes.Keyed ∧
    (afterCalls 1 twoOwners twoCalls).notes.get? "a" = some ⟨"a", 1, "new", Note.normal, 0, 7⟩ ∧
    (afterCalls 1 twoOwners twoCalls).notes.others 1 = [⟨2, "b", 2, "two", Note.normal, 0, 0⟩] :=
  ⟨by decide, by decide +kernel, (afterCalls_spares_others 1 twoOwners (by decide) twoCalls).1.trans (by decide)⟩

end Tool
end NoteAgent
