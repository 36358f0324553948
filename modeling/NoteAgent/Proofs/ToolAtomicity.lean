import NoteAgent.Proofs.EditSteps
/-!
# ToolAtomicity — a tool makes its one change, or none, and says which

A call has a text for an answer, whatever the model wrote and wherever a store, the index or the embedding breaks off.
The answer goes with what was done (`dispatch_whole`).  A tool that answers with its success has made one change of the
notes, the one that it is there for (`Done`), even if the index could not be told.  A tool that answers anything else, and
one that only reads, has changed no note and no row of a collection (`Unmoved`): the statement on the notes is the last
thing that can fail, and the index is only told after it.
-/
namespace NoteAgent
namespace World

open Attempt (Ends Keeps)

/-- No note and no row of any collection has changed. -/
structure Unmoved (w w' : World) : Prop where
  notes : w'.notes = w.notes
  rows : ∀ name, w'.index.service.rows name = w.index.service.rows name

theorem Unmoved.refl (w : World) : Unmoved w w := ⟨rfl, fun _ => rfl⟩

theorem Unmoved.trans {w w' w'' : World} (h : Unmoved w w') (h' : Unmoved w' w'') : Unmoved w w'' :=
  ⟨h'.notes.trans h.notes, fun name => (h'.rows name).trans (h.rows name)⟩

instance : Std.Refl Unmoved := ⟨Unmoved.refl⟩
instance : Trans Unmoved Unmoved Unmoved := ⟨Unmoved.trans⟩

theorem Unmoved.of_index {w w' : World} (hnotes : w'.notes = w.notes) (hindex : w'.index = w.index) : Unmoved w w' :=
  ⟨hnotes, fun _ => by rw [hindex]⟩

variable {w w' : World}

theorem Looked.unmoved (h : w.Looked w') : Unmoved w w' := .of_index h.notes h.notesOnly.index

theorem Looked.clock (h : w.Looked w') : w'.clock = w.clock := by rcases h with rfl | rfl <;> rfl

theorem Looked.outspoken (h : w.Looked w') (hw : w.Outspoken) : w'.Outspoken := fun n m => by
  rw [h.notesOnly.strikes]
  exact hw n m

/-! ## Reading -/

/-- A method that reads changes nothing, whatever strikes it. -/
theorem unmoved_noteMethod {α : Type} (m : Note.Method) {t : Attempt World α} (ht : ∀ w, (t w).2 = w) :
    Keeps Unmoved (noteMethod m t) := fun w => by
  rw [noteMethod_reads m ht]
  exact .of_index rfl rfl

theorem unmoved_search (user : Int) (query : String) (k : Int) (tag : Option String) :
    Keeps Unmoved (indexed (Vector.Index.search user query k tag)) := fun w =>
  ⟨rfl, (Vector.Index.unwritten_search user query k tag w.index).rows⟩

end World

namespace Tool

open Attempt (Ends Keeps)
open World (Outspoken Unmoved)

/-! ## Success -/

/-- The answer is the tool's text of success.  A tool that only reads has none. -/
def Succeeds (answer : String) : Tool → Prop
  | .createNote => ∃ uid, answer = "Note successfully created with UID: " ++ uid
  | .appendToNote => answer = "Content successfully appended to note."
  | .updateNote => answer = "Note successfully updated."
  | .updateNoteTags => answer = "Tags successfully added to the note body."
  | .deleteNote => answer = "Note successfully and permanently deleted."
  | .searchNotes | .queryNotes | .userStats | .notesByTag => False

/-- The rows after an edit of a note at a time: those under its uid have the new content, or are gone.  All others are as
they were. -/
def Edit.applied (e : Edit) (note : Note) (now : Int) (es : List Note.Entry) : List Note.Entry :=
  match e.result? note.content with
  | some content => es.map (Note.Table.Entry.revised note.uid content now)
  | none => es.filter (·.note.uid != note.uid)

/-- **The one change of the notes that a tool is there for**, at a time, and what is answered for it. -/
inductive Done (c : Caller) (args : Arguments) (now : Int) (t t' : Note.Table) : Tool → String → Prop
  | creates {uid : String} (unused : ∀ e ∈ t.entries, e.note.uid ≠ uid)
    (entries : t'.entries =
      t.entries ++ [⟨t.nextRow, uid, c.user, text args "content", Note.normal, now, now⟩]) :
    Done c args now t t' .createNote ("Note successfully created with UID: " ++ uid)
  | edits {tool : Tool} {e : Edit} {note : Note} (edit : Edit.of? args tool = some e)
    (found : t.get? (text args "uid") = some note) (own : note.owner = c.user)
    (entries : t'.entries = e.applied note now t.entries) : Done c args now t t' tool e.success

/-- The arguments that a tool takes from what a model wrote. -/
def given? (t : Tool) (raw : String) : Option Arguments := t.form?.bind fun form => form.read raw

variable {c : Caller} {args : Arguments} {w w' : World}

theorem succeeds_iff {t : Tool} {e : Edit} (h : Edit.of? args t = some e) (answer : String) :
    t.Succeeds answer ↔ answer = e.success := by
  cases t <;> cases h <;> rfl

theorem not_succeeds_of_error {answer : String} (h : answer.toList.head? = some 'E') (t : Tool) :
    ¬t.Succeeds answer := by
  intro hs
  cases t with
  | createNote =>
    obtain ⟨uid, rfl⟩ := hs
    simp at h
  | searchNotes => exact hs
  | queryNotes => exact hs
  | userStats => exact hs
  | notesByTag => exact hs
  | appendToNote => cases hs; simp at h
  | updateNote => cases hs; simp at h
  | updateNoteTags => cases hs; simp at h
  | deleteNote => cases hs; simp at h

theorem Done.succeeds {now : Int} {t t' : Note.Table} {tool : Tool} {answer : String}
    (h : Done c args now t t' tool answer) : tool.Succeeds answer := by
  cases h with
  | creates => exact ⟨_, rfl⟩
  | edits edit => exact (succeeds_iff edit _).2 rfl

/-! ## The tools -/

/-- What a tool has come to: it has made its change and says so, or it has changed nothing and does not say that it has. -/
def Settles (c : Caller) (args : Arguments) (t : Tool) (w : World) (r : Except Failure String) (w' : World) : Prop :=
  (∃ answer, r = .ok answer ∧ Done c args w.clock w.notes w'.notes t answer) ∨
    Unmoved w w' ∧ ∀ answer, r = .ok answer → ¬t.Succeeds answer

theorem Settles.error {t : Tool} {e : Failure} (h : Unmoved w w') : Settles c args t w (.error e) w' :=
  .inr ⟨h, fun _ he => by cases he⟩

theorem Settles.refused {t : Tool} {answer : String} (h : Unmoved w w') (he : answer.toList.head? = some 'E') :
    Settles c args t w (.ok answer) w' :=
  .inr ⟨h, fun _ hr => Except.ok.inj hr ▸ not_succeeds_of_error he t⟩

/-- Telling the index never breaks off, and leaves the notes alone. -/
theorem Caller.tell_done (c : Caller) (uid : String) (content : Option String) (w : World) :
    Ends (c.tell uid content) w fun r w' => r = .ok () ∧ w'.notes = w.notes := by
  cases content with
  | some content =>
    rw [Caller.tell, Caller.index]
    split <;> exact ⟨rfl, rfl⟩
  | none =>
    rw [Caller.tell, Caller.forget]
    split <;> exact ⟨rfl, rfl⟩

theorem Caller.createNote_settles (c : Caller) (args : Arguments) (hw : w.Outspoken) :
    Ends (c.createNote args) w (Settles c args .createNote w) := by
  refine Ends.settle (World.addNote_ends hw c.user (text args "content") none Note.normal) ?_
  rintro r w' ⟨hw', ⟨e, rfl, hnotes⟩ | ⟨uid, rfl, hinsert⟩⟩
  · exact .refused (.of_index hnotes hw'.index) (by simp)
  · obtain ⟨hunused, htable⟩ := Note.Table.insert_ok hinsert
    refine Ends.next rfl ((c.tell_done uid (some (text args "content")) w').bind ?_ ?_)
    · rintro done w'' ⟨-, hnotes⟩
      exact .inl ⟨_, rfl, .creates hunused (congrArg Note.Table.entries (hnotes.trans htable))⟩
    · rintro e w'' ⟨he, -⟩
      cases he

theorem store_settles (hw : w.Outspoken) (e : Edit) (note : Note) :
    Ends (e.store note) w fun r w' => w'.index = w.index ∧
      ((∃ f, r = .error f ∧ w'.notes = w.notes) ∨
        r = .ok (some ()) ∧ w'.notes.entries = e.applied note w.clock w.notes.entries) := by
  unfold Edit.store Edit.applied
  cases hresult : e.result? note.content with
  | some content =>
    refine (World.replaceContent_ends hw note.uid content).mono ?_
    rintro r w' ⟨hw', hfailed | ⟨rfl, hset⟩⟩
    · exact ⟨hw'.index, .inl hfailed⟩
    · exact ⟨hw'.index, .inr ⟨rfl, congrArg Note.Table.entries (Note.Table.setContent_ok hset).2⟩⟩
  | none =>
    refine (World.removeNote_ends hw note.uid).mono ?_
    rintro r w' ⟨hw', hfailed | ⟨rfl, herase⟩⟩
    · exact ⟨hw'.index, .inl hfailed⟩
    · exact ⟨hw'.index, .inr ⟨rfl, congrArg Note.Table.entries herase⟩⟩

theorem EditCall.whole_settles {t : Tool} {e : Edit} (he : Edit.of? args t = some e) (hw : w.Outspoken) :
    Ends (EditCall.whole ⟨c, text args "uid", e⟩) w (Settles c args t w) := by
  refine (c.ownNote_claims (text args "uid") w).bind ?_ fun f w' h => .error h.1.unmoved
  rintro own w' ⟨hlooked, hclaim⟩
  obtain ⟨found, rfl, hfound⟩ := hclaim own rfl
  cases hown : c.claim found with
  | error answer =>
    refine .inr ⟨hlooked.unmoved, fun answer' hanswer hs => ?_⟩
    cases hanswer
    exact EditCall.Stage.claim_ne_success hown e ((succeeds_iff he _).1 hs)
  | ok note =>
    obtain ⟨rfl, howner⟩ := Caller.claim_ok hown
    refine Ends.settle (store_settles (hlooked.outspoken hw) e note) ?_
    rintro r w'' ⟨hindex, ⟨f, rfl, hnotes⟩ | ⟨rfl, hentries⟩⟩
    · refine .inr ⟨hlooked.unmoved.trans (.of_index hnotes hindex), fun answer' hanswer hs => ?_⟩
      cases hanswer
      exact EditCall.Stage.failed_ne_success e _ ((succeeds_iff he _).1 hs)
    · refine (c.tell_done note.uid (e.result? note.content) w'').bind ?_ ?_
      · rintro done w₃ ⟨-, hnotes⟩
        refine .inl ⟨_, rfl, .edits he (hfound note rfl) howner ?_⟩
        rw [hlooked.clock, hlooked.notes] at hentries
        exact (congrArg Note.Table.entries hnotes).trans hentries
      · rintro f w₃ ⟨hf, -⟩
        cases hf

theorem Settles.of_reading {t : Tool} {r : Except Failure String} (h : Unmoved w w') (ht : ∀ answer, ¬t.Succeeds answer) :
    Settles c args t w r w' := .inr ⟨h, fun answer _ => ht answer⟩

/-- **A tool makes its change and says so, or changes nothing**, wherever a store or the index breaks off. -/
theorem perform_settles (c : Caller) (args : Arguments) (hw : w.Outspoken) (t : Tool) :
    Ends (t.perform c args) w (Settles c args t w) := by
  have hedit {e : Edit} (he : Edit.of? args t = some e) : Ends (t.perform c args) w (Settles c args t w) := by
    rw [EditCall.perform_eq_whole he]
    exact EditCall.whole_settles he hw
  cases t with
  | createNote => exact c.createNote_settles args hw
  | appendToNote => exact hedit rfl
  | updateNote => exact hedit rfl
  | updateNoteTags => exact hedit rfl
  | deleteNote => exact hedit rfl
  | searchNotes => exact .of_reading (c.keeps_searchNotes args (World.unmoved_search c.user) w) fun _ => id
  | queryNotes =>
    exact .of_reading (c.keeps_queryNotes args (fun _ => World.unmoved_noteMethod _ fun _ => rfl) w) fun _ => id
  | userStats => exact .of_reading (c.keeps_userStats (fun _ => World.unmoved_noteMethod _ fun _ => rfl) w) fun _ => id
  | notesByTag =>
    exact .of_reading (c.keeps_notesByTag args (fun _ => World.unmoved_noteMethod _ fun _ => rfl) w) fun _ => id

/-! ## Calls -/

/-- The same of a tool run on what a model wrote. -/
theorem execute_settles (c : Caller) (hw : w.Outspoken) (t : Tool) (raw : String) :
    Ends (t.execute c raw) w fun r w' =>
      (∃ args answer, t.given? raw = some args ∧ r = .ok answer ∧ Done c args w.clock w.notes w'.notes t answer) ∨
        Unmoved w w' ∧ ∀ answer, r = .ok answer → ¬t.Succeeds answer := by
  unfold execute given?
  split
  · rename_i hsearch
    obtain ⟨hsearch, -⟩ := Bool.and_eq_true_iff.1 hsearch
    rw [beq_iff_eq.1 hsearch]
    exact .inr ⟨.refl w, fun _ _ => id⟩
  · cases hform : t.form? with
    | none =>
      have hreads : ∀ answer, ¬t.Succeeds answer := by cases t <;> first | exact fun _ => id | cases hform
      refine (perform_settles c [] hw t).mono ?_
      rintro r w' (⟨answer, rfl, hdone⟩ | hunmoved)
      · exact absurd hdone.succeeds (hreads answer)
      · exact .inr hunmoved
    | some form =>
      dsimp only
      rw [Option.bind_some]
      cases hread : form.read raw with
      | none => exact .inr ⟨.refl w, fun _ he => Except.ok.inj he ▸ not_succeeds_of_error rfl t⟩
      | some args =>
        refine (perform_settles c args hw t).mono ?_
        rintro r w' (⟨answer, rfl, hdone⟩ | hunmoved)
        · exact .inl ⟨args, answer, rfl, rfl, hdone⟩
        · exact .inr hunmoved

/-- The answer to a call goes with what was done: a text of success with the one change that the tool is there for, and any
other text, or that of a tool that only reads, with no change of a note or of a row. -/
structure Whole (c : Caller) (name raw : String) (w : World) (answer : String) (w' : World) : Prop where
  changed : ∀ t, named? name = some t → t.Succeeds answer →
    ∃ args, t.given? raw = some args ∧ Done c args w.clock w.notes w'.notes t answer
  unmoved : (∀ t, named? name = some t → ¬t.Succeeds answer) → Unmoved w w'

/-- **A call is answered with a text in any case, and the text goes with what was done**, whatever the model wrote and
wherever the note store, the index or the embedding breaks off. -/
theorem dispatch_whole (c : Caller) (w : World) (hw : w.Outspoken) (name raw : String) :
    ∃ answer w', (registry c).dispatch (.text name) (.text raw) w = (.ok answer, w') ∧ Whole c name raw w answer w' := by
  rw [dispatch_registry, run]
  cases hfound : named? name with
  | none =>
    refine ⟨_, _, rfl, ⟨fun t ht => ?_, fun _ => .refl w⟩⟩
    rw [hfound] at ht
    cases ht
  | some t =>
    have hnamed {t' : Tool} (ht : named? name = some t') : t' = t := Option.some.inj (ht.symm.trans hfound)
    have hsettles := execute_settles c hw t raw
    unfold Ends at hsettles
    rw [Option.map_some, answerTo, Attempt.settle_bind_run]
    cases hr : (t.execute c raw w).1 with
    | error e =>
      rw [hr] at hsettles
      obtain ⟨_, _, -, he, -⟩ | ⟨hunmoved, -⟩ := hsettles
      · cases he
      · refine ⟨_, _, rfl, ⟨fun t' ht hs => ?_, fun _ => hunmoved⟩⟩
        exact absurd hs (not_succeeds_of_error (by simp) t')
    | ok answer =>
      rw [hr] at hsettles
      refine ⟨_, _, rfl, ⟨fun t' ht hs => ?_, fun hno => ?_⟩⟩
      · rw [hnamed ht] at hs ⊢
        obtain ⟨args, _, hgiven, he, hdone⟩ | ⟨-, hno⟩ := hsettles
        · cases he
          exact ⟨args, hgiven, hdone⟩
        · exact absurd hs (hno answer rfl)
      · obtain ⟨_, _, -, he, hdone⟩ | ⟨hunmoved, -⟩ := hsettles
        · cases he
          exact absurd hdone.succeeds (hno t hfound)
        · exact hunmoved

/-- A note store in which no note can be deleted, and a vector service that refuses every call. -/
def lockedStore : World :=
  { World.fresh 5 (.fresh ⟨[], [], fun _ _ => some (.refused "busy"), fun _ => none, fun _ _ => none⟩
      ⟨fun _ _ => .ok [[]], 0⟩ 0) (.fresh (.always "") (.always "") (.always "")) with
    notes := ⟨[⟨1, "a", 1, "one", Note.normal, 0, 0⟩, ⟨2, "b", 2, "two", Note.normal, 0, 0⟩]⟩
    noteFaults := ⟨fun _ m => if m = .remove then some (.breaks "database is locked") else none, 0⟩ }

def firstUser : Caller := { user := 1, indexed := true }

def appending : String := "\x7b\"uid\": \"a\", \"content\": \"more\"\x7d"

def deleting : String := "\x7b\"uid\": \"a\"\x7d"

theorem dispatch_whole_lockedStore :
    lockedStore.Outspoken ∧
    (∃ args w', (registry firstUser).dispatch (.text "append_to_note") (.text appending) lockedStore =
        (.ok "Content successfully appended to note.", w') ∧ appendToNote.given? appending = some args ∧
      Done firstUser args 5 lockedStore.notes w'.notes .appendToNote "Content successfully appended to note.") ∧
    ∃ w', (registry firstUser).dispatch (.text "delete_note") (.text deleting) lockedStore =
        (.ok "Error deleting note: database is locked", w') ∧ Unmoved lockedStore w' := by
  have hw : lockedStore.Outspoken := fun n m h => by
    change (if m = .remove then _ else _) = _ at h
    split at h <;> cases h
  refine ⟨hw, ?_, ?_⟩
  · obtain ⟨answer, w', hrun, hwhole⟩ := dispatch_whole firstUser lockedStore hw "append_to_note" appending
    have hanswer : ((registry firstUser).dispatch (.text "append_to_note") (.text appending) lockedStore).1 =
        .ok "Content successfully appended to note." := by decide +kernel
    rw [hrun] at hanswer
    cases hanswer
    obtain ⟨args, hgiven, hdone⟩ := hwhole.changed .appendToNote (by decide) rfl
    exact ⟨args, w', hrun, hgiven, hdone⟩
  · obtain ⟨answer, w', hrun, hwhole⟩ := dispatch_whole firstUser lockedStore hw "delete_note" deleting
    have hanswer : ((registry firstUser).dispatch (.text "delete_note") (.text deleting) lockedStore).1 =
        .ok "Error deleting note: database is locked" := by decide +kernel
    rw [hrun] at hanswer
    cases hanswer
    exact ⟨w', hrun, hwhole.unmoved fun t _ => not_succeeds_of_error rfl t⟩

end Tool
end NoteAgent
