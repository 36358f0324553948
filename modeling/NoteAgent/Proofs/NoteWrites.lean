import NoteAgent.Proofs.IndexRows
import NoteAgent.Proofs.ToolReach
/-!
# NoteWrites — writing to the note store and to the index

Where faults only break methods of the note store off (`World.Outspoken`), a use of the store is the statement on the
table, or fails with nothing done.  Where no fault strikes at all, the service refuses nothing and every text is embedded
(`World.Willing`), a note that is written to the index is a document of the user's collection (`Note.document`).  The
store's uses leave the index alone, and the index's uses leave the store alone.
-/
namespace NoteAgent

/-- What the index holds of a note. -/
def Note.document (n : Note) : Vector.Document := ⟨n.uid, n.content, Tool.indexFields n.content⟩

namespace World

open Attempt (Ends Keeps)

/-- Nothing fails: no fault strikes the note store, and the index is willing. -/
structure Willing (w : World) : Prop where
  steady : ∀ n m, w.noteFaults.strikes n m = none
  index : w.index.Willing

/-- What strikes the note store breaks the method off: none answers nothing. -/
def Outspoken (w : World) : Prop := ∀ n m, w.noteFaults.strikes n m ≠ some .silent

theorem Willing.outspoken {w : World} (hw : w.Willing) : w.Outspoken := fun n m h => by
  rw [hw.steady] at h
  cases h

/-- The note store, the service and the embedder go on behaving as they do. -/
structure Alike (w w' : World) : Prop where
  strikes : w'.noteFaults.strikes = w.noteFaults.strikes
  index : w.index.Alike w'.index

theorem Alike.refl (w : World) : Alike w w := ⟨rfl, .refl _⟩

theorem Willing.alike {w w' : World} (h : w.Willing) (ha : Alike w w') : w'.Willing where
  steady n m := by rw [ha.strikes, h.steady]
  index := h.index.alike ha.index

/-! ## The note store -/

/-- Only the notes have changed, and how often their store was used. -/
structure NotesOnly (w w' : World) : Prop where
  strikes : w'.noteFaults.strikes = w.noteFaults.strikes
  index : w'.index = w.index

theorem NotesOnly.alike {w w' : World} (h : NotesOnly w w') : Alike w w' := ⟨h.strikes, h.index ▸ .refl _⟩

theorem Looked.notesOnly {w w' : World} (h : w.Looked w') : NotesOnly w w' := by
  rcases h with rfl | rfl <;> exact ⟨rfl, rfl⟩

variable {w : World}

/-- A method of the store breaks off with nothing done, or is carried out. -/
theorem noteMethod_ends {α : Type} (hw : w.Outspoken) {m : Note.Method} {t : Attempt World α}
    {Q : Except Failure (Option α) → World → Prop} (broken : ∀ e, Q (.error e) w.noteUsed)
    (ran : Ends t w.noteUsed fun r w' => Q (r.map some) w') : Ends (noteMethod m t) w Q := by
  unfold Ends
  rw [noteMethod_run]
  split
  · exact broken _
  · rename_i hsilent
    exact absurd hsilent (hw _ _)
  · rw [Attempt.map_run]
    exact ran

/-- A method that nothing strikes is carried out. -/
theorem noteMethod_steady {α : Type} {m : Note.Method} (h : ∀ n, w.noteFaults.strikes n m = none)
    (t : Attempt World α) : noteMethod m t w = (some <$> t) w.noteUsed := by
  rw [noteMethod_run, h]

theorem noteMethod_ends_steady {α : Type} {m : Note.Method} {t : Attempt World α}
    {Q : Except Failure (Option α) → World → Prop} (h : ∀ n, w.noteFaults.strikes n m = none)
    (ran : Ends t w.noteUsed fun r w' => Q (r.map some) w') : Ends (noteMethod m t) w Q := by
  unfold Ends
  rw [noteMethod_steady h]
  exact Ends.map ran

theorem notesOf_run (h : ∀ n, w.noteFaults.strikes n .list = none) (owner : Int) (f : Note.Filter) :
    notesOf owner f w = ((w.notes.select owner f).map some, w.noteUsed) := by
  rw [notesOf, noteMethod_steady h]
  exact Attempt.map_run _ _ _

theorem notesOf_fst (h : ∀ n, w.noteFaults.strikes n .list = none) (owner : Int) (f : Note.Filter) :
    (notesOf owner f w).1 = (w.notes.select owner f).map some := congrArg Prod.fst (notesOf_run h owner f)

theorem noteCount_fst (h : ∀ n, w.noteFaults.strikes n .count = none) (owner : Int) (status : String) :
    (noteCount owner status w).1 = (w.notes.count owner status).map some := by
  rw [noteCount, noteMethod_steady h]
  exact congrArg Prod.fst (Attempt.map_run _ _ _)

theorem onNotes_ok {f : Note.Table → Except Failure Note.Table} {t : Note.Table} (h : f w.notes = .ok t) :
    onNotes f w = (.ok (), { w with notes := t }) := by
  rw [onNotes_run, h]

/-- A statement is run, or refused and then changes nothing. -/
theorem onNotes_ends (f : Note.Table → Except Failure Note.Table) (w : World) :
    Ends (onNotes f) w fun r w' => NotesOnly w w' ∧
      ((∃ e, r = .error e ∧ w'.notes = w.notes) ∨ r = .ok () ∧ f w.notes = .ok w'.notes) := by
  unfold Ends
  rw [onNotes_run]
  split
  · rename_i t ht
    exact ⟨⟨rfl, rfl⟩, .inr ⟨rfl, ht⟩⟩
  · exact ⟨⟨rfl, rfl⟩, .inl ⟨_, rfl, rfl⟩⟩

theorem addNote_ends (hw : w.Outspoken) (owner : Int) (content : String) (created : Option Int) (status : String) :
    Ends (addNote owner content created status) w fun r w' => NotesOnly w w' ∧
      ((∃ e, r = .error e ∧ w'.notes = w.notes) ∨
        ∃ uid, r = .ok (some ⟨uid, owner, content, status, created.getD w.clock, w.clock⟩) ∧
          w.notes.insert ⟨uid, owner, content, status, created.getD w.clock, w.clock⟩ = .ok w'.notes) := by
  refine noteMethod_ends hw (fun e => ⟨⟨rfl, rfl⟩, .inl ⟨e, rfl, rfl⟩⟩) ?_
  refine Ends.next rfl (Ends.look (Ends.bind (onNotes_ends _ _) ?_ ?_))
  · rintro done w' ⟨hw', ⟨e, he, -⟩ | ⟨-, hinsert⟩⟩
    · cases he
    · exact ⟨⟨hw'.strikes, hw'.index⟩, .inr ⟨_, rfl, hinsert⟩⟩
  · rintro e w' ⟨hw', ⟨e', -, hnotes⟩ | ⟨hr, -⟩⟩
    · exact ⟨⟨hw'.strikes, hw'.index⟩, .inl ⟨e, rfl, hnotes⟩⟩
    · cases hr

theorem replaceContent_ends (hw : w.Outspoken) (uid content : String) :
    Ends (replaceContent uid content) w fun r w' => NotesOnly w w' ∧
      ((∃ e, r = .error e ∧ w'.notes = w.notes) ∨
        r = .ok (some ()) ∧ w.notes.setContent uid content w.clock = .ok w'.notes) := by
  refine noteMethod_ends hw (fun e => ⟨⟨rfl, rfl⟩, .inl ⟨e, rfl, rfl⟩⟩) (Ends.look ((onNotes_ends _ _).mono ?_))
  rintro r w' ⟨hw', ⟨e, rfl, hnotes⟩ | ⟨rfl, hset⟩⟩
  · exact ⟨⟨hw'.strikes, hw'.index⟩, .inl ⟨e, rfl, hnotes⟩⟩
  · exact ⟨⟨hw'.strikes, hw'.index⟩, .inr ⟨rfl, hset⟩⟩

theorem removeNote_ends (hw : w.Outspoken) (uid : String) :
    Ends (removeNote uid) w fun r w' => NotesOnly w w' ∧
      ((∃ e, r = .error e ∧ w'.notes = w.notes) ∨ r = .ok (some ()) ∧ w'.notes = w.notes.erase uid) :=
  noteMethod_ends hw (fun e => ⟨⟨rfl, rfl⟩, .inl ⟨e, rfl, rfl⟩⟩) ⟨⟨rfl, rfl⟩, .inr ⟨rfl, rfl⟩⟩

/-! ## The index -/

theorem indexed_upsert_ends (hw : w.Willing) (user : Int) (uid content : String) :
    Ends (indexed (Vector.Index.upsert user uid content (Tool.indexFields content))) w fun r w' => r = .ok () ∧
      Alike w w' ∧ w'.notes = w.notes ∧ w'.index.documents user =
        Vector.putDocument ⟨uid, content, Tool.indexFields content⟩ (w.index.documents user) := by
  obtain ⟨hr, hlike, v, hrows⟩ := Vector.Index.upsert_ends hw.index user uid content (Tool.indexFields content)
  refine ⟨hr, ⟨rfl, hlike⟩, rfl, ?_⟩
  change Vector.Index.documents (Vector.Index.upsert user uid content (Tool.indexFields content) w.index).2 user = _
  rw [Vector.Index.documents, hrows, Vector.map_putRow]
  rfl

theorem indexed_delete_ends (hw : w.Willing) (user : Int) (uid : String) :
    Ends (indexed (Vector.Index.delete user uid)) w fun r w' => r = .ok () ∧ Alike w w' ∧ w'.notes = w.notes ∧
      w'.index.documents user = (w.index.documents user).filter (·.id != uid) := by
  obtain ⟨hr, hlike, hrows⟩ := Vector.Index.delete_ends hw.index user uid
  refine ⟨hr, ⟨rfl, hlike⟩, rfl, ?_⟩
  change Vector.Index.documents (Vector.Index.delete user uid w.index).2 user = _
  rw [Vector.Index.documents, hrows, Vector.map_dropRows]
  rfl

end World

namespace Tool
namespace Caller

open Attempt (Ends)
open World (Alike)

variable {c : Caller} {w : World}

theorem index_ends (hc : c.indexed = true) (hw : w.Willing) (uid content : String) :
    Ends (c.index uid content) w fun r w' => r = .ok () ∧ Alike w w' ∧ w'.notes = w.notes ∧
      w'.index.documents c.user = Vector.putDocument ⟨uid, content, indexFields content⟩ (w.index.documents c.user) := by
  unfold index
  rw [if_pos hc]
  exact ⟨rfl, (World.indexed_upsert_ends hw c.user uid content).2⟩

theorem forget_ends (hc : c.indexed = true) (hw : w.Willing) (uid : String) :
    Ends (c.forget uid) w fun r w' => r = .ok () ∧ Alike w w' ∧ w'.notes = w.notes ∧
      w'.index.documents c.user = (w.index.documents c.user).filter (·.id != uid) := by
  unfold forget
  rw [if_pos hc]
  exact ⟨rfl, (World.indexed_delete_ends hw c.user uid).2⟩

end Caller
end Tool
end NoteAgent
