import NoteAgent.Note.Indexing
import NoteAgent.Proofs.IndexIsolation
import NoteAgent.Proofs.NoteWrites
/-!
# NoteMirror — the index holds what the note store holds

As long as nothing fails and tools are run one after the other, the collection of each user holds the user's notes, one
document for each note, with the content and the tags that the note has now (`Mirrors`).  A tool that changes a note breaks
this with its statement and mends it with its use of the index, for its own user; for all others nothing has changed.
Writing all notes of a user to the index puts each document where it stands already.
-/
namespace NoteAgent
namespace Note
namespace Table

variable {t t' : Table} {user : Int}

/-! ## The documents of a table -/

theorem map_document_id (ns : List Note) : (ns.map Note.document).map (·.id) = ns.map (·.uid) := by
  rw [List.map_map]
  rfl

theorem documents_insert {n : Note} (h : t.insert n = .ok t') :
    Vector.putDocument n.document ((t.of n.owner).map Note.document) = (t'.of n.owner).map Note.document := by
  rw [of_insert h, List.map_append, Vector.putDocument_of_new]
  · rfl
  · intro d hd
    obtain ⟨m, hm, rfl⟩ := List.mem_map.1 hd
    obtain ⟨e, he, -, rfl⟩ := mem_of.1 hm
    exact (insert_ok h).1 e he

theorem documents_setContent (hk : t.Keyed) {uid content : String} {now : Int}
    (h : t.setContent uid content now = .ok t') (hmem : uid ∈ (t.of user).map (·.uid)) :
    Vector.putDocument ⟨uid, content, Tool.indexFields content⟩ ((t.of user).map Note.document) =
      (t'.of user).map Note.document := by
  rw [of_setContent h, Vector.putDocument_of_mem, List.map_map, List.map_map]
  · refine List.map_congr_left fun n _ => ?_
    by_cases huid : n.uid = uid <;> simp [Note.document, huid]
  · rw [map_document_id]
    exact hk.uid_nodup user
  · rwa [map_document_id]

theorem documents_erase (t : Table) (uid : String) (user : Int) :
    ((t.of user).map Note.document).filter (·.id != uid) = ((t.erase uid).of user).map Note.document := by
  rw [of_erase, List.filter_map]
  rfl

/-- A note that is written to the index as it is changes nothing. -/
theorem documents_put (hk : t.Keyed) {n : Note} (hn : n ∈ t.of user) :
    Vector.putDocument n.document ((t.of user).map Note.document) = (t.of user).map Note.document := by
  have hnodup := hk.uid_nodup user
  rw [Vector.putDocument_of_mem, List.map_map]
  · refine List.map_congr_left fun m hm => ?_
    by_cases huid : m.uid = n.uid
    · have hmn : m = n := List.inj_on_of_nodup_map hnodup hm hn huid
      simp [Note.document, hmn]
    · simp [Note.document, huid]
  · rwa [map_document_id]
  · rw [map_document_id]
    exact List.mem_map_of_mem hn

theorem mem_select {owner : Int} {f : Filter} {ns : List Note} (h : t.select owner f = .ok ns) :
    ∀ n ∈ ns, n ∈ t.of owner := by
  unfold select at h
  cases hc : checkColumns (owner :: f.createdFrom.toList ++ f.createdTo.toList) with
  | error e => rw [hc] at h; cases h
  | ok u =>
    rw [hc] at h
    cases h
    intro n hn
    obtain ⟨e, he, rfl⟩ := List.mem_map.1 hn
    obtain ⟨he, hadmits⟩ := List.mem_filter.1 ((List.mergeSort_perm _ _).mem_iff.1 he)
    simp only [Filter.admits, Bool.and_eq_true, beq_iff_eq] at hadmits
    exact mem_of.2 ⟨e, he, hadmits.1.1.1.1, rfl⟩

end Table
end Note

namespace World

open Attempt (Ends Keeps)

/-! ## The mirror -/

/-- **The collection of a user holds the user's notes**, one document for each, and nothing else. -/
structure Mirrors (user : Int) (w : World) : Prop where
  willing : w.Willing
  keyed : w.notes.Keyed
  documents : w.index.documents user = (w.notes.of user).map Note.document

variable {user : Int} {w w' : World}

theorem Mirrors.alike (h : Mirrors user w) (ha : Alike w w') (hnotes : w'.notes = w.notes)
    (hdocuments : w'.index.documents user = w.index.documents user) : Mirrors user w' where
  willing := h.willing.alike ha
  keyed := hnotes ▸ h.keyed
  documents := by rw [hdocuments, hnotes, h.documents]

theorem Mirrors.notesOnly (h : Mirrors user w) (hw' : NotesOnly w w') (hnotes : w'.notes = w.notes) :
    Mirrors user w' := h.alike hw'.alike hnotes (by rw [hw'.index])

/-- The mirror is kept. -/
def KeepsMirror (user : Int) (w w' : World) : Prop := Mirrors user w → Mirrors user w'

instance : Std.Refl (KeepsMirror user) := ⟨fun _ h => h⟩
instance : Trans (KeepsMirror user) (KeepsMirror user) (KeepsMirror user) := ⟨fun h h' => h' ∘ h⟩

/-! ### Reading -/

theorem keepsMirror_noteMethod {α : Type} (m : Note.Method) {t : Attempt World α} (ht : ∀ w, (t w).2 = w) :
    Keeps (KeepsMirror user) (noteMethod m t) := fun w h => by
  rw [noteMethod_reads m ht]
  exact h.alike ⟨rfl, .refl _⟩ rfl rfl

theorem keepsMirror_notesOf (owner : Int) (f : Note.Filter) : Keeps (KeepsMirror user) (notesOf owner f) :=
  keepsMirror_noteMethod _ fun _ => rfl

theorem keepsMirror_noteCount (owner : Int) (status : String) : Keeps (KeepsMirror user) (noteCount owner status) :=
  keepsMirror_noteMethod _ fun _ => rfl

theorem keepsMirror_search (query : String) (k : Int) (tag : Option String) :
    Keeps (KeepsMirror user) (indexed (Vector.Index.search user query k tag)) := fun w h =>
  have hu := Vector.Index.unwritten_search user query k tag w.index
  h.alike ⟨rfl, hu.toAlike⟩ rfl (hu.documents user)

end World

/-! ## The tools -/

namespace Tool
namespace Caller

open Attempt (Ends Keeps)
open World (KeepsMirror Mirrors)

variable {c : Caller}

theorem keepsMirror_createNote (hc : c.indexed = true) (args : Arguments) :
    Keeps (KeepsMirror c.user) (c.createNote args) := fun w h => by
  suffices hends : Ends (c.createNote args) w fun _ w' => Mirrors c.user w' from hends
  refine Ends.settle (World.addNote_ends h.willing.outspoken c.user _ none Note.normal) ?_
  rintro r w' ⟨hw', ⟨e, rfl, hnotes⟩ | ⟨uid, rfl, hinsert⟩⟩
  · exact h.notesOnly hw' hnotes
  · have hwilling := h.willing.alike hw'.alike
    refine Ends.next rfl ((index_ends hc hwilling uid (text args "content")).bind ?_ ?_)
    · rintro done w'' ⟨-, ha, hnotes, hdocuments⟩
      have hput : w''.index.documents c.user = (w''.notes.of c.user).map Note.document := by
        rw [hdocuments, hnotes, hw'.index, h.documents]
        exact Note.Table.documents_insert hinsert
      exact ⟨hwilling.alike ha, hnotes ▸ h.keyed.insert hinsert, hput⟩
    · rintro e w'' ⟨he, -⟩
      cases he

/-- What is done with the caller's own note, which is among the caller's notes. -/
theorem keepsMirror_withOwnNote (uid : String) {next : Except String Note → Attempt World String}
    (refused : ∀ answer, Keeps (KeepsMirror c.user) (next (.error answer)))
    (found : ∀ note w, Mirrors c.user w → note.uid ∈ (w.notes.of c.user).map (·.uid) →
      Ends (next (.ok note)) w fun _ w' => Mirrors c.user w') :
    Keeps (KeepsMirror c.user) (c.ownNote uid >>= next) := fun w h => by
  refine (c.ownNote_claims uid w).bind (Q := fun _ w' => Mirrors c.user w') (fun own w' h' => ?_) fun e w' h' =>
    h.notesOnly h'.1.notesOnly h'.1.notes
  have hw' : Mirrors c.user w' := h.notesOnly h'.1.notesOnly h'.1.notes
  cases own with
  | error answer => exact refused answer w' hw'
  | ok note =>
    obtain ⟨found', hclaim, hget⟩ := h'.2 _ rfl
    obtain ⟨rfl, howner⟩ := claim_ok hclaim.symm
    obtain ⟨e, he, rfl, -⟩ := Note.Table.get?_some (hget note rfl)
    refine found e.note w' hw' (List.mem_map_of_mem (Note.Table.mem_of.2 ⟨e, ?_, howner, rfl⟩))
    rwa [h'.1.notes]

theorem keepsMirror_changeNote (hc : c.indexed = true) (args : Arguments) (change : String → String)
    (failed success : String) : Keeps (KeepsMirror c.user) (c.changeNote args change failed success) := by
  refine keepsMirror_withOwnNote _ (fun answer => .done _) fun note w h hmem => ?_
  refine Ends.settle (World.replaceContent_ends h.willing.outspoken note.uid (change note.content)) ?_
  rintro r w' ⟨hw', ⟨e, rfl, hnotes⟩ | ⟨rfl, hset⟩⟩
  · exact h.notesOnly hw' hnotes
  · have hwilling := h.willing.alike hw'.alike
    refine (index_ends hc hwilling note.uid (change note.content)).bind ?_ ?_
    · rintro done w'' ⟨-, ha, hnotes, hdocuments⟩
      have hput : w''.index.documents c.user = (w''.notes.of c.user).map Note.document := by
        rw [hdocuments, hnotes, hw'.index, h.documents]
        exact Note.Table.documents_setContent h.keyed hset hmem
      exact ⟨hwilling.alike ha, hnotes ▸ h.keyed.setContent hset, hput⟩
    · rintro e w'' ⟨he, -⟩
      cases he

theorem keepsMirror_deleteNote (hc : c.indexed = true) (args : Arguments) :
    Keeps (KeepsMirror c.user) (c.deleteNote args) := by
  refine keepsMirror_withOwnNote _ (fun answer => .done _) fun note w h hmem => ?_
  refine Ends.settle (World.removeNote_ends h.willing.outspoken note.uid) ?_
  rintro r w' ⟨hw', ⟨e, rfl, hnotes⟩ | ⟨rfl, herase⟩⟩
  · exact h.notesOnly hw' hnotes
  · have hwilling := h.willing.alike hw'.alike
    refine (forget_ends hc hwilling note.uid).bind ?_ ?_
    · rintro done w'' ⟨-, ha, hnotes, hdocuments⟩
      have hdropped : w''.index.documents c.user = (w''.notes.of c.user).map Note.document := by
        rw [hdocuments, hnotes, herase, hw'.index, h.documents]
        exact Note.Table.documents_erase _ _ _
      have hkeyed : w''.notes.Keyed := by
        rw [hnotes, herase]
        exact h.keyed.erase note.uid
      exact ⟨hwilling.alike ha, hkeyed, hdropped⟩
    · rintro e w'' ⟨he, -⟩
      cases he

end Caller

open Attempt (Keeps)
open World (KeepsMirror)

theorem keepsMirror_perform {c : Caller} (hc : c.indexed = true) (t : Tool) (args : Arguments) :
    Keeps (KeepsMirror c.user) (t.perform c args) := by
  cases t <;> simp only [perform, Caller.appendToNote, Caller.updateNote, Caller.updateNoteTags]
  case searchNotes => exact c.keeps_searchNotes args World.keepsMirror_search
  case queryNotes => exact c.keeps_queryNotes args fun _ => World.keepsMirror_notesOf _ _
  case createNote => exact Caller.keepsMirror_createNote hc args
  case appendToNote => exact Caller.keepsMirror_changeNote hc args _ _ _
  case updateNote => exact Caller.keepsMirror_changeNote hc args _ _ _
  case updateNoteTags => exact Caller.keepsMirror_changeNote hc args _ _ _
  case deleteNote => exact Caller.keepsMirror_deleteNote hc args
  case userStats => exact c.keeps_userStats fun _ => World.keepsMirror_noteCount _ _
  case notesByTag => exact c.keeps_notesByTag args fun _ => World.keepsMirror_notesOf _ _

/-- **A tool that is given the index keeps the mirror** of its user. -/
theorem keepsMirror_run {c : Caller} (hc : c.indexed = true) (name raw : String) :
    Keeps (KeepsMirror c.user) (run c name raw) := keeps_run_of (keepsMirror_perform hc) name raw

end Tool

/-! ## Writing all notes -/

namespace Note
namespace Indexing

open Attempt (Ends Keeps)
open World (Mirrors)

variable {user : Int} {w : World}

theorem write_ends (h : Mirrors user w) {n : Note} (hn : n ∈ w.notes.of user) :
    Ends (write user n) w fun _ w' => Mirrors user w' ∧ w'.notes = w.notes := by
  refine (World.indexed_upsert_ends h.willing user n.uid n.content).mono fun r w' h' => ?_
  obtain ⟨-, ha, hnotes, hdocuments⟩ := h'
  refine ⟨h.alike ha hnotes ?_, hnotes⟩
  rw [hdocuments, h.documents]
  exact Table.documents_put h.keyed hn

theorem each_write_ends : ∀ (ns : List Note) (w : World), Mirrors user w → (∀ n ∈ ns, n ∈ w.notes.of user) →
    Ends (.each (write user) ns) w fun _ w' => Mirrors user w'
  | [], _, h, _ => h
  | n :: ns, w, h, hns => by
    refine (write_ends h (hns n List.mem_cons_self)).bind (fun done w' h' => ?_) fun e w' h' => h'.1
    refine each_write_ends ns w' h'.1 fun m hm => ?_
    rw [h'.2]
    exact hns m (List.mem_cons_of_mem _ hm)

theorem notesOf_selects (owner : Int) (f : Filter) (w : World) :
    Ends (World.notesOf owner f) w fun r w' => w' = w.noteUsed ∧
      ∀ ns, r = .ok (some ns) → w.notes.select owner f = .ok ns := by
  unfold Ends World.notesOf
  rw [World.noteMethod_run]
  split
  · exact ⟨rfl, fun ns h => by cases h⟩
  · exact ⟨rfl, fun ns h => by cases h⟩
  · rw [Attempt.map_run, Attempt.bind_run_ok (Attempt.look_run _ _)]
    refine ⟨rfl, fun ns h => ?_⟩
    change (w.notes.select owner f).map some = _ at h
    cases hs : w.notes.select owner f with
    | error e =>
      rw [hs] at h
      cases h
    | ok found =>
      rw [hs] at h
      cases h
      rfl

theorem notesOf_mem (owner : Int) (f : Filter) (w : World) :
    Ends (World.notesOf owner f) w fun r w' => w' = w.noteUsed ∧
      ∀ ns, r = .ok (some ns) → ∀ n ∈ ns, n ∈ w.notes.of owner :=
  (notesOf_selects owner f w).mono fun _ _ h => ⟨h.1, fun ns hr => Table.mem_select (h.2 ns hr)⟩

/-- **Writing all notes of a user keeps the mirror**: each document stands there already. -/
theorem keepsMirror_run (user : Int) : Keeps (World.KeepsMirror user) (run user) := fun w h => by
  suffices hends : Ends (run user) w fun _ w' => Mirrors user w' from hends
  refine (notesOf_mem user { status := some normal } w).bind (fun found w' h' => ?_) fun e w' h' => ?_
  · obtain ⟨rfl, hmem⟩ := h'
    have hw' : Mirrors user w.noteUsed := h.notesOnly ⟨rfl, rfl⟩ rfl
    cases found with
    | none => exact hw'
    | some ns =>
      refine Ends.next rfl ((each_write_ends (ns.filter isIndexed) _ hw' fun n hn => ?_).bind (fun _ _ h'' => h'')
        fun _ _ h'' => h'')
      exact hmem ns rfl n (List.mem_filter.1 hn).1
  · rw [h'.1]
    exact h.notesOnly ⟨rfl, rfl⟩ rfl

theorem keeps_needList {α : Type} (user : Int) (as : Option (List α)) : Keeps (World.Spares user) (World.needList as) := by
  cases as with
  | none => exact .fail _
  | some as => exact .done as

theorem keeps_run (user : Int) : Keeps (World.Spares user) (run user) := by
  refine (World.keeps_notesOf _ _).bind fun found => (keeps_needList user found).bind fun found => ?_
  exact (Keeps.each (fun n => World.keeps_indexed (Vector.Index.keeps_upsert _ _ _ _)) _).bind fun _ => .done _

end Indexing
end Note

namespace World

open Attempt (Ends Keeps)

/-! ## All that is done, one thing after the other -/

variable {user : Int} {w w' : World}

/-- Somebody else's mirror stands as it was. -/
theorem Mirrors.spares {other : Int} (h : Mirrors user w) (hs : Spares other w w') (hne : user ≠ other)
    (hw' : w'.Willing) : Mirrors user w' where
  willing := hw'
  keyed := hs.keyed h.keyed
  documents := by
    have hname : Vector.collectionOf user ≠ Vector.collectionOf other := fun he => hne (Vector.collectionOf_injective he)
    rw [Note.Table.of_eq_of_others (hs.others h.keyed) hne, ← h.documents, Vector.Index.documents,
      Vector.Service.rows, hs.collections _ hname]
    rfl

/-- What is done for one user keeps all mirrors if it keeps that user's. -/
theorem mirrors_of_keeps {α : Type} {t : Attempt World α} {other : Int} (hk : Keeps (KeepsMirror other) t)
    (hs : Keeps (Spares other) t) (h : ∀ user, Mirrors user w) (user : Int) : Mirrors user (t w).2 := by
  have hother := hk w (h other)
  by_cases hne : user = other
  · rw [hne]
    exact hother
  · exact (h user).spares (hs w) hne hother.willing

theorem Work.mirrors (h : ∀ user, Mirrors user w) : ∀ (x : Work) (user : Int), Mirrors user (x.after w)
  | .tool _ name raw => mirrors_of_keeps (Tool.keepsMirror_run rfl name raw) (Tool.keeps_run _ name raw) h
  | .indexing other => mirrors_of_keeps (Note.Indexing.keepsMirror_run other) (Note.Indexing.keeps_run other) h
  | .wait _ _ => fun user => (h user).alike ⟨rfl, .refl _⟩ rfl rfl

theorem mirrors_afterWork (h : ∀ user, Mirrors user w) (xs : List Work) : ∀ user, Mirrors user (afterWork w xs) := by
  induction xs generalizing w with
  | nil => exact h
  | cons x xs ih => exact ih (x.mirrors h)

theorem mirrors_of_empty (hw : w.Willing) (hnotes : w.notes = .empty) (hindex : w.index.service.collections = []) :
    ∀ user, Mirrors user w := fun user => by
  refine ⟨hw, ?_, ?_⟩
  · rw [hnotes]
    exact .nil
  · rw [Vector.Index.documents, Vector.Service.rows, hindex, hnotes]
    rfl

/-- **The index mirrors the note store**: whatever tools are run for whatever users, and whenever all notes of a user are
written to the index, one after the other from an empty store and an empty index and without a failure, the collection of
each user holds the user's notes and nothing else, each once, under its uid, with the content and the tags it has now. -/
theorem afterWork_documents (w : World) (hw : w.Willing) (hnotes : w.notes = .empty)
    (hindex : w.index.service.collections = []) (xs : List Work) (user : Int) :
    (afterWork w xs).index.documents user =
      ((afterWork w xs).notes.of user).map (fun n => ⟨n.uid, n.content, [("tags", Tag.joined n.content)]⟩) ∧
    ((afterWork w xs).index.documents user).Pairwise (·.id ≠ ·.id) ∧
    ∀ n, n ∈ (afterWork w xs).notes.of user ↔ n ∈ (afterWork w xs).notes.toList ∧ n.owner = user := by
  have h := mirrors_afterWork (mirrors_of_empty hw hnotes hindex) xs user
  refine ⟨h.documents, ?_, fun n => ?_⟩
  · rw [h.documents, ← List.pairwise_map (f := Vector.Document.id) (R := (· ≠ ·)), Note.Table.map_document_id]
    exact h.keyed.uid_nodup user
  · rw [Note.Table.mem_of, Note.Table.toList, List.mem_map]
    constructor
    · rintro ⟨e, he, howner, rfl⟩
      exact ⟨⟨e, he, rfl⟩, howner⟩
    · rintro ⟨⟨e, he, rfl⟩, howner⟩
      exact ⟨e, he, howner, rfl⟩

/-- Nothing is there yet, no call is refused, and every text is embedded. -/
def untouched : World :=
  .fresh 5 (.fresh .empty ⟨fun _ _ => .ok [[]], 0⟩ 0) (.fresh (.always "") (.always "") (.always ""))

theorem untouched_willing : untouched.Willing := ⟨fun _ _ => rfl, fun _ _ => rfl, fun _ _ => ⟨[], [], rfl⟩⟩

/-- Two users write a note each; the second asks for the first one's to be deleted, which is refused, and deletes the own
one, and the first appends a tag. -/
def twoWriters : List Work :=
  [.tool ⟨1, true, "", 5⟩ "create_note" "\x7b\"content\": \"one\"\x7d",
    .tool ⟨2, true, "", 5⟩ "create_note" "\x7b\"content\": \"two\"\x7d",
    .tool ⟨2, true, "", 5⟩ "delete_note" "\x7b\"uid\": \"0000000100000000000000\"\x7d",
    .wait 9 7,
    .tool ⟨1, true, "", 5⟩ "append_to_note" "\x7b\"uid\": \"0000000100000000000000\", \"content\": \"#more\"\x7d",
    .indexing 1,
    .tool ⟨2, true, "", 5⟩ "delete_note" "\x7b\"uid\": \"0000000200000000000000\"\x7d"]

theorem afterWork_documents_twoWriters :
    untouched.Willing ∧ untouched.notes = .empty ∧ untouched.index.service.collections = [] ∧
    (afterWork untouched twoWriters).index.documents 1 =
      [⟨"0000000100000000000000", "one\n\n#more", [("tags", "#more")]⟩] ∧
    (afterWork untouched twoWriters).index.documents 2 = [] :=
  have h := afterWork_documents untouched untouched_willing rfl rfl twoWriters
  ⟨untouched_willing, rfl, rfl, (h 1).1.trans (by decide +kernel), (h 2).1.trans (by decide +kernel)⟩

end World
end NoteAgent
