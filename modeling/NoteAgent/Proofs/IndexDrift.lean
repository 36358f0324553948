import NoteAgent.Proofs.AgentRounds
import NoteAgent.Proofs.EditSteps
import NoteAgent.Proofs.NoteMirror
/-!
# IndexDrift — how far the index can drift from the note store

The service may refuse any call and the embedder any text, and a tool passes over what the index fails to do.  So a use of
the index that writes does what it should to the rows of the collection, or does nothing and fails (`Index.Wrote`).  A tool
uses the note store first and the index last, and what it writes there is a note as it is stored then: a collection never
holds an id twice, and each of its documents is what the user's notes came to at some time (`afterWork_stems`).
-/
namespace NoteAgent
namespace Vector

open Attempt (Ends Keeps)

/-! ## Documents under an id -/

/-- No two documents have one id. -/
def Apart (ds : List Document) : Prop := (ds.map (·.id)).Nodup

instance (ds : List Document) : Decidable (Apart ds) := inferInstanceAs (Decidable (List.Nodup _))

/-- A document is put beside those of other ids. -/
theorem mem_putDocument {d x : Document} : ∀ {ds : List Document}, Apart ds →
    (x ∈ putDocument d ds ↔ x = d ∨ x ∈ ds ∧ x.id ≠ d.id)
  | [], _ => by simp [putDocument]
  | y :: ds, h => by
    obtain ⟨hy, hds⟩ := List.nodup_cons.1 h
    rw [putDocument]
    by_cases hid : y.id = d.id
    · -- the id stands here, so nothing after it has the id
      have hrest : x ∈ ds → x.id ≠ d.id := fun hx hxd => hy (List.mem_map.2 ⟨x, hx, hxd.trans hid.symm⟩)
      rw [if_pos (by simpa using hid), List.mem_cons, List.mem_cons]
      constructor
      · rintro (rfl | hx)
        · exact .inl rfl
        · exact .inr ⟨.inr hx, hrest hx⟩
      · rintro (rfl | ⟨rfl | hx, hxd⟩)
        · exact .inl rfl
        · exact absurd hid hxd
        · exact .inr hx
    · rw [if_neg (by simpa using hid), List.mem_cons, List.mem_cons, mem_putDocument hds]
      constructor
      · rintro (rfl | rfl | ⟨hx, hxd⟩)
        · exact .inr ⟨.inl rfl, hid⟩
        · exact .inl rfl
        · exact .inr ⟨.inr hx, hxd⟩
      · rintro (rfl | ⟨rfl | hx, hxd⟩)
        · exact .inr (.inl rfl)
        · exact .inl rfl
        · exact .inr (.inr ⟨hx, hxd⟩)

theorem Apart.put {d : Document} : ∀ {ds : List Document}, Apart ds → Apart (putDocument d ds)
  | [], _ => by simp [Apart, putDocument]
  | y :: ds, h => by
    obtain ⟨hy, hds⟩ := List.nodup_cons.1 h
    rw [putDocument]
    by_cases hid : y.id = d.id
    · rw [if_pos (by simpa using hid), Apart, List.map_cons, ← hid]
      exact h
    · rw [if_neg (by simpa using hid)]
      refine List.nodup_cons.2 ⟨fun hmem => ?_, Apart.put hds⟩
      obtain ⟨x, hx, hxy⟩ := List.mem_map.1 hmem
      rcases (mem_putDocument hds).1 hx with rfl | ⟨hx, -⟩
      · exact hid hxy.symm
      · exact hy (List.mem_map.2 ⟨x, hx, hxy⟩)

/-- A document is the only one with its id. -/
theorem Apart.filter_id {d : Document} : ∀ {ds : List Document}, Apart ds → d ∈ ds → ds.filter (·.id == d.id) = [d]
  | x :: ds, h, hd => by
    obtain ⟨hx, hds⟩ := List.nodup_cons.1 h
    rcases List.mem_cons.1 hd with rfl | hd
    · have hrest : ds.filter (·.id == d.id) = [] := List.filter_eq_nil_iff.2 fun y hy hyd =>
        hx (List.mem_map.2 ⟨y, hy, beq_iff_eq.1 hyd⟩)
      rw [List.filter_cons_of_pos (by simp), hrest]
    · have hne : x.id ≠ d.id := fun he => hx (List.mem_map.2 ⟨d, hd, he.symm⟩)
      rw [List.filter_cons_of_neg (by simpa using hne), Apart.filter_id hds hd]

theorem Apart.drop {ds : List Document} (h : Apart ds) (id : String) : Apart (ds.filter (·.id != id)) :=
  List.Nodup.sublist (List.filter_sublist.map _) h

/-! ## Writing, where a call may be refused -/

namespace Service

/-- The rows of a collection were changed as meant, or the change failed and nothing was done. -/
def Wrote {α : Type} (name : String) (f : List Row → List Row) (s : Service) (r : Except Failure α) (s' : Service) : Prop :=
  s'.rows name = f (s.rows name) ∨ (∃ e, r = .error e) ∧ s'.rows name = s.rows name

/-- A call that sets the rows of a collection, unless it is refused. -/
theorem wrote_sent (call : Call) (name : String) (f : List Row → List Row) (s : Service) :
    Ends (do
      let _ ← send call
      Attempt.change fun s => s.setRows name (f (s.rows name))) s (Wrote name f s) := by
  have hsent : Ends (send call) s fun _ s' => ∀ n, s'.rows n = s.rows n := fun n => by rw [rows, send_collections, rows]
  refine hsent.bind (fun _ s' h => .inl ?_) fun e s' h => .inr ⟨⟨e, rfl⟩, h name⟩
  rw [Attempt.change_run, rows_setRows, if_pos rfl, h]

end Service

namespace Index

/-- What a user has in the index was changed as meant, or the change failed and nothing was done. -/
def Wrote (user : Int) (f : List Document → List Document) (i : Index) (r : Except Failure Unit) (i' : Index) : Prop :=
  i'.documents user = f (i.documents user) ∨ (∃ e, r = .error e) ∧ i'.documents user = i.documents user

variable {user : Int} {f : List Document → List Document} {i : Index}

/-- What is written to a user's collection inside the lock. -/
theorem wrote_holding (write : String → Attempt Service Unit) {g : List Row → List Row}
    (hwrite : ∀ s, Ends (write (collectionOf user)) s (Service.Wrote (collectionOf user) g s)) (i : Index) :
    Ends (holding .write do
      let name ← collection user
      calling (write name)
      calling (Service.flush name)) i fun r i' => Service.Wrote (collectionOf user) g i.service r i'.service := by
  suffices h : ∀ i : Index, Ends (do
      let name ← collection user
      calling (write name)
      calling (Service.flush name)) i fun r i' => Service.Wrote (collectionOf user) g i.service r i'.service from
    h { i with lock := i.lock.enter .write }
  intro i
  have hthere : Ends (collection user) i fun r i' => Unwritten i i' ∧ ∀ name, r = .ok name → name = collectionOf user :=
    ⟨unwritten_collection user i, fun _ h => collection_answers user i _ h⟩
  refine hthere.bind (fun name i' h => ?_) fun e i' h => .inr ⟨⟨e, rfl⟩, h.1.rows _⟩
  obtain ⟨hthere, hname⟩ := h
  obtain rfl := hname name rfl
  have hcalled : Ends (calling (write (collectionOf user))) i' fun r i'' =>
      Service.Wrote (collectionOf user) g i'.service r i''.service := hwrite i'.service
  refine hcalled.bind (fun _ i'' h => ?_) fun e i'' h => ?_
  · rcases h with h | ⟨⟨e, he⟩, -⟩
    · refine .inl ?_
      have hflushed := unwritten_calling (Service.keeps_flush (collectionOf user) (Service.unwritten_send _)) i''
      rw [hflushed.rows, h, hthere.rows]
    · cases he
  · rcases h with h | ⟨-, h⟩
    · refine .inl ?_
      rw [h, hthere.rows]
    · refine .inr ⟨⟨e, rfl⟩, ?_⟩
      rw [h, hthere.rows]

/-- A change of the rows is the change that it makes to the documents they hold. -/
theorem wrote_of_rows {g : List Row → List Row} {r : Except Failure Unit} {i' : Index}
    (h : Service.Wrote (collectionOf user) g i.service r i'.service)
    (hdocuments : ∀ rs, (g rs).map Row.document = f (rs.map Row.document)) : Wrote user f i r i' := by
  rcases h with h | ⟨he, h⟩
  · refine .inl ?_
    rw [documents, h, hdocuments, documents]
  · refine .inr ⟨he, ?_⟩
    rw [documents, h, documents]

/-- **Writing a document puts a row in its place, or fails.**  The vector of the row is one that the embedder gives. -/
theorem wrote_row (user : Int) (id content : String) (i : Index) :
    Ends (upsert user id content (Tool.indexFields content)) i fun r i' =>
      (∃ v vs, i.embedder.embed i.embedder.asked content = .ok (v :: vs) ∧ Service.Wrote (collectionOf user)
        (putRow ⟨id, content, Tool.indexFields content, .embedding v⟩) i.service r i'.service) ∨
      (∃ e, r = .error e) ∧ i'.service.rows (collectionOf user) = i.service.rows (collectionOf user) := by
  have hembed : Ends (embed content) i fun r i' => Unwritten i i' ∧ r = i.embedder.embed i.embedder.asked content :=
    ⟨unwritten_embed content i, rfl⟩
  refine hembed.bind (fun vs i' h => ?_) fun e i' h => .inr ⟨⟨e, rfl⟩, h.1.rows _⟩
  cases vs with
  | nil => exact .inr ⟨⟨_, rfl⟩, h.1.rows _⟩
  | cons v vs =>
    let row : Row := (Tool.indexFields content).foldl (fun r f => r.set f.1 f.2) ⟨id, content, [], .embedding v⟩
    refine (wrote_holding (fun name => Service.upsert name [row])
      (fun s => Service.wrote_sent (.upsert _ [row]) _ (putRow row) s) i').mono fun r i'' hwrote => ?_
    rw [Service.Wrote, h.1.rows] at hwrote
    exact .inl ⟨v, vs, h.2.symm, hwrote⟩

/-- **Writing a document puts it in its place, or fails.** -/
theorem wrote_upsert (user : Int) (id content : String) (i : Index) :
    Ends (upsert user id content (Tool.indexFields content)) i
      (Wrote user (putDocument ⟨id, content, Tool.indexFields content⟩) i) := by
  refine (wrote_row user id content i).mono fun r i' h => ?_
  rcases h with ⟨v, -, -, h⟩ | ⟨he, h⟩
  · exact wrote_of_rows h (map_putRow _)
  · exact .inr ⟨he, congrArg (List.map Row.document) h⟩

/-- **Deleting a document takes it away, or fails.** -/
theorem wrote_delete (user : Int) (id : String) (i : Index) :
    Ends (delete user id) i (Wrote user (List.filter (·.id != id)) i) :=
  (wrote_holding (fun name => Service.delete name [id])
    (fun s => Service.wrote_sent (.delete _ [id]) _ (dropRows [id]) s) i).mono fun _ _ h =>
      wrote_of_rows h (map_dropRows id)

end Index
end Vector

namespace World

open Attempt (Ends Keeps)

/-! ## What the index is told -/

/-- The notes are as they were, and what is new in the user's collection is one of the user's notes. -/
structure Told (user : Int) (w w' : World) : Prop where
  strikes : w'.noteFaults.strikes = w.noteFaults.strikes
  notes : w'.notes = w.notes
  documents : Vector.Apart (w.index.documents user) → Vector.Apart (w'.index.documents user) ∧
    ∀ d ∈ w'.index.documents user, d ∈ w.index.documents user ∨ ∃ n ∈ w.notes.of user, n.document = d

variable {user : Int} {w w' w'' : World}

theorem Told.of_documents (hstrikes : w'.noteFaults.strikes = w.noteFaults.strikes) (hnotes : w'.notes = w.notes)
    (hdocuments : w'.index.documents user = w.index.documents user) : Told user w w' where
  strikes := hstrikes
  notes := hnotes
  documents h := by
    rw [hdocuments]
    exact ⟨h, fun _ => .inl⟩

theorem Told.trans (h : Told user w w') (h' : Told user w' w'') : Told user w w'' where
  strikes := h'.strikes.trans h.strikes
  notes := h'.notes.trans h.notes
  documents hapart := by
    obtain ⟨hapart', hold⟩ := h.documents hapart
    obtain ⟨hapart'', hold'⟩ := h'.documents hapart'
    refine ⟨hapart'', fun d hd => (hold' d hd).elim (hold d) fun hd => .inr ?_⟩
    rwa [h.notes] at hd

instance : Std.Refl (Told user) := ⟨fun _ => .of_documents rfl rfl rfl⟩
instance : Trans (Told user) (Told user) (Told user) := ⟨Told.trans⟩

/-- Writing one of the user's notes to the index. -/
theorem told_upsert {n : Note} (hn : n ∈ w.notes.of user) :
    Ends (indexed (Vector.Index.upsert user n.uid n.content (Tool.indexFields n.content))) w fun _ w' => Told user w w' := by
  refine ⟨rfl, rfl, fun hapart => ?_⟩
  change Vector.Apart (Vector.Index.documents (Vector.Index.upsert user n.uid n.content _ w.index).2 user) ∧
    ∀ d ∈ Vector.Index.documents (Vector.Index.upsert user n.uid n.content _ w.index).2 user, _
  rcases Vector.Index.wrote_upsert user n.uid n.content w.index with h | ⟨-, h⟩
  · rw [h]
    refine ⟨hapart.put, fun d hd => ?_⟩
    rcases (Vector.mem_putDocument hapart).1 hd with rfl | ⟨hd, -⟩
    · exact .inr ⟨n, hn, rfl⟩
    · exact .inl hd
  · rw [h]
    exact ⟨hapart, fun _ => .inl⟩

theorem told_delete (user : Int) (uid : String) : Keeps (Told user) (indexed (Vector.Index.delete user uid)) := fun w => by
  refine ⟨rfl, rfl, fun hapart => ?_⟩
  change Vector.Apart (Vector.Index.documents (Vector.Index.delete user uid w.index).2 user) ∧
    ∀ d ∈ Vector.Index.documents (Vector.Index.delete user uid w.index).2 user, _
  rcases Vector.Index.wrote_delete user uid w.index with h | ⟨-, h⟩
  · rw [h]
    exact ⟨hapart.drop uid, fun d hd => .inl (List.mem_filter.1 hd).1⟩
  · rw [h]
    exact ⟨hapart, fun _ => .inl⟩

theorem told_search (query : String) (k : Int) (tag : Option String) :
    Keeps (Told user) (indexed (Vector.Index.search user query k tag)) := fun w =>
  .of_documents rfl rfl ((Vector.Index.unwritten_search user query k tag w.index).documents user)

/-- A method that reads leaves all as it is. -/
theorem told_noteMethod {α : Type} (m : Note.Method) {t : Attempt World α} (ht : ∀ w, (t w).2 = w) :
    Keeps (Told user) (noteMethod m t) := fun w => by
  rw [noteMethod_reads m ht]
  exact .of_documents rfl rfl rfl

/-- The notes may have changed, and what is new in the user's collection is one of the notes as they are now. -/
structure Stems (user : Int) (w w' : World) : Prop where
  strikes : w'.noteFaults.strikes = w.noteFaults.strikes
  documents : Vector.Apart (w.index.documents user) → Vector.Apart (w'.index.documents user) ∧
    ∀ d ∈ w'.index.documents user, d ∈ w.index.documents user ∨ ∃ n ∈ w'.notes.of user, n.document = d

/-- **What is told after the notes have changed** stems from the notes as they are then. -/
theorem NotesOnly.stems (h : NotesOnly w w') (h' : Told user w' w'') : Stems user w w'' where
  strikes := h'.strikes.trans h.strikes
  documents hapart := by
    obtain ⟨hapart', hold⟩ := h'.documents (h.index ▸ hapart)
    rw [h.index] at hold
    rw [h'.notes]
    exact ⟨hapart', hold⟩

theorem Told.stems (h : Told user w w') : Stems user w w' := NotesOnly.stems ⟨rfl, rfl⟩ h

end World

/-! ## The tools -/

namespace Tool

open Attempt (Ends Keeps)
open World (NotesOnly Stems Told)

variable {c : Caller} {w : World}

/-- Telling the index a note as it is stored, or that it is deleted. -/
theorem Caller.told_tell (uid : String) (content : Option String)
    (h : ∀ text, content = some text → ∃ n ∈ w.notes.of c.user, n.uid = uid ∧ n.content = text) :
    Ends (c.tell uid content) w fun _ w' => Told c.user w w' := by
  cases content with
  | some text =>
    obtain ⟨n, hn, rfl, rfl⟩ := h text rfl
    rw [tell, index]
    split
    · exact World.told_upsert hn
    · exact Std.Refl.refl w
  | none =>
    rw [tell, forget]
    split
    · exact World.told_delete c.user uid w
    · exact Std.Refl.refl w

theorem Caller.stems_createNote (c : Caller) (args : Arguments) (hw : w.Outspoken) :
    Ends (c.createNote args) w fun _ w' => Stems c.user w w' := by
  refine Ends.settle (World.addNote_ends hw c.user (text args "content") none Note.normal) ?_
  rintro r w' ⟨hw', ⟨e, rfl, hnotes⟩ | ⟨uid, rfl, hinsert⟩⟩
  · exact hw'.stems (Std.Refl.refl w')
  · have hof := Note.Table.of_insert hinsert
    refine Ends.next rfl ((c.told_tell uid (some (text args "content")) ?_).bind ?_ ?_)
    · intro content hcontent
      cases hcontent
      exact ⟨_, hof ▸ List.mem_append_right _ (List.mem_singleton_self _), rfl, rfl⟩
    · exact fun _ w'' h => hw'.stems h
    · exact fun _ w'' h => hw'.stems h

/-- Once an edit of a note has been stored, its result is the content of a note under the uid. -/
theorem stored_ends (hw : w.Outspoken) {user : Int} (e : Edit) {note : Note} (hnote : note ∈ w.notes.of user) :
    Ends (e.store note) w fun r w' => NotesOnly w w' ∧ ∀ done, r = .ok done → ∀ text, e.result? note.content = some text →
      ∃ n ∈ w'.notes.of user, n.uid = note.uid ∧ n.content = text := by
  unfold Edit.store
  cases e.result? note.content with
  | some content =>
    refine (World.replaceContent_ends hw note.uid content).mono ?_
    rintro r w' ⟨hw', ⟨f, rfl, -⟩ | ⟨rfl, hset⟩⟩
    · exact ⟨hw', fun _ h => by cases h⟩
    · refine ⟨hw', fun _ _ text htext => ?_⟩
      cases htext
      rw [Note.Table.of_setContent hset]
      exact ⟨_, List.mem_map_of_mem hnote, by rw [if_pos rfl], by rw [if_pos rfl]⟩
  | none => exact (World.removeNote_ends hw note.uid).mono fun r w' h => ⟨h.1, fun _ _ _ htext => by cases htext⟩

theorem EditCall.stems_whole (q : EditCall) (hw : w.Outspoken) :
    Ends q.whole w fun _ w' => Stems q.caller.user w w' := by
  refine (q.caller.ownNote_claims q.uid w).bind ?_ fun f w' h => h.1.notesOnly.stems (Std.Refl.refl w')
  rintro own w' ⟨hlooked, hclaim⟩
  obtain ⟨found, rfl, hfound⟩ := hclaim own rfl
  cases hown : q.caller.claim found with
  | error answer => exact hlooked.notesOnly.stems (Std.Refl.refl w')
  | ok note =>
    obtain ⟨rfl, howner⟩ := Caller.claim_ok hown
    have hnote : note ∈ w'.notes.of q.caller.user := by
      obtain ⟨e, he, rfl, -⟩ := Note.Table.get?_some (hfound note rfl)
      exact hlooked.notes ▸ Note.Table.mem_of.2 ⟨e, he, howner, rfl⟩
    have hw' : w'.Outspoken := fun n m => hlooked.notesOnly.strikes ▸ hw n m
    refine Ends.settle (stored_ends hw' q.edit hnote) ?_
    rintro r w'' ⟨hw'', hstored⟩
    have hnotes : NotesOnly w w'' :=
      ⟨hw''.strikes.trans hlooked.notesOnly.strikes, hw''.index.trans hlooked.notesOnly.index⟩
    cases r with
    | error f => exact hnotes.stems (Std.Refl.refl w'')
    | ok done =>
      exact (q.caller.told_tell note.uid (q.edit.result? note.content) (hstored done rfl)).bind (fun _ _ h => hnotes.stems h) fun _ _ h => hnotes.stems h

theorem stems_perform (c : Caller) (args : Arguments) (hw : w.Outspoken) (t : Tool) :
    Ends (t.perform c args) w fun _ w' => Stems c.user w w' := by
  have hedit {e : Edit} (he : Edit.of? args t = some e) : Ends (t.perform c args) w fun _ w' => Stems c.user w w' := by
    rw [EditCall.perform_eq_whole he]
    exact EditCall.stems_whole ⟨c, text args "uid", e⟩ hw
  cases t with
  | createNote => exact c.stems_createNote args hw
  | appendToNote => exact hedit rfl
  | updateNote => exact hedit rfl
  | updateNoteTags => exact hedit rfl
  | deleteNote => exact hedit rfl
  | searchNotes => exact (c.keeps_searchNotes args World.told_search w).stems
  | queryNotes => exact (c.keeps_queryNotes args (fun _ => World.told_noteMethod _ fun _ => rfl) w).stems
  | userStats => exact (c.keeps_userStats (fun _ => World.told_noteMethod _ fun _ => rfl) w).stems
  | notesByTag => exact (c.keeps_notesByTag args (fun _ => World.told_noteMethod _ fun _ => rfl) w).stems

/-- **What a tool adds to the user's collection is a note as it is stored when the tool is done.** -/
theorem stems_run (c : Caller) (name raw : String) (hw : w.Outspoken) : Stems c.user w (run c name raw w).2 := by
  obtain ⟨text, h⟩ := Registry.answerTo_ends name ((named? name).map fun t => t.execute c raw) w
  rw [run, h]
  cases named? name with
  | none => exact (Std.Refl.refl (r := Told c.user) w).stems
  | some t =>
    change Stems c.user w (t.execute c raw w).2
    unfold execute
    split
    · exact (Std.Refl.refl (r := Told c.user) w).stems
    · cases t.form? with
      | none => exact stems_perform c [] hw t
      | some form =>
        dsimp only
        cases form.read raw with
        | none => exact (Std.Refl.refl (r := Told c.user) w).stems
        | some args => exact stems_perform c args hw t

end Tool

/-! ## All that is done -/

namespace Note
namespace Indexing

open Attempt (Ends)
open World (Told)

/-- Some of the user's notes are written to the index, until one is not. -/
theorem told_each (user : Int) : ∀ (ns : List Note) (w : World), (∀ n ∈ ns, n ∈ w.notes.of user) →
    Ends (.each (write user) ns) w fun _ w' => Told user w w'
  | [], w, _ => Std.Refl.refl w
  | n :: ns, w, hns => by
    refine (World.told_upsert (hns n List.mem_cons_self)).bind (fun _ w' h => ?_) fun _ _ h => h
    refine (told_each user ns w' fun m hm => ?_).mono fun _ _ h' => h.trans h'
    rw [h.notes]
    exact hns m (List.mem_cons_of_mem _ hm)

/-- **What the writing of all notes adds to the user's collection are the user's notes.** -/
theorem told_run (user : Int) (w : World) : Told user w (run user w).2 := by
  suffices h : Ends (run user) w fun _ w' => Told user w w' from h
  refine (notesOf_mem user { status := some normal } w).bind (fun found w' h => ?_) fun e w' h => ?_
  · obtain ⟨rfl, hmem⟩ := h
    have hused : Told user w w.noteUsed := .of_documents rfl rfl rfl
    cases found with
    | none => exact hused
    | some ns =>
      have hns : ∀ n ∈ ns.filter isIndexed, n ∈ w.noteUsed.notes.of user := fun n hn =>
        hmem ns rfl n (List.mem_filter.1 hn).1
      exact Ends.next rfl ((told_each user _ _ hns).bind (fun _ _ h => hused.trans h) fun _ _ h => hused.trans h)
  · rw [h.1]
    exact .of_documents rfl rfl rfl

end Indexing
end Note

namespace World

variable {w : World}

/-- What is done for one user leaves the collections of all others. -/
theorem Stems.spares {user other : Int} {w' : World} (h : Stems other w w') (hs : Spares other w w') :
    Stems user w w' := by
  by_cases hne : user = other
  · rw [hne]
    exact h
  · have hname : Vector.collectionOf user ≠ Vector.collectionOf other := fun he => hne (Vector.collectionOf_injective he)
    have hdocuments : w'.index.documents user = w.index.documents user := by
      rw [Vector.Index.documents, Vector.Service.rows, hs.collections _ hname]
      rfl
    refine ⟨h.strikes, fun hapart => ?_⟩
    rw [hdocuments]
    exact ⟨hapart, fun _ => .inl⟩

/-- **What is done adds to a collection only notes of its user as they are then**, whatever fails. -/
theorem Work.stems (hw : w.Outspoken) (user : Int) : ∀ x : Work, Stems user w (x.after w)
  | .tool _ name raw => (Tool.stems_run _ name raw hw).spares (Tool.keeps_run _ name raw w)
  | .indexing other => (Note.Indexing.told_run other w).stems.spares (Note.Indexing.keeps_run other w)
  | .wait _ _ => ⟨rfl, fun h => ⟨h, fun _ => .inl⟩⟩

theorem Work.keyed (hk : w.notes.Keyed) : ∀ x : Work, (x.after w).notes.Keyed
  | .tool _ name raw => (Tool.keeps_run _ name raw w).keyed hk
  | .indexing user => (Note.Indexing.keeps_run user w).keyed hk
  | .wait _ _ => hk

theorem afterWork_keyed (hk : w.notes.Keyed) (xs : List Work) : (afterWork w xs).notes.Keyed := by
  induction xs generalizing w with
  | nil => exact hk
  | cons x xs ih => exact ih (x.keyed hk)

/-- **A collection never holds an id twice, and each of its documents was there at the start or is what a note of the user
came to at some time.** -/
theorem afterWork_stems (hw : w.Outspoken) {user : Int} (hapart : Vector.Apart (w.index.documents user)) (xs : List Work) :
    Vector.Apart ((afterWork w xs).index.documents user) ∧
    ∀ d ∈ (afterWork w xs).index.documents user, d ∈ w.index.documents user ∨
      ∃ ys, ys <+: xs ∧ ∃ n ∈ (afterWork w ys).notes.of user, n.document = d := by
  induction xs generalizing w with
  | nil => exact ⟨hapart, fun _ => .inl⟩
  | cons x xs ih =>
    have hstep := x.stems hw user
    obtain ⟨hapart', hold⟩ := hstep.documents hapart
    obtain ⟨hapart'', hold'⟩ := ih (fun n m => hstep.strikes ▸ hw n m) hapart'
    refine ⟨hapart'', fun d hd => ?_⟩
    rcases hold' d hd with hd | ⟨ys, hys, hn⟩
    · refine (hold d hd).imp_right fun hn => ⟨[x], ?_, hn⟩
      exact List.cons_prefix_cons.2 ⟨rfl, List.nil_prefix⟩
    · exact .inr ⟨x :: ys, List.cons_prefix_cons.2 ⟨rfl, hys⟩, hn⟩

end World
end NoteAgent
