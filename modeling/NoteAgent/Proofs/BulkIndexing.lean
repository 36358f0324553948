import NoteAgent.Proofs.IndexRepair
import NoteAgent.Proofs.NoteListing
/-!
# BulkIndexing — writing all notes to the index, note by note

Whatever a user's collection holds, writing all notes of the user gives each note that is in use and not blank one row, and
changes no row of another id; done again it finds its rows there and puts each where it stands.  The first write that fails
ends it: the notes before that one have their rows, and those after it have what they had (`run_exact`).  All of this needs
the notes to be listed, which is refused where the number of the user does not fit the columns of the store
(`wide_user_is_failed`).
-/
namespace NoteAgent
namespace Attempt

variable {σ ι : Type} {t : ι → Attempt σ Unit}

/-- Going through all items breaks off just where an item does, once all items before it are done. -/
theorem each_error_iff {is : List ι} {s s' : σ} {e : Failure} : each t is s = (.error e, s') ↔
    ∃ before i after, is = before ++ i :: after ∧ ∃ s₁, each t before s = (.ok (), s₁) ∧ t i s₁ = (.error e, s') := by
  induction is generalizing s with
  | nil =>
    constructor
    · intro h
      cases h
    · rintro ⟨before, i, after, his, -⟩
      simp at his
  | cons j is ih =>
    change (t j >>= fun _ => each t is) s = _ ↔ _
    rcases hj : t j s with ⟨f | done, s₂⟩
    · rw [bind_run_error hj]
      constructor
      · rintro ⟨⟩
        exact ⟨[], j, is, rfl, s, rfl, hj⟩
      · rintro ⟨_ | ⟨k, before⟩, i, after, his, s₁, hbefore, hi⟩ <;> cases his
        · cases hbefore
          exact hj.symm.trans hi
        · have hfirst : each t (j :: before) s = (.error f, s₂) := bind_run_error hj
          cases hfirst.symm.trans hbefore
    · rw [bind_run_ok hj, ih]
      constructor
      · rintro ⟨before, i, after, rfl, s₁, hbefore, hi⟩
        exact ⟨j :: before, i, after, rfl, s₁, (bind_run_ok hj).trans hbefore, hi⟩
      · rintro ⟨_ | ⟨k, before⟩, i, after, his, s₁, hbefore, hi⟩ <;> cases his
        · cases hbefore
          cases hj.symm.trans hi
        · exact ⟨before, i, after, rfl, s₁, (bind_run_ok hj).symm.trans hbefore, hi⟩

theorem map_error_iff {α β : Type} {t : Attempt σ α} {f : α → β} {s s' : σ} {e : Failure} :
    (f <$> t) s = (.error e, s') ↔ t s = (.error e, s') := by
  rw [map_run]
  rcases t s with ⟨_ | _, s₁⟩ <;> simp [Except.map]

end Attempt

namespace Vector

/-! ## Rows under an id -/

/-- The rows of all other ids are as they were, in their order. -/
def ChangedOnly (ids : List String) (rs rs' : List Row) : Prop := dropRows ids rs' = dropRows ids rs

namespace ChangedOnly

variable {ids ids' : List String} {rs rs' rs'' : List Row}

theorem refl (rs : List Row) : ChangedOnly ids rs rs := rfl

theorem trans (h : ChangedOnly ids rs rs') (h' : ChangedOnly ids rs' rs'') : ChangedOnly ids rs rs'' := Eq.trans h' h

theorem mono (h : ChangedOnly ids rs rs') (hsub : ∀ id ∈ ids, id ∈ ids') : ChangedOnly ids' rs rs' := by
  have hdrop : ∀ rs, dropRows ids' (dropRows ids rs) = dropRows ids' rs := fun rs => by
    rw [dropRows, dropRows, List.filter_filter, dropRows]
    refine List.filter_congr fun r _ => ?_
    by_cases hr : r.id ∈ ids'
    · simp [hr]
    · have hnot : r.id ∉ ids := fun hmem => hr (hsub r.id hmem)
      simp [hr, hnot]
  rw [ChangedOnly, ← hdrop rs', h, hdrop]

theorem filter_id (h : ChangedOnly ids rs rs') {id : String} (hid : id ∉ ids) :
    rs'.filter (·.id == id) = rs.filter (·.id == id) := by
  have hdrop : ∀ rs, (dropRows ids rs).filter (·.id == id) = rs.filter (·.id == id) := fun rs => by
    rw [dropRows, List.filter_filter]
    refine List.filter_congr fun r _ => ?_
    by_cases hr : r.id = id
    · simp [hr, hid]
    · simp [hr]
  rw [← hdrop rs', h, hdrop]

theorem putRow (r : Row) : ∀ rs : List Row, ChangedOnly [r.id] rs (Vector.putRow r rs)
  | [] => by simp [ChangedOnly, Vector.putRow, dropRows]
  | x :: rs => by
    have ih := putRow r rs
    rw [ChangedOnly, dropRows, dropRows] at ih ⊢
    rw [Vector.putRow]
    by_cases hx : x.id = r.id
    · simp [hx]
    · rw [if_neg (by simpa using hx), List.filter_cons, List.filter_cons, ih]

end ChangedOnly

/-- A row that is put among rows of different ids is the only one with its id. -/
theorem filter_putRow {r : Row} : ∀ {rs : List Row}, (rs.map (·.id)).Nodup → (putRow r rs).filter (·.id == r.id) = [r]
  | [], _ => by simp [putRow]
  | x :: rs, h => by
    obtain ⟨hx, hrs⟩ := List.nodup_cons.1 h
    rw [putRow]
    by_cases hid : x.id = r.id
    · have hrest : rs.filter (·.id == r.id) = [] := List.filter_eq_nil_iff.2 fun y hy hyr =>
        hx (List.mem_map.2 ⟨y, hy, (beq_iff_eq.1 hyr).trans hid.symm⟩)
      rw [if_pos (by simpa using hid), List.filter_cons_of_pos (by simp), hrest]
    · rw [if_neg (by simpa using hid), List.filter_cons_of_neg (by simpa using hid), filter_putRow hrs]

/-- A row that is the only one with its id is put where it stands. -/
theorem putRow_of_filter {r : Row} : ∀ {rs : List Row}, rs.filter (·.id == r.id) = [r] → putRow r rs = rs
  | [], h => by cases h
  | x :: rs, h => by
    rw [putRow]
    by_cases hid : x.id = r.id
    · rw [List.filter_cons_of_pos (by simpa using hid)] at h
      rw [if_pos (by simpa using hid), (List.cons.inj h).1]
    · rw [List.filter_cons_of_neg (by simpa using hid)] at h
      rw [if_neg (by simpa using hid), putRow_of_filter h]

theorem map_document_id (rs : List Row) : (rs.map Row.document).map (·.id) = rs.map (·.id) := by
  rw [List.map_map]
  rfl

theorem nodup_putRow {r : Row} {rs : List Row} (h : (rs.map (·.id)).Nodup) : ((putRow r rs).map (·.id)).Nodup := by
  rw [← map_document_id] at h ⊢
  rw [map_putRow]
  exact Apart.put h

end Vector

namespace World

/-- The rows of the user's collection. -/
def rowsOf (user : Int) (w : World) : List Vector.Row := w.index.service.rows (Vector.collectionOf user)

/-- The notes, what strikes their store and what embeds texts are as they were. -/
structure NotesStay (w w' : World) : Prop where
  notes : w'.notes = w.notes
  strikes : w'.noteFaults.strikes = w.noteFaults.strikes
  embed : w'.index.embedder.embed = w.index.embedder.embed

theorem NotesStay.trans {w w' w'' : World} (h : NotesStay w w') (h' : NotesStay w' w'') : NotesStay w w'' where
  notes := h'.notes.trans h.notes
  strikes := h'.strikes.trans h.strikes
  embed := h'.embed.trans h.embed

instance : Std.Refl NotesStay := ⟨fun _ => ⟨rfl, rfl, rfl⟩⟩
instance : Trans NotesStay NotesStay NotesStay := ⟨NotesStay.trans⟩

end World

namespace Note

/-- The row of a note, with a vector. -/
def row (v : Vector.Embedding) (n : Note) : Vector.Row := ⟨n.uid, n.content, Tool.indexFields n.content, .embedding v⟩

/-- The content has a character that is not blank. -/
def Speaks (n : Note) : Prop := ∃ c ∈ n.content.toList, Text.isBlank c = false

instance (n : Note) : Decidable n.Speaks :=
  decidable_of_iff (n.content.toList.any (!Text.isBlank ·) = true) (by simp [Speaks])

/-- **The note has one row**: its content and its tags are those of the note, and its vector is one that the embedder gives
for the content. -/
def HasRow (e : Vector.Embedder) (rs : List Vector.Row) (n : Note) : Prop :=
  ∃ k v vs, e.embed k n.content = .ok (v :: vs) ∧ rs.filter (·.id == n.uid) = [n.row v]

theorem HasRow.congr {e e' : Vector.Embedder} {rs rs' : List Vector.Row} {n : Note} (h : n.HasRow e rs)
    (hembed : e'.embed = e.embed) (hrs : rs'.filter (·.id == n.uid) = rs.filter (·.id == n.uid)) : n.HasRow e' rs' := by
  rwa [HasRow, hembed, hrs]

theorem Filter.fits_status {owner : Int} {status : String} :
    ({ status := some status } : Filter).Fits owner ↔ fitsColumn owner = true := by
  simp [fits_iff]

theorem Filter.asks_status {owner : Int} {status : String} {n : Note} :
    ({ status := some status } : Filter).Asks owner n ↔ n.owner = owner ∧ n.status = status := by
  refine ⟨fun h => ⟨h.owner, h.status _ rfl⟩, fun h => ⟨h.1, ?_, ?_, ?_, ?_⟩⟩
  · rintro _ ⟨⟩
  · rintro _ ⟨⟩
  · rintro _ ⟨⟩
  · rintro _ ⟨⟩
    exact h.2

theorem Table.Listing.filter {t : Table} {asked : Note → Prop} {ns : List Note} (h : t.Listing asked ns)
    (p : Note → Bool) : t.Listing (fun n => asked n ∧ p n = true) (ns.filter p) where
  mem n := by rw [List.mem_filter, h.mem, and_assoc]
  once := h.once.sublist (List.filter_sublist.map _)
  ordered := h.ordered.sublist List.filter_sublist

theorem Table.Listing.perm {t : Table} {asked : Note → Prop} [DecidablePred asked] {ns : List Note}
    (h : t.Listing asked ns) (hk : t.Keyed) : ns.Perm (t.toList.filter (asked ·)) := by
  have hnodup : t.toList.Nodup := List.Nodup.of_map (·.uid) (by rwa [toList, List.map_map])
  refine (List.perm_ext_iff_of_nodup (h.once.of_map _) (hnodup.sublist List.filter_sublist)).2 fun n => ?_
  rw [h.mem, List.mem_filter, decide_eq_true_iff]

namespace Indexing

open Attempt (Ends Keeps)
open World (NotesStay)

variable {user : Int} {w : World}

theorem isIndexed_iff {n : Note} : isIndexed n = true ↔ n.Speaks := by
  -- what is left of a text once its front has been trimmed is blank just if the text is
  have hdrop (cs : List Char) :
      (∀ c ∈ cs.dropWhile Text.isBlank, Text.isBlank c = true) ↔ ∀ c ∈ cs, Text.isBlank c = true := by
    refine ⟨fun h c hc => ?_, fun h c hc => h c ((List.dropWhile_sublist _).subset hc)⟩
    rw [← List.takeWhile_append_dropWhile (p := Text.isBlank) (l := cs)] at hc
    exact (List.mem_append.1 hc).elim (List.mem_takeWhile_imp ·) (h c)
  have hblank : isIndexed n = false ↔ ∀ c ∈ n.content.toList, Text.isBlank c = true := by
    rw [← hdrop]
    simp [isIndexed, Text.strip, Text.trimBy]
  rw [← Bool.not_eq_false, hblank]
  simp [Speaks]

/-! ## One note -/

theorem notesStay_write (user : Int) (n : Note) : Keeps NotesStay (write user n) := fun w =>
  ⟨rfl, rfl, (Vector.Index.through_upsert (Vector.Service.callsKeep_spares (Vector.collectionOf user)) n.uid n.content
    (Tool.indexFields n.content) w.index).embed⟩

/-- A note is put in its place with a vector that the embedder gives for it, or writing it fails with nothing done. -/
theorem write_puts (user : Int) (n : Note) (w : World) : Ends (write user n) w fun r w' =>
    (∃ v vs, w.index.embedder.embed w.index.embedder.asked n.content = .ok (v :: vs) ∧
      w'.rowsOf user = Vector.putRow (n.row v) (w.rowsOf user)) ∨
    (∃ e, r = .error e) ∧ w'.rowsOf user = w.rowsOf user := by
  rcases Vector.Index.wrote_row user n.uid n.content w.index with ⟨v, vs, hembed, hrows | h⟩ | h
  · exact .inl ⟨v, vs, hembed, hrows⟩
  · exact .inr h
  · exact .inr h

/-- **A note that is written has one row**, and whether or not it is, no row of another id changes. -/
theorem write_rows (user : Int) (n : Note) (w : World) (hapart : ((w.rowsOf user).map (·.id)).Nodup) :
    Ends (write user n) w fun r w' => ((w'.rowsOf user).map (·.id)).Nodup ∧
      Vector.ChangedOnly [n.uid] (w.rowsOf user) (w'.rowsOf user) ∧
      (r = .ok () → n.HasRow w.index.embedder (w'.rowsOf user)) := by
  refine (write_puts user n w).mono fun r w' h => ?_
  rcases h with ⟨v, vs, hembed, hrows⟩ | ⟨⟨e, rfl⟩, hrows⟩
  · rw [hrows]
    refine ⟨Vector.nodup_putRow hapart, .putRow (n.row v) _, fun _ => ⟨_, v, vs, hembed, ?_⟩⟩
    exact Vector.filter_putRow (r := n.row v) hapart
  · rw [hrows]
    exact ⟨hapart, .refl _, fun he => by cases he⟩

/-- A note that has its row keeps it when it is written again, and the collection is as it was. -/
theorem write_again (hsteady : w.index.embedder.Steady) {n : Note} (h : n.HasRow w.index.embedder (w.rowsOf user)) :
    Ends (write user n) w fun _ w' => w'.rowsOf user = w.rowsOf user := by
  refine (write_puts user n w).mono fun r w' hput => ?_
  obtain ⟨k, v, vs, hembed, hrow⟩ := h
  rcases hput with ⟨v', vs', hembed', hrows⟩ | ⟨-, hrows⟩
  · rw [hsteady _ k, hembed] at hembed'
    cases hembed'
    rw [hrows]
    exact Vector.putRow_of_filter (r := n.row v) hrow
  · exact hrows

/-! ## All notes -/

theorem notesStay_each (user : Int) (ns : List Note) : Keeps NotesStay (.each (write user) ns) :=
  .each (notesStay_write user) ns

/-- **Notes of different uids that are written have a row each**, and no row of another id changes. -/
theorem each_rows : ∀ (ns : List Note) (w : World), ((w.rowsOf user).map (·.id)).Nodup →
    Ends (.each (write user) ns) w fun r w' => ((w'.rowsOf user).map (·.id)).Nodup ∧
      Vector.ChangedOnly (ns.map (·.uid)) (w.rowsOf user) (w'.rowsOf user) ∧
      (r = .ok () → (ns.map (·.uid)).Nodup → ∀ n ∈ ns, n.HasRow w.index.embedder (w'.rowsOf user))
  | [], w, hapart => ⟨hapart, .refl _, fun _ _ n hn => by cases hn⟩
  | n :: ns, w, hapart => by
    have hfirst : Ends (write user n) w fun r w' => NotesStay w w' ∧ ((w'.rowsOf user).map (·.id)).Nodup ∧
        Vector.ChangedOnly [n.uid] (w.rowsOf user) (w'.rowsOf user) ∧
        (r = .ok () → n.HasRow w.index.embedder (w'.rowsOf user)) :=
      ⟨notesStay_write user n w, write_rows user n w hapart⟩
    refine hfirst.bind (fun _ w' h => ?_) fun e w' h => ⟨h.2.1, h.2.2.1.mono (by simp), fun he => by cases he⟩
    obtain ⟨hstay, hapart', hchanged, hrow⟩ := h
    refine (each_rows ns w' hapart').mono fun r w'' h' => ?_
    obtain ⟨hapart'', hchanged', hrows⟩ := h'
    refine ⟨hapart'', (hchanged.mono (by simp)).trans (hchanged'.mono fun _ => List.mem_cons_of_mem _), ?_⟩
    rintro rfl hnodup
    obtain ⟨hn, hns⟩ := List.nodup_cons.1 hnodup
    -- the notes written later have other uids, so the row of the first stays
    refine List.forall_mem_cons.2 ⟨(hrow rfl).congr rfl (hchanged'.filter_id hn), fun m hm => ?_⟩
    exact (hrows rfl hns m hm).congr hstay.embed.symm rfl

theorem each_again : ∀ (ns : List Note) (w : World), w.index.embedder.Steady →
    (∀ n ∈ ns, n.HasRow w.index.embedder (w.rowsOf user)) →
    Ends (.each (write user) ns) w fun _ w' => w'.rowsOf user = w.rowsOf user
  | [], w, _, _ => rfl
  | n :: ns, w, hsteady, hrows => by
    obtain ⟨hn, hns⟩ := List.forall_mem_cons.1 hrows
    have hfirst : Ends (write user n) w fun _ w' => NotesStay w w' ∧ w'.rowsOf user = w.rowsOf user :=
      ⟨notesStay_write user n w, write_again hsteady hn⟩
    refine hfirst.bind (fun _ w' h => ?_) fun _ _ h => h.2
    obtain ⟨hstay, hsame⟩ := h
    have hsteady' : w'.index.embedder.Steady := fun i j text => by
      rw [hstay.embed]
      exact hsteady i j text
    refine (each_again ns w' hsteady' fun m hm => (hns m hm).congr hstay.embed ?_).mono fun _ _ h' => h'.trans hsame
    rw [hsame]

/-- Where no call is refused and every text is embedded, all notes are written. -/
theorem each_willing (user : Int) : ∀ (ns : List Note) (w : World), w.index.Willing →
    Ends (.each (write user) ns) w fun r w' => r = .ok () ∧ w'.index.Willing
  | [], _, h => ⟨rfl, h⟩
  | n :: ns, w, h => by
    have hupsert := Vector.Index.upsert_ends h user n.uid n.content (Tool.indexFields n.content)
    have hfirst : Ends (write user n) w fun r w' => r = .ok () ∧ w'.index.Willing :=
      ⟨hupsert.1, h.alike hupsert.2.1⟩
    exact hfirst.bind (fun _ w' h' => each_willing user ns w' h'.2) fun _ _ h' => by cases h'.1

/-! ## The listing and the writing -/

/-- Once the notes are listed, those that are due are written. -/
theorem run_eq {found : List Note} (hlist : ∀ n, w.noteFaults.strikes n .list = none)
    (hselect : w.notes.select user { status := some normal } = .ok found) :
    run user w =
      ((fun _ => (found.filter isIndexed).length) <$> Attempt.each (write user) (found.filter isIndexed)) w.noteUsed := by
  have hfound : World.notesOf user { status := some normal } w = (.ok (some found), w.noteUsed) := by
    rw [World.notesOf_run hlist, hselect]
    rfl
  rw [run, Attempt.bind_run_ok hfound]
  rfl

/-- The notes `before` are written, and then the writing of a note fails. -/
def BreaksAt (user : Int) (before : List Note) (n : Note) (e : Failure) (w w' : World) : Prop :=
  ∃ w₁, Attempt.each (write user) before w = (.ok (), w₁) ∧ write user n w₁ = (.error e, w')

/-- **Writing all notes of a user is exact**, where `ns` are the notes that are due, in the order of a listing. -/
structure Exact (user : Int) (ns : List Note) (w : World) : Prop where
  /-- Where nothing is refused, it says how many notes these are, and says so again. -/
  finishes : w.index.Willing → ∃ w' w'', run user w = (.ok ns.length, w') ∧ run user w' = (.ok ns.length, w'')
  /-- Where it finishes, it says how many notes these are; each of them then has one row, the rows of all other ids are as
  they were, and doing it again leaves the collection as it is. -/
  places : ∀ count w', run user w = (.ok count, w') → count = ns.length ∧
    (∀ n ∈ ns, n.HasRow w.index.embedder (w'.rowsOf user)) ∧
    Vector.ChangedOnly (ns.map (·.uid)) (w.rowsOf user) (w'.rowsOf user) ∧
    (w.index.embedder.Steady → (run user w').2.rowsOf user = w'.rowsOf user)
  /-- It fails just where the writing of a note fails, with the failure of that note. -/
  breaks : ∀ e w', run user w = (.error e, w') ↔
    ∃ before n after, ns = before ++ n :: after ∧ BreaksAt user before n e w.noteUsed w'
  /-- Then the notes before that one have their rows, and what the collection held of the notes after it is still there. -/
  leaves : ∀ before n after e w', ns = before ++ n :: after → BreaksAt user before n e w.noteUsed w' →
    (∀ m ∈ before, m.HasRow w.index.embedder (w'.rowsOf user)) ∧
    (∀ m ∈ after, (w'.rowsOf user).filter (·.id == m.uid) = (w.rowsOf user).filter (·.id == m.uid)) ∧
    Vector.ChangedOnly ((before ++ [n]).map (·.uid)) (w.rowsOf user) (w'.rowsOf user)
  /-- The notes and all other collections are as they were, however it ends. -/
  others : (run user w).2.notes = w.notes ∧ ∀ name, name ≠ Vector.collectionOf user →
    Json.lookup name (run user w).2.index.service.collections = Json.lookup name w.index.service.collections

/-- The first writing that fails leaves the rows of the notes after it. -/
theorem leaves_of_breaksAt {before after : List Note} {n : Note} {e : Failure} {w' : World}
    (hrows : ((w.rowsOf user).map (·.id)).Nodup) (hnodup : ((before ++ n :: after).map (·.uid)).Nodup)
    (h : BreaksAt user before n e w w') :
    (∀ m ∈ before, m.HasRow w.index.embedder (w'.rowsOf user)) ∧
    (∀ m ∈ after, (w'.rowsOf user).filter (·.id == m.uid) = (w.rowsOf user).filter (·.id == m.uid)) ∧
    Vector.ChangedOnly ((before ++ [n]).map (·.uid)) (w.rowsOf user) (w'.rowsOf user) := by
  obtain ⟨w₁, hbefore, hn⟩ := h
  rw [List.map_append, List.map_cons, List.nodup_append] at hnodup
  obtain ⟨hnodup, hafter, hapart⟩ := hnodup
  have hall := each_rows before w hrows
  rw [Ends, hbefore] at hall
  obtain ⟨hrows₁, hchanged, hwritten⟩ := hall
  have hlast := write_rows user n w₁ hrows₁
  rw [Ends, hn] at hlast
  obtain ⟨-, hchanged', -⟩ := hlast
  have hboth : Vector.ChangedOnly ((before ++ [n]).map (·.uid)) (w.rowsOf user) (w'.rowsOf user) := by
    rw [List.map_append]
    exact (hchanged.mono fun _ => List.mem_append_left _).trans (hchanged'.mono fun _ => List.mem_append_right _)
  refine ⟨fun m hm => ?_, fun m hm => hboth.filter_id fun hmem => ?_, hboth⟩
  · refine (hwritten rfl hnodup m hm).congr rfl (hchanged'.filter_id fun hmn => ?_)
    exact hapart m.uid (List.mem_map_of_mem hm) n.uid List.mem_cons_self (List.mem_singleton.1 hmn)
  · rw [List.map_append, List.mem_append, List.map_singleton, List.mem_singleton] at hmem
    rcases hmem with hmem | hmem
    · exact hapart _ hmem _ (List.mem_cons_of_mem _ (List.mem_map_of_mem hm)) rfl
    · exact (List.nodup_cons.1 hafter).1 (hmem ▸ List.mem_map_of_mem hm)

theorem exact_of_select {found : List Note} (hk : w.notes.Keyed) (hlist : ∀ n, w.noteFaults.strikes n .list = none)
    (hrows : ((w.rowsOf user).map (·.id)).Nodup)
    (hselect : w.notes.select user { status := some normal } = .ok found) : Exact user (found.filter isIndexed) w := by
  have hnodup := (select_due hk hselect).1
  -- the notes are listed alike once they have been written
  have hrun {w' : World} (hstay : NotesStay w w') : run user w' =
      ((fun _ => (found.filter isIndexed).length) <$> Attempt.each (write user) (found.filter isIndexed)) w'.noteUsed :=
    run_eq (fun n => by rw [hstay.strikes, hlist]) (by rw [hstay.notes, hselect])
  have hstill := hrun (Std.Refl.refl w)
  have hused : NotesStay w w.noteUsed := ⟨rfl, rfl, rfl⟩
  generalize found.filter isIndexed = ns at hnodup hrun hstill ⊢
  constructor
  case finishes =>
    intro hi
    obtain ⟨hr, hi'⟩ := each_willing user ns w.noteUsed hi
    have hstay : NotesStay w (Attempt.each (write user) ns w.noteUsed).2 := hused.trans (notesStay_each user ns _)
    have hr' := (each_willing user ns (Attempt.each (write user) ns w.noteUsed).2.noteUsed hi').1
    have hagain := hrun hstay
    rw [Attempt.map_run, hr] at hstill
    rw [Attempt.map_run, hr'] at hagain
    exact ⟨_, _, hstill, hagain⟩
  case places =>
    intro count w' h
    rw [hstill, Attempt.map_run] at h
    rcases hall : Attempt.each (write user) ns w.noteUsed with ⟨e | done, w₁⟩ <;> rw [hall] at h <;> cases h
    have hstay : NotesStay w w₁ := hused.trans ((notesStay_each user ns).run hall)
    have hends := each_rows ns w.noteUsed hrows
    rw [Ends, hall] at hends
    obtain ⟨-, hchanged, hwritten⟩ := hends
    refine ⟨rfl, hwritten rfl hnodup, hchanged, fun hsteady => ?_⟩
    rw [hrun hstay, Attempt.map_run]
    refine each_again ns w₁.noteUsed (fun i j text => ?_) fun n hn => (hwritten rfl hnodup n hn).congr hstay.embed rfl
    change w₁.index.embedder.embed i text = w₁.index.embedder.embed j text
    rw [hstay.embed]
    exact hsteady i j text
  case breaks =>
    intro e w'
    rw [hstill, Attempt.map_error_iff]
    exact Attempt.each_error_iff
  case leaves =>
    rintro before n after e w' rfl h
    exact leaves_of_breaksAt (w := w.noteUsed) hrows hnodup h
  case others =>
    refine ⟨?_, (keeps_run user w).collections⟩
    rw [hstill, Attempt.map_run]
    exact (notesStay_each user ns w.noteUsed).notes

/-- **Writing all notes of a user is exact where the user's number fits the columns of the store**, whatever notes there
are, whatever the collection holds, and whatever the vector service and the embedder refuse; for all other users it is
refused, and nothing is done. -/
theorem run_exact (w : World) (hsound : w.notes.Sound) (hlist : ∀ n, w.noteFaults.strikes n .list = none) (user : Int)
    (hrows : ((w.rowsOf user).map (·.id)).Nodup) :
    (fitsColumn user = true → ∃ ns,
      w.notes.Listing (fun n => n.owner = user ∧ n.status = normal ∧ n.Speaks) ns ∧ Exact user ns w) ∧
    (fitsColumn user = false → run user w = (.error .wideInteger, w.noteUsed)) := by
  have hasked : ({ status := some normal } : Filter).Fits user ↔ fitsColumn user = true := Filter.fits_status
  constructor
  · intro hfits
    obtain ⟨found, hselect⟩ := w.notes.select_ok (hasked.2 hfits)
    refine ⟨found.filter isIndexed, ?_, exact_of_select hsound.keyed hlist hrows hselect⟩
    refine ((Table.listing_select hsound hselect).filter isIndexed).congr fun n => ?_
    rw [isIndexed_iff, Filter.asks_status, and_assoc]
  · intro hwide
    have hselect := w.notes.select_refused fun h => Bool.eq_false_iff.1 hwide (hasked.1 h)
    have hlisted : World.notesOf user { status := some normal } w = (.error .wideInteger, w.noteUsed) := by
      rw [World.notesOf_run hlist, hselect]
      rfl
    exact Attempt.bind_run_error hlisted

/-- One user has two notes to be written, a blank one and an archived one; the collection holds an old text of the first
note, and a row of a note that is gone. -/
def oldShelf : World :=
  { World.untouched with
    notes := ⟨[⟨1, ⟨"a", 1, "one #x", "NORMAL", 5, 5⟩⟩, ⟨2, ⟨"b", 1, " ", "NORMAL", 6, 6⟩⟩,
      ⟨3, ⟨"c", 1, "three", "ARCHIVED", 7, 7⟩⟩, ⟨4, ⟨"d", 1, "four", "NORMAL", 8, 8⟩⟩]⟩
    index := .fresh ⟨[("user_1_notes", [⟨"a", "old", [], .text ""⟩, ⟨"z", "gone", [], .text ""⟩])], [], .plain⟩
      ⟨fun _ _ => .ok [[]], 0⟩ 0 }

theorem run_exact_oldShelf :
    oldShelf.notes.Sound ∧ (∀ n, oldShelf.noteFaults.strikes n .list = none) ∧
    ((oldShelf.rowsOf 1).map (·.id)).Nodup ∧ fitsColumn 1 = true ∧ oldShelf.index.Willing ∧
    ∃ ns w', ns.length = 2 ∧ Exact 1 ns oldShelf ∧ run 1 oldShelf = (.ok 2, w') ∧
      (w'.rowsOf 1).filter (·.id == "z") = [⟨"z", "gone", [], .text ""⟩] := by
  have hsound : oldShelf.notes.Sound := ⟨by decide, by decide⟩
  have hrows : ((oldShelf.rowsOf 1).map (·.id)).Nodup := by decide +kernel
  have hwilling : oldShelf.index.Willing := ⟨fun _ _ => rfl, fun _ _ => ⟨[], [], rfl⟩⟩
  obtain ⟨ns, hlisting, hexact⟩ := (run_exact oldShelf hsound (fun _ => rfl) 1 hrows).1 (by decide)
  obtain ⟨w', -, hrun, -⟩ := hexact.finishes hwilling
  have hlength : ns.length = 2 := (hlisting.perm hsound.keyed).length_eq.trans (by decide +kernel)
  rw [hlength] at hrun
  have hnone : "z" ∉ ns.map (·.uid) := fun hz => by
    obtain ⟨n, hn, hz⟩ := List.mem_map.1 hz
    exact absurd hz ((by decide : ∀ n ∈ oldShelf.notes.toList, n.uid ≠ "z") n ((hlisting.mem n).1 hn).1)
  refine ⟨hsound, fun _ => rfl, hrows, by decide, hwilling, ns, w', hlength, hexact, hrun, ?_⟩
  rw [(hexact.places _ _ hrun).2.2.1.filter_id hnone]
  rfl

/-- **A user whose number does not fit the columns of the store is refused**, though there is no note to be written and
nothing fails. -/
theorem wide_user_is_failed :
    World.untouched.Willing ∧ World.untouched.notes.toList = [] ∧
    (run 9223372036854775808 World.untouched).1 = .error .wideInteger ∧
    ∀ count, (run 9223372036854775808 World.untouched).1 ≠ .ok count := by
  have hrun : (run 9223372036854775808 World.untouched).1 = .error .wideInteger := by decide +kernel
  exact ⟨World.untouched_willing, rfl, hrun, fun count h => by cases hrun.symm.trans h⟩

end Indexing
end Note
end NoteAgent
