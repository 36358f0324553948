import NoteAgent.Proofs.IndexDrift
import NoteAgent.Proofs.NoteViews
import NoteAgent.Proofs.SearchHits
/-!
# IndexRepair — what writing all notes to the index mends, and what it leaves

Writing all notes of a user to the index puts each note in use whose content is not blank in its place, as it is now, and
takes nothing away (`run_ok`).  So it mends every change that the index has missed, but not a deletion: what the index holds
of a note that is deleted, or blank, stays there (`reindexed_leaves_deleted`).  All else in the collection is right after it,
however far the index had drifted (`reindexed`).
-/
namespace NoteAgent
namespace Note

/-- The note is in use and its content is not blank: it is written to the index when all are. -/
def Due (n : Note) : Prop := n.status = normal ∧ Indexing.isIndexed n = true

instance (n : Note) : Decidable n.Due := inferInstanceAs (Decidable (_ ∧ _))

namespace Indexing

open Attempt (Ends)

variable {user : Int}

/-! ## Writing without a failure -/

theorem write_ok (user : Int) (n : Note) (w : World) : Ends (write user n) w fun r w' => r = .ok () →
    w'.notes = w.notes ∧ w'.index.documents user = Vector.putDocument n.document (w.index.documents user) := by
  intro hr
  rcases Vector.Index.wrote_upsert user n.uid n.content w.index with h | ⟨⟨e, he⟩, -⟩
  · exact ⟨rfl, h⟩
  · have hfailed : (write user n w).1 = .error e := he
    rw [hfailed] at hr
    cases hr

/-- **Notes of different uids that are all written stand in the collection**, beside what it had under other ids. -/
theorem each_write_ok : ∀ (ns : List Note) (w : World), (ns.map (·.uid)).Nodup →
    Vector.Apart (w.index.documents user) → Ends (.each (write user) ns) w fun r w' => r = .ok () →
      w'.notes = w.notes ∧ Vector.Apart (w'.index.documents user) ∧ ∀ d, d ∈ w'.index.documents user ↔
        (∃ n ∈ ns, n.document = d) ∨ d ∈ w.index.documents user ∧ ∀ n ∈ ns, n.uid ≠ d.id
  | [], w, _, hapart => fun _ => ⟨rfl, hapart, fun d => by simp [Attempt.each]⟩
  | n :: ns, w, hnodup, hapart => by
    obtain ⟨hn, hns⟩ := List.nodup_cons.1 hnodup
    refine (write_ok user n w).bind (fun _ w' h => ?_) fun _ _ _ he => by cases he
    obtain ⟨hnotes, hdocuments⟩ := h rfl
    refine (each_write_ok ns w' hns (hdocuments ▸ hapart.put)).mono fun r w'' h' hr => ?_
    obtain ⟨hnotes', hapart', hmem⟩ := h' hr
    refine ⟨hnotes'.trans hnotes, hapart', fun d => ?_⟩
    -- the note that was written first is not written over, since no other has its uid
    have hkept : ∀ m ∈ ns, m.uid ≠ n.document.id := fun m hm hmn => hn (List.mem_map.2 ⟨m, hm, hmn⟩)
    rw [hmem, hdocuments, Vector.mem_putDocument hapart]
    constructor
    · rintro (⟨m, hm, rfl⟩ | ⟨rfl | ⟨hd, hdn⟩, hrest⟩)
      · exact .inl ⟨m, List.mem_cons_of_mem _ hm, rfl⟩
      · exact .inl ⟨n, List.mem_cons_self, rfl⟩
      · exact .inr ⟨hd, List.forall_mem_cons.2 ⟨fun h => hdn h.symm, hrest⟩⟩
    · rintro (⟨m, hm, rfl⟩ | ⟨hd, hrest⟩)
      · rcases List.mem_cons.1 hm with rfl | hm
        · exact .inr ⟨.inl rfl, hkept⟩
        · exact .inl ⟨m, hm, rfl⟩
      · obtain ⟨hdn, hrest⟩ := List.forall_mem_cons.1 hrest
        exact .inr ⟨.inr ⟨hd, fun h => hdn h.symm⟩, hrest⟩

/-- A selection of the notes in use, read as the index does. -/
theorem select_due {t : Table} (hk : t.Keyed) {ns : List Note} (h : t.select user { status := some normal } = .ok ns) :
    ((ns.filter isIndexed).map (·.uid)).Nodup ∧ ∀ n, n ∈ ns.filter isIndexed ↔ n ∈ t.of user ∧ n.Due := by
  have hperm := Table.perm_of_select h
  constructor
  · have hnodup : (ns.map (·.uid)).Nodup :=
      ((hperm.map _).nodup_iff).2 ((hk.uid_nodup user).sublist (List.filter_sublist.map _))
    exact hnodup.sublist (List.filter_sublist.map _)
  · intro n
    rw [List.mem_filter, hperm.mem_iff, List.mem_filter, and_assoc]
    refine and_congr_right fun hn => ?_
    obtain ⟨e, -, howner, rfl⟩ := Table.mem_of.1 hn
    have hadmits : Table.Filter.admits user { status := some normal } e.note = (normal == e.note.status) := by
      simp [Table.Filter.admits, howner]
    rw [hadmits, beq_iff_eq, eq_comm]
    rfl

/-- **Writing all notes of a user, without a failure**: the collection holds each note that is due as it is now, and keeps
what it had under all other ids. -/
theorem run_ok {w : World} (hk : w.notes.Keyed) (hapart : Vector.Apart (w.index.documents user)) :
    Ends (run user) w fun r w' => ∀ count, r = .ok count →
      w'.notes = w.notes ∧ Vector.Apart (w'.index.documents user) ∧ ∀ d, d ∈ w'.index.documents user ↔
        (∃ n ∈ w.notes.of user, n.Due ∧ n.document = d) ∨
          d ∈ w.index.documents user ∧ ∀ n ∈ w.notes.of user, n.Due → n.uid ≠ d.id := by
  refine (notesOf_selects user { status := some normal } w).bind (fun found w' h => ?_) fun _ _ _ _ he => by cases he
  obtain ⟨rfl, hfound⟩ := h
  cases found with
  | none => exact fun _ he => by cases he
  | some ns =>
    obtain ⟨hnodup, hdue⟩ := select_due hk (hfound ns rfl)
    refine Ends.next rfl ((each_write_ok (ns.filter isIndexed) w.noteUsed hnodup hapart).bind ?_ ?_)
    · intro _ w' h count _
      obtain ⟨hnotes, hapart', hmem⟩ := h rfl
      refine ⟨hnotes, hapart', fun d => (hmem d).trans ?_⟩
      simp only [hdue, and_imp, and_assoc]
      rfl
    · exact fun _ _ _ _ he => by cases he

end Indexing
end Note

namespace World

/-! ## After a drift -/

/-- **Writing all notes of a user mends the collection, but for what is left of notes that are gone or blank.**  Whatever
tools have been run for whatever users, and whichever calls to the service and to the embedder have failed: once all notes
of a user are written without a failure, each note that is due has one document, as it is now; and a document that is not
one of these was there before, is what a note of the user came to at some time, and no note that is due has its id.  So
what a search then shows under the uid of a note that is due is its content. -/
theorem reindexed (w : World) (hw : w.Outspoken) (hk : w.notes.Keyed) (hindex : w.index.service.collections = [])
    (xs : List Work) (user : Int) {count : Nat} {w' : World}
    (hrun : Note.Indexing.run user (afterWork w xs) = (.ok count, w')) :
    w'.notes = (afterWork w xs).notes ∧
    (∀ n ∈ w'.notes.of user, n.Due → (w'.index.documents user).filter (·.id == n.uid) = [n.document]) ∧
    (∀ d ∈ w'.index.documents user, (∃ n ∈ w'.notes.of user, n.Due ∧ n.document = d) ∨
      d ∈ (afterWork w xs).index.documents user ∧ (∀ n ∈ w'.notes.of user, n.Due → n.uid ≠ d.id) ∧
        ∃ ys, ys <+: xs ∧ ∃ n ∈ (afterWork w ys).notes.of user, n.document = d) ∧
    ∀ i : Vector.Index, i.Offers user (w'.index.documents user) → ∀ query k tag hits i',
      Vector.Index.search user query k tag i = (.ok hits, i') → ∀ h ∈ hits,
        (∃ d ∈ w'.index.documents user, h.Shows d) ∧
          ∀ n ∈ w'.notes.of user, n.Due → n.uid = h.id → h.content = .text n.content := by
  have hnone : w.index.documents user = [] := by
    rw [Vector.Index.documents, Vector.Service.rows, hindex]
    rfl
  have hapart : Vector.Apart (w.index.documents user) := by
    rw [hnone]
    exact .nil
  obtain ⟨hapart, hstems⟩ := afterWork_stems hw hapart xs
  have hends := Note.Indexing.run_ok (afterWork_keyed hk xs) hapart
  rw [Attempt.Ends, hrun] at hends
  obtain ⟨hnotes, hapart', hmem⟩ := hends count rfl
  rw [← hnotes] at hmem
  refine ⟨hnotes, fun n hn hdue => Vector.Apart.filter_id hapart' ((hmem _).2 (.inl ⟨n, hn, hdue, rfl⟩)), fun d hd => ?_, ?_⟩
  · refine ((hmem d).1 hd).imp_right fun hold => ⟨hold.1, hold.2, ?_⟩
    rcases hstems d hold.1 with hstart | hstem
    · rw [hnone] at hstart
      cases hstart
    · exact hstem
  · intro i hi query k tag hits i' hsearch h hh
    have hshown := Vector.Index.search_shows hi query k tag
    rw [Attempt.Ends, hsearch] at hshown
    obtain ⟨d, hd, hshows⟩ := hshown hits rfl h hh
    refine ⟨⟨d, hd, hshows⟩, fun n hn hdue huid => ?_⟩
    rcases (hmem d).1 hd with ⟨m, hm, -, rfl⟩ | ⟨-, hothers⟩
    · have hmn : m = n := List.inj_on_of_nodup_map ((afterWork_keyed hk xs).uid_nodup user) (hnotes ▸ hm) (hnotes ▸ hn)
        (hshows.1.symm.trans huid.symm)
      rw [← hmn]
      exact hshows.2
    · exact absurd (huid.trans hshows.1) (hothers n hn hdue)

/-- The vector service refuses to delete anything, and refuses its eighth call. -/
def hardOfHearing : World :=
  .fresh 5 (.fresh ⟨[], [], fun n call => match call with
      | .delete .. => some (.refused "busy")
      | _ => if n = 7 then some (.refused "busy") else none, fun _ => none, fun _ _ => none⟩
    ⟨fun _ _ => .ok [[]], 0⟩ 0) (.fresh (.always "") (.always "") (.always ""))

/-- Two notes are written; the index misses that the first is deleted and that the second is changed. -/
def twoMissed : List Work :=
  [.tool ⟨1, true, "", 5⟩ "create_note" "\x7b\"content\": \"one\"\x7d",
    .tool ⟨1, true, "", 5⟩ "create_note" "\x7b\"content\": \"two\"\x7d",
    .tool ⟨1, true, "", 5⟩ "delete_note" "\x7b\"uid\": \"0000000100000000000000\"\x7d",
    .tool ⟨1, true, "", 5⟩ "update_note" "\x7b\"uid\": \"0000000200000000000000\", \"content\": \"new\"\x7d"]

theorem hardOfHearing_outspoken : hardOfHearing.Outspoken := fun _ _ h => by cases h

theorem reindexed_twoMissed :
    hardOfHearing.Outspoken ∧ hardOfHearing.notes.Keyed ∧ hardOfHearing.index.service.collections = [] ∧
    (afterWork hardOfHearing twoMissed).index.documents 1 =
      [⟨"0000000100000000000000", "one", [("tags", "")]⟩, ⟨"0000000200000000000000", "two", [("tags", "")]⟩] ∧
    ∃ w', Note.Indexing.run 1 (afterWork hardOfHearing twoMissed) = (.ok 1, w') ∧
      (w'.index.documents 1).filter (·.id == "0000000200000000000000") =
        [⟨"0000000200000000000000", "new", [("tags", "")]⟩] := by
  have hcount : (Note.Indexing.run 1 (afterWork hardOfHearing twoMissed)).1 = .ok 1 := by decide +kernel
  have hnotes : (afterWork hardOfHearing twoMissed).notes.of 1 =
      [⟨"0000000200000000000000", 1, "new", "NORMAL", 5, 5⟩] := by decide +kernel
  have hrun : Note.Indexing.run 1 (afterWork hardOfHearing twoMissed) =
      (.ok 1, (Note.Indexing.run 1 (afterWork hardOfHearing twoMissed)).2) := by rw [← hcount]
  obtain ⟨hsame, hdue, -⟩ := reindexed hardOfHearing hardOfHearing_outspoken .nil rfl twoMissed 1 hrun
  rw [hsame, hnotes] at hdue
  refine ⟨hardOfHearing_outspoken, .nil, rfl, by decide +kernel, _, hrun, ?_⟩
  exact (hdue _ (List.mem_singleton_self _) (by decide +kernel)).trans (by decide +kernel)

/-- A note is written, and the index misses that it is deleted. -/
def deletionMissed : List Work :=
  [.tool ⟨1, true, "", 5⟩ "create_note" "\x7b\"content\": \"one\"\x7d",
    .tool ⟨1, true, "", 5⟩ "delete_note" "\x7b\"uid\": \"0000000100000000000000\"\x7d"]

/-- **A note that is deleted stays in the index**, if the index has missed the deletion: writing all notes does not take it
out, and a search shows its text. -/
theorem reindexed_leaves_deleted :
    (Note.Indexing.run 1 (afterWork hardOfHearing deletionMissed)).1 = .ok 0 ∧
    (Note.Indexing.run 1 (afterWork hardOfHearing deletionMissed)).2.notes.toList = [] ∧
    (Note.Indexing.run 1 (afterWork hardOfHearing deletionMissed)).2.index.documents 1 =
      [⟨"0000000100000000000000", "one", [("tags", "")]⟩] ∧
    ((Vector.Index.search 1 "one" 1 none
      (Note.Indexing.run 1 (afterWork hardOfHearing deletionMissed)).2.index).1.toOption.map
        (·.map fun h => (h.id, Json.shown h.content))) = some [("0000000100000000000000", "one")] := by
  refine ⟨?_, ?_, ?_, ?_⟩ <;> decide +kernel

end World
end NoteAgent
