import NoteAgent.Proofs.FilterMeaning
import NoteAgent.Proofs.NoteMirror
import NoteAgent.Proofs.NoteViews
import NoteAgent.Proofs.TagRuns
/-!
# TagLookup — a tag finds the same notes in the store and in the index

The note store is asked for the notes whose content holds a tag, the index for the rows whose tags hold it.  A tag occurs in
a content if and only if it occurs in the tags of the content, so where the collection of a user holds the user's notes, both
find the same ones (`tag_lookups_agree`).
-/
namespace NoteAgent

open Vector.Filter (Admits)

/-! ## The notes that hold a tag -/

namespace Note
namespace Table

variable {t : Table} {owner : Int}

theorem admits_containing {n : Note} (h : n ∈ t.of owner) {text : String} (hne : text.isEmpty = false) :
    Filter.admits owner { contains := some text } n = Text.contains n.content text := by
  obtain ⟨e, -, howner, rfl⟩ := mem_of.1 h
  simp [Filter.admits, howner, hne]

/-- A selection of what holds a text fails only for an owner whose number fits no column, who has no notes in the table. -/
theorem select_containing (t : Table) (owner : Int) (text : String) :
    (∃ ns, t.select owner { contains := some text } = .ok ns) ∧ fitsColumn owner = true ∨
      (∃ e, t.select owner { contains := some text } = .error e) ∧ fitsColumn owner = false := by
  have hcheck : checkColumns [owner] = if fitsColumn owner then .ok () else .error .wideInteger := by simp [checkColumns]
  change (∃ ns, (checkColumns [owner] >>= _) = .ok ns) ∧ _ ∨ (∃ e, (checkColumns [owner] >>= _) = .error e) ∧ _
  rw [hcheck]
  cases fitsColumn owner with
  | true => exact .inl ⟨⟨_, rfl⟩, rfl⟩
  | false => exact .inr ⟨⟨_, rfl⟩, rfl⟩

end Table
end Note

namespace Tool
namespace Caller

variable {c : Caller} {w : World} {tag : String}

/-- The notes that a list by tag shows. -/
def tagged (c : Caller) (tag : String) (w : World) : List Note :=
  match (World.notesOf c.user { contains := some tag } w).1 with
  | .ok found => found.getD []
  | .error _ => []

/-- **A list by tag shows the user's notes that hold the tag.** -/
theorem perm_tagged (hsteady : ∀ n, w.noteFaults.strikes n .list = none)
    (hcolumns : ∀ n ∈ w.notes.of c.user, fitsColumn n.owner = true) (hne : tag.isEmpty = false) :
    (c.tagged tag w).Perm ((w.notes.of c.user).filter fun n => Text.contains n.content tag) := by
  have hfound := World.notesOf_fst hsteady c.user { contains := some tag }
  rcases w.notes.select_containing c.user tag with ⟨⟨ns, hns⟩, -⟩ | ⟨⟨e, he⟩, hfits⟩
  · have htagged : c.tagged tag w = ns := by
      rw [tagged, hfound, hns]
      rfl
    rw [htagged, ← List.filter_congr fun n hn => Note.Table.admits_containing hn hne]
    exact Note.Table.perm_of_select hns
  · have htagged : c.tagged tag w = [] := by
      rw [tagged, hfound, he]
      rfl
    have hnone : w.notes.of c.user = [] := List.eq_nil_iff_forall_not_mem.2 fun n hn => by
      have hown := hcolumns n hn
      obtain ⟨e, -, howner, rfl⟩ := Note.Table.mem_of.1 hn
      rw [howner, hfits] at hown
      cases hown
    rw [htagged, hnone]
    exact .nil

/-- What a list by tag answers, for a user whose number fits a column. -/
theorem notesByTag_fst (hsteady : ∀ n, w.noteFaults.strikes n .list = none) (hfits : fitsColumn c.user = true)
    (hne : tag.isEmpty = false) {args : Arguments} (hargs : text args "tag" = tag) :
    (c.notesByTag args w).1 = .ok (tagListing tag (c.tagged tag w)) := by
  have hfound := World.notesOf_fst hsteady c.user { contains := some tag }
  rcases w.notes.select_containing c.user tag with ⟨⟨ns, hns⟩, -⟩ | ⟨-, hwide⟩
  · rw [hns] at hfound
    have htagged : c.tagged tag w = ns := by
      rw [tagged, hfound]
      rfl
    unfold notesByTag
    rw [hargs, if_neg (by simp [hne]), Attempt.settle_bind_run, hfound, htagged]
    rfl
  · rw [hfits] at hwide
    cases hwide

end Caller
end Tool

/-! ## The rows that a tag admits -/

namespace Vector

theorem tagFilter_of_tag {tag : String} (h : tag.isEmpty = false) : tagFilter (some tag) = Filter.containing "tags" tag := by
  simp [tagFilter, h]

/-- **The rows that a tag admits are those of the notes that hold it**, where the collection holds the notes. -/
theorem perm_admitted {tag : String} (h : Tag.IsTag tag) {rs : List Row} {ns : List Note}
    (hdocuments : (rs.map Row.document).Perm (ns.map Note.document)) :
    ((admitted (Filter.containing "tags" tag) rs).map Row.document).Perm
      ((ns.filter fun n => Text.contains n.content tag).map Note.document) := by
  let holds (d : Document) : Bool := Text.contains ((Json.lookup "tags" d.more).getD "") tag
  have hrows : (admitted (Filter.containing "tags" tag) rs).map Row.document = (rs.map Row.document).filter holds := by
    rw [Filter.admitted_containing, List.filter_map]
    rfl
  have hnotes : (ns.filter fun n => Text.contains n.content tag).map Note.document =
      (ns.map Note.document).filter holds := by
    rw [List.filter_map]
    exact congrArg _ (List.filter_congr fun n _ => (Tag.contains_joined h n.content).symm)
  rw [hrows, hnotes]
  exact hdocuments.filter holds

end Vector

/-- **Both lookups of a tag agree.**  A tag occurs in a content if and only if it occurs in the tags of the content.  So
where a user's collection holds the user's notes, the notes that a list by tag shows are those whose rows the filter of a
search with the tag admits: the service in memory finds just these rows, and so does a service that reads the filter as a
pattern.  The owners in the table are numbers that fit its columns. -/
theorem tag_lookups_agree {tag : String} (h : Tag.IsTag tag) :
    (∀ content, Text.contains content tag = true ↔ Text.contains (Tag.joined content) tag = true) ∧
    ∀ (c : Tool.Caller) (w : World), (∀ n, w.noteFaults.strikes n .list = none) →
      (∀ n ∈ w.notes.of c.user, fitsColumn n.owner = true) →
      (w.index.documents c.user).Perm ((w.notes.of c.user).map Note.document) →
      let rows := w.index.service.rows (Vector.collectionOf c.user)
      let filter := Vector.tagFilter (some tag)
      ((c.tagged tag w).map Note.document).Perm ((Vector.admitted filter rows).map Vector.Row.document) ∧
      (∀ r, r ∈ Vector.admitted filter rows ↔ r ∈ rows ∧ Admits "tags" filter r.tags) ∧
      (fitsColumn c.user = true → ∀ args, Tool.text args "tag" = tag →
        (c.notesByTag args w).1 = .ok (Tool.tagListing tag (c.tagged tag w))) := by
  have hne : tag.isEmpty = false := by
    obtain ⟨run, hrun, -⟩ := h
    rw [Bool.eq_false_iff, ne_eq, String.isEmpty_iff]
    rintro rfl
    cases hrun
  refine ⟨fun content => by rw [Tag.contains_joined h], fun c w hsteady hcolumns hdocuments => ?_⟩
  dsimp only
  rw [Vector.tagFilter_of_tag hne]
  refine ⟨?_, Vector.Filter.mem_admitted tag _, fun hfits args => Tool.Caller.notesByTag_fst hsteady hfits hne⟩
  exact ((Tool.Caller.perm_tagged hsteady hcolumns hne).map _).trans (Vector.perm_admitted h hdocuments).symm

/-- Somebody has written two notes: one with a longer tag, and one in which the tag is broken. -/
def longAndBroken : World :=
  .afterWork .untouched [.tool ⟨1, true, "", 5⟩ "create_note" "\x7b\"content\": \"a##work/home.\"\x7d",
    .tool ⟨1, true, "", 5⟩ "create_note" "\x7b\"content\": \"b # work #wor#k\"\x7d"]

theorem tag_lookups_agree_longAndBroken :
    Tag.IsTag "#work" ∧ (∀ n, longAndBroken.noteFaults.strikes n .list = none) ∧
    (∀ n ∈ longAndBroken.notes.of 1, fitsColumn n.owner = true) ∧
    (longAndBroken.index.documents 1).Perm ((longAndBroken.notes.of 1).map Note.document) ∧ fitsColumn 1 = true ∧
    Tool.text [("tag", .text "#work")] "tag" = "#work" ∧
    (Vector.admitted (Vector.tagFilter (some "#work")) (longAndBroken.index.service.rows (Vector.collectionOf 1))).map
      Vector.Row.document = [⟨"0000000100000000000000", "a##work/home.", [("tags", "#work/home")]⟩] ∧
    (Tool.Caller.notesByTag ⟨1, true, "", 5⟩ [("tag", .text "#work")] longAndBroken).1 =
      .ok "[1] Note 0000000100000000000000:\na##work/home.\n\n" := by
  have hrun : ∀ c ∈ ['w', 'o', 'r', 'k'], Tag.isTagChar c = true := by simp [Tag.isTagChar, Text.isWord]
  have htag : Tag.IsTag "#work" := ⟨['w', 'o', 'r', 'k'], by decide, by decide, hrun⟩
  have hmirrors : World.Mirrors 1 longAndBroken :=
    World.mirrors_afterWork (World.mirrors_of_empty World.untouched_willing rfl rfl) _ 1
  have hsteady : ∀ n, longAndBroken.noteFaults.strikes n .list = none := fun n => hmirrors.willing.steady n _
  have hcolumns : ∀ n ∈ longAndBroken.notes.of 1, fitsColumn n.owner = true := by decide +kernel
  have hdocuments := List.Perm.of_eq hmirrors.documents
  obtain ⟨hperm, -, hanswer⟩ := (tag_lookups_agree htag).2 ⟨1, true, "", 5⟩ longAndBroken hsteady hcolumns hdocuments
  have hshown : Tool.Caller.tagged ⟨1, true, "", 5⟩ "#work" longAndBroken =
      [⟨"0000000100000000000000", 1, "a##work/home.", "NORMAL", 5, 5⟩] :=
    List.perm_singleton.1 ((Tool.Caller.perm_tagged (c := ⟨1, true, "", 5⟩) hsteady hcolumns (by decide)).trans
      (.of_eq (by decide +kernel)))
  rw [hshown] at hperm hanswer
  refine ⟨htag, hsteady, hcolumns, hdocuments, by decide, by decide, ?_, ?_⟩
  · exact (List.perm_singleton.1 hperm.symm).trans (by decide +kernel)
  · exact (hanswer (by decide) _ (by decide)).trans (by decide +kernel)

end NoteAgent
