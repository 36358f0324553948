import Mathlib.Data.List.Infix
import NoteAgent.Proofs.EditOverlap
/-!
# TextRace — when two texts that are added at once are both in the note

A call that adds text to a note stores the content it read with its own text at the end.  What another call stored in between
is overwritten.  For two calls that both answer with success the loss is exact (`holdsBoth_iff_heeds`): both texts are in the
note in the end if and only if, whenever one call still holds the note as it was read and the other has changed it, what the
one goes on to store has the other's text in it.  It has if the note was read after the change; so nothing is lost if the two
calls never hold the note at once (`holdsBoth_of_apart`).
-/
namespace NoteAgent
namespace Tool
namespace Pair

open EditCall (Stage)

/-! ## Calls that add text -/

/-- Two calls add texts to one note, and both have answered with success in the end. -/
structure Additions (qs : Bool → EditCall) (w : World) (uid : String) (texts : Bool → String) (es : List Happening) :
    Prop where
  willing : w.Willing
  about : ∀ i, (qs i).uid = uid
  adds : ∀ i, (qs i).edit.added? = some (texts i)
  succeed : ∀ i, (((machine qs w).run es).stages i).answer? (qs i).edit = some (qs i).edit.success

/-- The note is there, and its content has both texts in it. -/
def HoldsBoth (texts : Bool → String) (uid : String) (p : Pair) : Prop :=
  ∃ content, p.world.content? uid = some content ∧ ∀ i, Text.contains content (texts i) = true

/-- Whether a call that still holds the note as it was read, and adds the text `own` to it, will store a content that has
the text of the other in it, should the other have changed the note. -/
def heeds (own others : String) (st other : Stage) : Bool :=
  match st with
  | .holding note => !other.changed || Text.contains (Text.joinByBlankLine note.content own) others
  | _ => true

/-- Whenever one call still holds the note and the other has changed it, the one that holds it heeds the other. -/
def Heeds (qs : Bool → EditCall) (w : World) (texts : Bool → String) (es : List Happening) : Prop :=
  ∀ pre ∈ es.inits, ∀ i j, i ≠ j →
    heeds (texts i) (texts j) (((machine qs w).run pre).stages i) (((machine qs w).run pre).stages j) = true

instance (qs : Bool → EditCall) (w : World) (texts : Bool → String) (es : List Happening) :
    Decidable (Heeds qs w texts es) := inferInstanceAs (Decidable (∀ _ ∈ _, _))

/-- The two calls never hold the note at once. -/
def Apart (qs : Bool → EditCall) (w : World) (es : List Happening) : Prop :=
  ∀ pre ∈ es.inits, ∀ i j note note', i ≠ j → ((machine qs w).run pre).stages i = .holding note →
    ((machine qs w).run pre).stages j ≠ .holding note'

variable {qs : Bool → EditCall} {w : World} {uid : String} {texts : Bool → String} {es : List Happening} {p p' : Pair}

theorem heeds_intro (h : ∀ {pre post : List Happening} {i j : Bool} {note : Note}, es = pre ++ post → i ≠ j →
    ((machine qs w).run pre).stages i = .holding note → (((machine qs w).run pre).stages j).changed = true →
      Text.contains (Text.joinByBlankLine note.content (texts i)) (texts j) = true) : Heeds qs w texts es := by
  intro pre hpre i j hij
  obtain ⟨post, hes⟩ := (List.mem_inits _ _).1 hpre
  unfold heeds
  split
  · rename_i note hholding
    cases hchanged : (((machine qs w).run pre).stages j).changed with
    | false => rfl
    | true =>
      rw [h hes.symm hij hholding hchanged]
      rfl
  · rfl

theorem Heeds.contains (h : Heeds qs w texts es) {pre post : List Happening} (hes : es = pre ++ post) {i j : Bool}
    (hij : i ≠ j) {note : Note} (hholding : ((machine qs w).run pre).stages i = .holding note)
    (hchanged : (((machine qs w).run pre).stages j).changed = true) :
    Text.contains (Text.joinByBlankLine note.content (texts i)) (texts j) = true := by
  have hheeds := h pre ((List.mem_inits _ _).2 ⟨post, hes.symm⟩) i j hij
  rw [hholding, heeds, hchanged] at hheeds
  simpa using hheeds

/-! ## What a happening keeps -/

/-- The texts of the calls that have changed the note are in it. -/
def HoldsChanges (texts : Bool → String) (uid : String) (p : Pair) : Prop :=
  ∀ i, (p.stages i).changed = true →
    ∃ content, p.world.content? uid = some content ∧ Text.contains content (texts i) = true

theorem Turn.holdsChanges (h : Turn qs uid p p') (hadds : ∀ i, (qs i).edit.added? = some (texts i))
    (hp : HoldsChanges texts uid p) (hheeds : ∀ k note i, p.stages k = .holding note → i ≠ k →
      (p.stages i).changed = true → Text.contains (Text.joinByBlankLine note.content (texts k)) (texts i) = true) :
    HoldsChanges texts uid p' := by
  intro i hchanged
  cases h with
  | passes hcontent _ hstages =>
    rw [hcontent]
    exact hp i ((hstages i).changed ▸ hchanged)
  | stores k note hwas his hothers hcontent =>
    rw [hcontent, Edit.result?_of_added (hadds k)]
    refine ⟨_, rfl, ?_⟩
    by_cases hik : i = k
    · rw [hik]
      exact Text.contains_join_right _ _
    · exact hheeds k note i hwas hik (hothers i hik ▸ hchanged)
  | tells k content hwas his hothers hsame =>
    rw [hsame]
    by_cases hik : i = k
    · refine hp i ?_
      rw [hik, hwas]
      rfl
    · exact hp i (hothers i hik ▸ hchanged)

/-- What a call holds has the text of the other in it, should the other have changed the note. -/
def HeldHasChanges (texts : Bool → String) (p : Pair) : Prop :=
  ∀ i j note, i ≠ j → p.stages i = .holding note → (p.stages j).changed = true →
    Text.contains note.content (texts j) = true

theorem Turn.heldHasChanges (h : Turn qs uid p p') (hp : HoldsChanges texts uid p) (hheld : HeldHasChanges texts p)
    (hapart : ∀ i j note note', i ≠ j → p.stages i = .holding note → p.stages j ≠ .holding note') :
    HeldHasChanges texts p' := by
  intro i j note hij hholding hchanged
  cases h with
  | passes _ _ hstages =>
    rw [(hstages j).changed] at hchanged
    obtain hsame | ⟨-, ⟨answer, his⟩ | ⟨-, note', his, hcontent⟩⟩ := hstages i
    · exact hheld i j note hij (hsame ▸ hholding) hchanged
    · cases hholding.symm.trans his
    · -- the note is read just now, with everything that the other has changed
      cases hholding.symm.trans his
      obtain ⟨content, hthere, hcontains⟩ := hp j hchanged
      cases hcontent.symm.trans hthere
      exact hcontains
  | stores k note' hwas his hothers =>
    have hik : i ≠ k := by
      rintro rfl
      cases hholding.symm.trans his
    rw [← eq_of_ne_of_ne hij hik] at hwas
    exact absurd hwas (hapart i j note note' hij (hothers i hik ▸ hholding))
  | tells k content hwas his hothers =>
    have hik : i ≠ k := by
      rintro rfl
      cases hholding.symm.trans his
    refine hheld i j note hij (hothers i hik ▸ hholding) ?_
    rw [eq_of_ne_of_ne hij hik, hwas]
    rfl

/-- The other call has changed the note, and this one still holds it as it was read, has put its result there since, or is
refused. -/
structure Last (qs : Bool → EditCall) (uid : String) (i : Bool) (note : Note) (p : Pair) : Prop where
  other : ∀ j, j ≠ i → (p.stages j).changed = true
  own : p.stages i = .holding note ∨
    (p.stages i).changed = true ∧ p.world.content? uid = (qs i).edit.result? note.content ∨
    ∃ answer, p.stages i = .refused answer

theorem Turn.last (h : Turn qs uid p p') {i : Bool} {note : Note} (hp : Last qs uid i note p) :
    Last qs uid i note p' := by
  refine ⟨fun j hj => h.changed (hp.other j hj), ?_⟩
  have hown := hp.own
  cases h with
  | passes hcontent _ hstages =>
    obtain hsame | ⟨-, hrefused | ⟨hcalled, -⟩⟩ := hstages i
    · rw [hsame, hcontent]
      exact hown
    · exact .inr (.inr hrefused)
    · rw [hcalled] at hown
      obtain hi | ⟨hi, -⟩ | ⟨answer, hi⟩ := hown <;> cases hi
  | stores k note' hwas his hothers hcontent =>
    -- the other has changed the note before and does not hold it, so it is this call that stores
    have hk : i = k := by
      by_contra hik
      have hchanged := hp.other k (Ne.symm hik)
      rw [hwas] at hchanged
      cases hchanged
    subst hk
    rw [hwas] at hown
    obtain hi | ⟨hi, -⟩ | ⟨answer, hi⟩ := hown <;> cases hi
    exact .inr (.inl ⟨by rw [his]; rfl, hcontent⟩)
  | tells k content hwas his hothers hsame =>
    by_cases hik : i = k
    · subst hik
      rw [hwas] at hown
      obtain hi | ⟨-, hi⟩ | ⟨answer, hi⟩ := hown
      · cases hi
      · exact .inr (.inl ⟨by rw [his]; rfl, hsame.trans hi⟩)
      · cases hi
    · rw [hothers i hik, hsame]
      exact hown

/-! ## What a run comes to -/

namespace Additions

theorem turn (h : Additions qs w uid texts es) (pre : List Happening) (e : Happening) :
    Turn qs uid ((machine qs w).run pre) ((machine qs w).run (pre ++ [e])) := turn_run h.willing h.about pre e

theorem finished (h : Additions qs w uid texts es) (i : Bool) : ((machine qs w).run es).stages i = .finished :=
  ((sound_run h.willing h.about es).stages i).finished (h.succeed i)

theorem holdsBoth (h : Additions qs w uid texts es) (hchanges : HoldsChanges texts uid ((machine qs w).run es)) :
    HoldsBoth texts uid ((machine qs w).run es) := by
  have hchanged : ∀ i, (((machine qs w).run es).stages i).changed = true := fun i => by
    rw [h.finished i]
    rfl
  obtain ⟨content, hcontent, -⟩ := hchanges true (hchanged true)
  refine ⟨content, hcontent, fun i => ?_⟩
  obtain ⟨content', hcontent', hcontains⟩ := hchanges i (hchanged i)
  cases hcontent.symm.trans hcontent'
  exact hcontains

theorem holdsBoth_of_heeds (h : Additions qs w uid texts es) (hheeds : Heeds qs w texts es) :
    HoldsBoth texts uid ((machine qs w).run es) := by
  have hrun : ∀ pre post, es = pre ++ post → HoldsChanges texts uid ((machine qs w).run pre) := by
    refine beginnings_induction (fun i hchanged => by cases hchanged) fun pre e post hes ih => ?_
    exact (h.turn pre e).holdsChanges h.adds ih fun k note i hholding hik hchanged =>
      hheeds.contains hes hik.symm hholding hchanged
  exact h.holdsBoth (hrun es [] (List.append_nil es).symm)

/-- A call that holds the note when the other has changed it is the last to change it. -/
theorem content_of_last (h : Additions qs w uid texts es) {pre post : List Happening} (hes : es = pre ++ post)
    {i j : Bool} (hij : i ≠ j) {note : Note} (hholding : ((machine qs w).run pre).stages i = .holding note)
    (hchanged : (((machine qs w).run pre).stages j).changed = true) :
    ((machine qs w).run es).world.content? uid = (qs i).edit.result? note.content := by
  have hrun : ∀ mid rest, post = mid ++ rest → Last qs uid i note ((machine qs w).run (pre ++ mid)) := by
    refine beginnings_induction ?_ fun mid e rest hpost ih => ?_
    · rw [List.append_nil]
      exact ⟨fun k hk => eq_of_ne_of_ne hij hk.symm ▸ hchanged, .inl hholding⟩
    · rw [← List.append_assoc]
      exact (h.turn (pre ++ mid) e).last ih
  obtain ⟨-, hi⟩ := hrun post [] (List.append_nil post).symm
  rw [← hes, h.finished i] at hi
  obtain hi | ⟨-, hi⟩ | ⟨answer, hi⟩ := hi
  · cases hi
  · exact hi
  · cases hi

/-- **Calls that never hold the note at once lose no text**: what the later one reads has the text of the earlier one. -/
theorem holdsBoth_of_apart (h : Additions qs w uid texts es) (hapart : Apart qs w es) :
    HoldsBoth texts uid ((machine qs w).run es) := by
  have hrun : ∀ pre post, es = pre ++ post →
      HoldsChanges texts uid ((machine qs w).run pre) ∧ HeldHasChanges texts ((machine qs w).run pre) := by
    refine beginnings_induction ?_ fun pre e post hes ih => ?_
    · exact ⟨fun i hchanged => (by cases hchanged), fun i j note _ hholding => by cases hholding⟩
    · obtain ⟨hchanges, hheld⟩ := ih
      refine ⟨(h.turn pre e).holdsChanges h.adds hchanges fun k note i hholding hik hchanged =>
        Text.contains_join_left (hheld k i note hik.symm hholding hchanged) _, ?_⟩
      exact (h.turn pre e).heldHasChanges hchanges hheld (hapart pre ((List.mem_inits _ _).2 ⟨e :: post, hes.symm⟩))
  exact h.holdsBoth (hrun es [] (List.append_nil es).symm).1

end Additions

/-- **Two texts that are added at once are both in the note just if each call heeds the other**: a text can be missing only
if it was stored while the other call held the note as it was before, and is not in what that call stores over it. -/
theorem holdsBoth_iff_heeds (h : Additions qs w uid texts es) :
    HoldsBoth texts uid ((machine qs w).run es) ↔ Heeds qs w texts es := by
  refine ⟨fun ⟨content, hcontent, hboth⟩ => heeds_intro fun hes hij hholding hchanged => ?_, h.holdsBoth_of_heeds⟩
  rw [h.content_of_last hes hij hholding hchanged, Edit.result?_of_added (h.adds _)] at hcontent
  cases hcontent
  exact hboth _

/-! ## A text that is lost, and two that are not -/

def additions : Bool → EditCall := calls (.append "one") (.addTags ["#two"])

def addedTexts (i : Bool) : String := if i then "#two" else "one"

/-- Both read the note before either stores it. -/
def race : List Happening := [.step false, .step true, .step false, .step true, .step false, .step true]

def oneAfterTheOther : List Happening := [.step false, .step false, .step false, .step true, .step true, .step true]

/-- **Of two texts that are added at once one can be lost**, though both calls answer with success. -/
theorem race_loses_text :
    Additions additions oneNote noteUid addedTexts race ∧
      ((machine additions oneNote).run race).world.content? noteUid = some "start\n\n#two" ∧
      ¬HoldsBoth addedTexts noteUid ((machine additions oneNote).run race) := by
  have hcontent : ((machine additions oneNote).run race).world.content? noteUid = some "start\n\n#two" := by decide +kernel
  refine ⟨⟨mirrors_oneNote.willing, calls_about _ _, by decide +kernel, by decide +kernel⟩, hcontent, ?_⟩
  rintro ⟨content, hthere, hboth⟩
  cases hcontent.symm.trans hthere
  exact absurd (hboth false) (by decide +kernel)

theorem holdsBoth_iff_heeds_oneAfterTheOther :
    Additions additions oneNote noteUid addedTexts oneAfterTheOther ∧
      HoldsBoth addedTexts noteUid ((machine additions oneNote).run oneAfterTheOther) ∧
      ((machine additions oneNote).run oneAfterTheOther).world.content? noteUid = some "start\n\none\n\n#two" := by
  have h : Additions additions oneNote noteUid addedTexts oneAfterTheOther :=
    ⟨mirrors_oneNote.willing, calls_about _ _, by decide +kernel, by decide +kernel⟩
  exact ⟨h, (holdsBoth_iff_heeds h).2 (by decide +kernel), by decide +kernel⟩

end Pair
end Tool
end NoteAgent
