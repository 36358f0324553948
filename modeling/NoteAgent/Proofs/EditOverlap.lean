import Mathlib.Logic.Function.Basic
import NoteAgent.Machine
import NoteAgent.Proofs.EditSteps
import NoteAgent.Proofs.NoteMirror
/-!
# EditOverlap — two calls at once that change one note

Two calls that change one note take their steps in any order, and time goes by between them.  What can come of each step is
said in terms of the one note (`Turn`): the calls go on without changing it, one of them changes it, or one of them tells the
index.  A call stores what it made from the note as it read it, and tells the index what it has stored itself, so neither the
text that the other adds nor the agreement of the index with the store is safe as a matter of course.
-/
namespace NoteAgent
namespace Tool

open EditCall (Stage)

/-! ## Two calls under way -/

theorem eq_of_ne_of_ne {i j k : Bool} (hij : i ≠ j) (hik : i ≠ k) : j = k :=
  (Bool.eq_not.2 hij.symm).trans (Bool.eq_not.2 hik.symm).symm

/-! ## What a stage is about -/

namespace EditCall
namespace Stage

/-- A call is about the note that it was made for, and what it is refused with is no text of success. -/
def Fits (q : EditCall) : Stage → Prop
  | .holding note => note.uid = q.uid
  | .stored uid _ => uid = q.uid
  | .refused answer => answer ≠ q.edit.success
  | _ => True

theorem Moves.fits {q : EditCall} {w w' : World} {st st' : Stage} (h : Moves q w w' st st') (hst : st.Fits q) :
    st'.Fits q := by
  cases h with
  | reads _ _ hfound =>
    obtain ⟨-, -, -, huid⟩ := Note.Table.get?_some hfound
    exact huid
  | stores => exact hst
  | tells => trivial
  | refuses _ _ _ hunlike => exact hunlike
  | rests => exact hst

/-- Only a call that is finished answers with success. -/
theorem Fits.finished {q : EditCall} {st : Stage} (hst : st.Fits q) (h : st.answer? q.edit = some q.edit.success) :
    st = .finished := by
  cases st with
  | finished => rfl
  | refused answer => exact absurd (Option.some.inj h) hst
  | called => cases h
  | holding note => cases h
  | stored uid content => cases h

/-- A call goes on without changing the note, whose content is `content`: it stays where it is, it is refused, or it reads
the note. -/
def Passes (content : Option String) (st st' : Stage) : Prop :=
  st' = st ∨ st.changed = false ∧
    ((∃ answer, st' = .refused answer) ∨ st = .called ∧ ∃ note, st' = .holding note ∧ content = some note.content)

theorem Passes.changed {content : Option String} {st st' : Stage} (h : Passes content st st') :
    st'.changed = st.changed := by
  obtain rfl | ⟨hno, ⟨answer, rfl⟩ | ⟨-, note, rfl, -⟩⟩ := h
  · rfl
  · exact hno.symm
  · exact hno.symm

theorem Passes.pending {content : Option String} {st st' : Stage} (h : Passes content st st') :
    st'.pending = st.pending := by
  obtain rfl | ⟨hno, ⟨answer, rfl⟩ | ⟨-, note, rfl, -⟩⟩ := h
  · rfl
  · exact (pending_of_unchanged hno).symm
  · exact (pending_of_unchanged hno).symm

theorem Passes.eq {content : Option String} {st st' : Stage} (h : Passes content st st') (hst : st.changed = true) :
    st' = st := by
  obtain hsame | ⟨hno, -⟩ := h
  · exact hsame
  · rw [hst] at hno
    cases hno

end Stage
end EditCall

/-! ## What can come of a happening -/

namespace Pair

/-- Nothing fails, and both calls are about the note. -/
structure Sound (qs : Bool → EditCall) (uid : String) (p : Pair) : Prop where
  willing : p.world.Willing
  about : ∀ i, (qs i).uid = uid
  stages : ∀ i, (p.stages i).Fits (qs i)

inductive Turn (qs : Bool → EditCall) (uid : String) (p p' : Pair) : Prop
  | passes (content : p'.world.content? uid = p.world.content? uid) (index : p'.world.index = p.world.index)
    (stages : ∀ i, (p.stages i).Passes (p.world.content? uid) (p'.stages i))
  | stores (k : Bool) (note : Note) (was : p.stages k = .holding note)
    (is : p'.stages k = .stored uid ((qs k).edit.result? note.content)) (others : ∀ i, i ≠ k → p'.stages i = p.stages i)
    (content : p'.world.content? uid = (qs k).edit.result? note.content) (index : p'.world.index = p.world.index)
  | tells (k : Bool) (content : Option String) (was : p.stages k = .stored uid content) (is : p'.stages k = .finished)
    (others : ∀ i, i ≠ k → p'.stages i = p.stages i) (same : p'.world.content? uid = p.world.content? uid)
    (shown : (qs k).caller.indexed = true →
      p'.world.shown (qs k).caller.user uid = told content (p.world.shown (qs k).caller.user uid))

variable {qs : Bool → EditCall} {w : World} {uid : String} {p p' : Pair}

theorem after_step (hw : p.world.Willing) (k : Bool) :
    Stage.Moves (qs k) p.world (after qs p (.step k)).world (p.stages k) ((after qs p (.step k)).stages k) ∧
      ∀ i, i ≠ k → (after qs p (.step k)).stages i = p.stages i := by
  refine ⟨?_, fun i hi => Function.update_of_ne hi _ _⟩
  have hk : (after qs p (.step k)).stages k = ((p.stages k).advance (qs k) p.world).1 := Function.update_self _ _ _
  rw [hk]
  exact Stage.advance_moves hw _ _

theorem Sound.after (h : Sound qs uid p) (e : Happening) : Sound qs uid (after qs p e) := by
  cases e with
  | step k =>
    obtain ⟨hmoves, hothers⟩ := after_step h.willing k
    refine ⟨h.willing.alike (Stage.advance_alike h.willing _ _), h.about, fun i => ?_⟩
    by_cases hik : i = k
    · subst hik
      exact hmoves.fits (h.stages i)
    · rw [hothers i hik]
      exact h.stages i
  | wait clock => exact ⟨h.willing.alike ⟨rfl, .refl _⟩, h.about, h.stages⟩

theorem sound_run (hw : w.Willing) (huid : ∀ i, (qs i).uid = uid) (es : List Happening) :
    Sound qs uid ((machine qs w).run es) :=
  (machine qs w).runFrom_keeps (fun _ e h => h.after e) ⟨hw, huid, fun _ => trivial⟩ es

theorem Turn.of_passes {k : Bool} (hnotes : p'.world.notes = p.world.notes) (hindex : p'.world.index = p.world.index)
    (hothers : ∀ i, i ≠ k → p'.stages i = p.stages i) (hk : (p.stages k).Passes (p.world.content? uid) (p'.stages k)) :
    Turn qs uid p p' := by
  refine .passes (by rw [World.content?, hnotes, World.content?]) hindex fun i => ?_
  by_cases hik : i = k
  · exact hik ▸ hk
  · exact .inl (hothers i hik)

/-- **What can come of a happening** where nothing fails. -/
theorem Sound.turn (h : Sound qs uid p) (e : Happening) : Turn qs uid p (Pair.after qs p e) := by
  cases e with
  | wait clock => exact .passes rfl rfl fun _ => .inl rfl
  | step k =>
    obtain ⟨hmoves, hothers⟩ := after_step h.willing k
    have hfits := h.stages k
    have huid := h.about k
    generalize hwas : p.stages k = st at hmoves hfits
    generalize his : (Pair.after qs p (.step k)).stages k = st' at hmoves
    cases hmoves with
    | @reads note hnotes hindex hfound =>
      have hcontent : p.world.content? uid = some note.content := by
        rw [World.content?, ← huid, hfound]
        rfl
      refine .of_passes hnotes hindex hothers (.inr ?_)
      rw [hwas]
      exact ⟨rfl, .inr ⟨rfl, note, his, hcontent⟩⟩
    | @stores note hindex hcontent =>
      have hnote : note.uid = uid := Eq.trans hfits huid
      rw [hnote] at his hcontent
      exact .stores k note hwas his hothers hcontent hindex
    | @tells u content hnotes hshown =>
      have hu : u = uid := Eq.trans hfits huid
      subst hu
      exact .tells k content hwas his hothers (by rw [World.content?, hnotes, World.content?]) hshown
    | refuses hnotes hindex hearly =>
      refine .of_passes hnotes hindex hothers (.inr ?_)
      rw [hwas]
      exact ⟨hearly, .inl ⟨_, his⟩⟩
    | rests hnotes hindex => exact .of_passes hnotes hindex hothers (.inl (his.trans hwas.symm))

theorem turn_run (hw : w.Willing) (huid : ∀ i, (qs i).uid = uid) (es : List Happening) (e : Happening) :
    Turn qs uid ((machine qs w).run es) ((machine qs w).run (es ++ [e])) := by
  rw [Machine.run_concat, machine_after]
  exact (sound_run hw huid es).turn e

/-- A call that has changed the note has changed it for good. -/
theorem Turn.changed (h : Turn qs uid p p') {i : Bool} (hi : (p.stages i).changed = true) :
    (p'.stages i).changed = true := by
  cases h with
  | passes _ _ hstages => rwa [(hstages i).changed]
  | stores k note hwas his hothers =>
    by_cases hik : i = k
    · rw [hik, his]
      rfl
    · rwa [hothers i hik]
  | tells k content hwas his hothers =>
    by_cases hik : i = k
    · rw [hik, his]
      rfl
    · rwa [hothers i hik]

/-! ## A note and calls that change it -/

/-- A user's note, and the index that shows it. -/
def oneNote : World :=
  World.afterWork World.untouched [.tool ⟨1, true, "", 5⟩ "create_note" "\x7b\"content\": \"start\"\x7d"]

def noteUid : String := "0000000100000000000000"

theorem mirrors_oneNote : World.Mirrors 1 oneNote :=
  World.mirrors_afterWork (World.mirrors_of_empty World.untouched_willing rfl rfl) _ 1

def calls (first second : Edit) (i : Bool) : EditCall := ⟨⟨1, true, "", 5⟩, noteUid, if i then second else first⟩

theorem calls_about (first second : Edit) (i : Bool) : (calls first second i).uid = noteUid := rfl

end Pair
end Tool
end NoteAgent
