import Mathlib.Data.List.Infix
import NoteAgent.Proofs.EditOverlap
/-!
# IndexRace — when the index agrees with the store after two calls at once

A call that has changed a note tells the index what it has stored itself, and the note may have changed again since.  For two
calls that are both over the disagreement is exact (`agrees_iff_settles`): the index shows the note as it is stored, or does
not show it if it is deleted, if and only if a call that has the index to tell when the other is over tells it what is stored
then.  So the index agrees if the two calls never both have it to tell (`agrees_of_inTurn`).
-/
namespace NoteAgent

/-! ## Agreement on a note -/

namespace World

/-- The user's collection has the note under the uid with its content, once, or has nothing there if there is no note. -/
def Agrees (w : World) (user : Int) (uid : String) : Prop := w.shown user uid = (w.content? uid).toList

instance (w : World) (user : Int) (uid : String) : Decidable (w.Agrees user uid) :=
  inferInstanceAs (Decidable (_ = _))

/-- Where the index mirrors the store it agrees on each note of the user. -/
theorem Mirrors.agrees {w : World} {user : Int} (h : Mirrors user w) {uid : String} (ho : w.notes.Owns user uid) :
    w.Agrees user uid := by
  have hshown : w.shown user uid = ((w.notes.of user).filter (·.uid == uid)).map (·.content) := by
    rw [shown, h.documents, List.filter_map, List.map_map]
    rfl
  rw [Agrees, hshown, h.keyed.of_filter_uid ho, content?]
  cases w.notes.get? uid <;> rfl

end World

namespace Tool
namespace Pair

open EditCall (Stage)

/-! ## Calls that tell the index -/

/-- Both calls are made for the user and have the index. -/
def Indexing (qs : Bool → EditCall) (user : Int) : Prop := ∀ i, (qs i).caller.user = user ∧ (qs i).caller.indexed = true

/-- Two calls are made for one user and change one note, the index is given to both, and both are over in the end.  At the
start the index agrees on the note, or else one of the calls changes the note. -/
structure Edits (qs : Bool → EditCall) (w : World) (user : Int) (uid : String) (es : List Happening) : Prop where
  willing : w.Willing
  about : ∀ i, (qs i).uid = uid
  callers : Indexing qs user
  single : (w.shown user uid).length ≤ 1
  ended : ∀ i, (((machine qs w).run es).stages i).ended = true
  agrees : w.Agrees user uid ∨ ∃ i, ((machine qs w).run es).stages i = .finished

/-- Whether a call that has the index to tell will tell it what is stored, should the other be over. -/
def settles (content : Option String) (st other : Stage) : Bool :=
  match st with
  | .stored _ own => !other.ended || own == content
  | _ => true

/-- Whenever one call is over and the other has the index to tell, the other tells it what is stored. -/
def Settles (qs : Bool → EditCall) (w : World) (uid : String) (es : List Happening) : Prop :=
  ∀ pre ∈ es.inits, ∀ i j, i ≠ j →
    settles (((machine qs w).run pre).world.content? uid) (((machine qs w).run pre).stages i)
      (((machine qs w).run pre).stages j) = true

/-- The two calls never both have the index to tell. -/
def InTurn (qs : Bool → EditCall) (w : World) (es : List Happening) : Prop :=
  ∀ pre ∈ es.inits, ∀ i j, i ≠ j → (((machine qs w).run pre).stages i).pending = true →
    (((machine qs w).run pre).stages j).pending = false

instance (qs : Bool → EditCall) (w : World) (uid : String) (es : List Happening) : Decidable (Settles qs w uid es) :=
  inferInstanceAs (Decidable (∀ _ ∈ _, _))

variable {qs : Bool → EditCall} {w : World} {user : Int} {uid : String} {es : List Happening} {p p' : Pair}

theorem settles_intro (h : ∀ {pre post : List Happening} {i j : Bool} {u : String} {content : Option String},
    es = pre ++ post → i ≠ j → ((machine qs w).run pre).stages i = .stored u content →
      (((machine qs w).run pre).stages j).ended = true →
      ((machine qs w).run pre).world.content? uid = content) : Settles qs w uid es := by
  intro pre hpre i j hij
  obtain ⟨post, hes⟩ := (List.mem_inits _ _).1 hpre
  unfold settles
  split
  · rename_i u content hstored
    cases hended : (((machine qs w).run pre).stages j).ended with
    | false => rfl
    | true => simp [h hes.symm hij hstored hended]
  · rfl

theorem Settles.content (h : Settles qs w uid es) {pre post : List Happening} (hes : es = pre ++ post) {i j : Bool}
    (hij : i ≠ j) {u : String} {content : Option String} (hstored : ((machine qs w).run pre).stages i = .stored u content)
    (hended : (((machine qs w).run pre).stages j).ended = true) : ((machine qs w).run pre).world.content? uid = content := by
  have hsettles := h pre ((List.mem_inits _ _).2 ⟨post, hes.symm⟩) i j hij
  rw [hstored, settles, hended] at hsettles
  have hsame : content = ((machine qs w).run pre).world.content? uid := by simpa using hsettles
  exact hsame.symm

/-! ## What a happening keeps -/

theorem shown_told (hcallers : Indexing qs user) (hsingle : (p.world.shown user uid).length ≤ 1) {k : Bool}
    {content : Option String} (hshown : (qs k).caller.indexed = true →
      p'.world.shown (qs k).caller.user uid = told content (p.world.shown (qs k).caller.user uid)) :
    p'.world.shown user uid = content.toList := by
  obtain ⟨huser, hindexed⟩ := hcallers k
  rw [huser] at hshown
  rw [hshown hindexed, told_of_length_le_one hsingle]

theorem Turn.single (h : Turn qs uid p p') (hcallers : Indexing qs user) (hp : (p.world.shown user uid).length ≤ 1) :
    (p'.world.shown user uid).length ≤ 1 := by
  cases h with
  | passes _ hindex => rwa [World.shown, hindex]
  | stores _ _ _ _ _ _ hindex => rwa [World.shown, hindex]
  | tells k content _ _ _ _ hshown =>
    rw [shown_told hcallers hp hshown]
    cases content <;> simp

/-- A call that has the index to tell when the other has not tells what is stored; and when neither has, the index agrees,
if it did from the start or has been told since. -/
structure TellsStored (w : World) (user : Int) (uid : String) (p : Pair) : Prop where
  last : ∀ i j u content, i ≠ j → p.stages i = .stored u content → (p.stages j).pending = false →
    p.world.content? uid = content
  rest : (∀ i, (p.stages i).pending = false) → (w.Agrees user uid ∨ ∃ i, p.stages i = .finished) →
    p.world.Agrees user uid

theorem Turn.tellsStored (h : Turn qs uid p p') (hcallers : Indexing qs user)
    (hsingle : (p.world.shown user uid).length ≤ 1) (hp : TellsStored w user uid p)
    (hsettled : ∀ i j u content, i ≠ j → p'.stages i = .stored u content → (p'.stages j).ended = true →
      p'.world.content? uid = content) : TellsStored w user uid p' := by
  cases h with
  | passes hcontent hindex hstages =>
    have hstage : ∀ i, (p'.stages i).changed = true → p'.stages i = p.stages i := fun i hi =>
      (hstages i).eq ((hstages i).changed ▸ hi)
    refine ⟨fun i j u content hij hstored hj => ?_, fun hnone htold => ?_⟩
    · rw [hcontent]
      rw [(hstages j).pending] at hj
      exact hp.last i j u content hij ((hstage i (by rw [hstored]; rfl)).symm.trans hstored) hj
    · rw [World.Agrees, World.shown, hindex, hcontent]
      refine hp.rest (fun i => ?_) ?_
      · rw [← (hstages i).pending]
        exact hnone i
      · obtain hagrees | ⟨i, hi⟩ := htold
        · exact .inl hagrees
        · exact .inr ⟨i, (hstage i (by rw [hi]; rfl)).symm.trans hi⟩
  | stores k note hwas his hothers hcontent hindex =>
    have hk : (p'.stages k).pending = true := by rw [his]; rfl
    refine ⟨fun i j u content hij hstored hj => ?_, fun hnone _ => by rw [hnone k] at hk; cases hk⟩
    by_cases hik : i = k
    · rw [hik, his] at hstored
      cases hstored
      exact hcontent
    · rw [eq_of_ne_of_ne hij hik, hk] at hj
      cases hj
  | tells k content hwas his hothers hsame hshown =>
    refine ⟨fun i j u content' hij hstored hj => ?_, fun hnone _ => ?_⟩
    · have hik : i ≠ k := by
        rintro rfl
        cases hstored.symm.trans his
      -- the other call is over by this, so what is left to tell has to be what is stored
      refine hsettled i j u content' hij hstored ?_
      rw [eq_of_ne_of_ne hij hik, his]
      rfl
    · have hother : (p.stages (!k)).pending = false := by
        rw [← hothers (!k) (by simp)]
        exact hnone (!k)
      rw [World.Agrees, shown_told hcallers hsingle hshown, hsame, hp.last k (!k) uid content (by simp) hwas hother]

/-- What a call has the index to tell is what is stored. -/
def PendingStored (uid : String) (p : Pair) : Prop :=
  ∀ i u content, p.stages i = .stored u content → p.world.content? uid = content

theorem Turn.pendingStored (h : Turn qs uid p p') (hp : PendingStored uid p)
    (hturn : ∀ i j, i ≠ j → (p'.stages i).pending = true → (p'.stages j).pending = false) : PendingStored uid p' := by
  intro i u content hstored
  cases h with
  | passes hcontent _ hstages =>
    have hchanged : (p.stages i).changed = true := by
      rw [← (hstages i).changed, hstored]
      rfl
    rw [hcontent]
    exact hp i u content ((hstages i).eq hchanged ▸ hstored)
  | stores k note hwas his hothers hcontent =>
    by_cases hik : i = k
    · rw [hik, his] at hstored
      cases hstored
      exact hcontent
    · have hboth := hturn i k hik (by rw [hstored]; rfl)
      rw [his] at hboth
      cases hboth
  | tells k content' hwas his hothers hsame =>
    have hik : i ≠ k := by
      rintro rfl
      cases hstored.symm.trans his
    rw [hsame]
    exact hp i u content (hothers i hik ▸ hstored)

/-- From when a call has the content `own` to tell the index and the other is over: nothing more is stored, and in the end
this content is shown. -/
structure Closing (user : Int) (uid : String) (i : Bool) (content own : Option String) (p : Pair) : Prop where
  other : ∀ j, j ≠ i → (p.stages j).ended = true
  content : p.world.content? uid = content
  own : (∃ u, p.stages i = .stored u own) ∨ p.stages i = .finished ∧ p.world.shown user uid = own.toList

theorem Turn.closing (h : Turn qs uid p p') (hcallers : Indexing qs user)
    (hsingle : (p.world.shown user uid).length ≤ 1) {i : Bool} {content own : Option String}
    (hp : Closing user uid i content own p) : Closing user uid i content own p' := by
  have hchanged : (p.stages i).changed = true := by
    obtain ⟨u, hi⟩ | ⟨hi, -⟩ := hp.own <;> rw [hi] <;> rfl
  cases h with
  | passes hcontent hindex hstages =>
    refine ⟨fun j hj => ?_, hcontent.trans hp.content, ?_⟩
    · obtain hsame | ⟨-, ⟨answer, his⟩ | ⟨hcalled, -⟩⟩ := hstages j
      · rw [hsame]
        exact hp.other j hj
      · rw [his]
        rfl
      · have hended := hp.other j hj
        rw [hcalled] at hended
        cases hended
    · rw [(hstages i).eq hchanged, World.shown, hindex]
      exact hp.own
  | stores k note hwas =>
    by_cases hik : k = i
    · rw [hik] at hwas
      rw [hwas] at hchanged
      cases hchanged
    · have hended := hp.other k hik
      rw [hwas] at hended
      cases hended
  | tells k told hwas his hothers hsame hshown =>
    have hk : k = i := by
      by_contra hik
      have hended := hp.other k hik
      rw [hwas] at hended
      cases hended
    subst hk
    refine ⟨fun j hj => hothers j hj ▸ hp.other j hj, hsame.trans hp.content, .inr ⟨his, ?_⟩⟩
    rw [shown_told hcallers hsingle hshown]
    obtain ⟨u, hi⟩ | ⟨hi, -⟩ := hp.own
    · cases hwas.symm.trans hi
      rfl
    · cases hwas.symm.trans hi

/-! ## What a run comes to -/

namespace Edits

theorem turn (h : Edits qs w user uid es) (pre : List Happening) (e : Happening) :
    Turn qs uid ((machine qs w).run pre) ((machine qs w).run (pre ++ [e])) := turn_run h.willing h.about pre e

theorem shown_length (h : Edits qs w user uid es) (pre : List Happening) :
    (((machine qs w).run pre).world.shown user uid).length ≤ 1 := by
  induction pre using List.reverseRecOn with
  | nil => exact h.single
  | append_singleton pre e ih => exact (h.turn pre e).single h.callers ih

theorem agrees_of_settles (h : Edits qs w user uid es) (hsettles : Settles qs w uid es) :
    ((machine qs w).run es).world.Agrees user uid := by
  have hrun : ∀ pre post, es = pre ++ post → TellsStored w user uid ((machine qs w).run pre) := by
    refine beginnings_induction ?_ fun pre e post hes ih => ?_
    · refine ⟨fun i j u content _ hstored => (by cases hstored), fun _ hagrees => ?_⟩
      obtain hagrees | ⟨i, hi⟩ := hagrees
      · exact hagrees
      · cases hi
    · have hes' : es = (pre ++ [e]) ++ post := by rw [hes, List.append_assoc]; rfl
      exact (h.turn pre e).tellsStored h.callers (h.shown_length pre) ih fun i j u content hij hstored hended =>
        hsettles.content hes' hij hstored hended
  exact (hrun es [] (List.append_nil es).symm).rest (fun i => Stage.pending_of_ended (h.ended i)) h.agrees

theorem content_of_agrees (h : Edits qs w user uid es) (hagrees : ((machine qs w).run es).world.Agrees user uid)
    {pre post : List Happening} (hes : es = pre ++ post) {i j : Bool} (hij : i ≠ j) {u : String} {own : Option String}
    (hstored : ((machine qs w).run pre).stages i = .stored u own)
    (hended : (((machine qs w).run pre).stages j).ended = true) :
    ((machine qs w).run pre).world.content? uid = own := by
  have hrun : ∀ mid rest, post = mid ++ rest →
      Closing user uid i (((machine qs w).run pre).world.content? uid) own ((machine qs w).run (pre ++ mid)) := by
    refine beginnings_induction ?_ fun mid e rest hpost ih => ?_
    · rw [List.append_nil]
      exact ⟨fun k hk => eq_of_ne_of_ne hij hk.symm ▸ hended, rfl, .inl ⟨u, hstored⟩⟩
    · rw [← List.append_assoc]
      exact (h.turn (pre ++ mid) e).closing h.callers (h.shown_length (pre ++ mid)) ih
  obtain ⟨-, hcontent, hown⟩ := hrun post [] (List.append_nil post).symm
  rw [← hes] at hcontent hown
  obtain ⟨u', hi⟩ | ⟨-, hshown⟩ := hown
  · have hi' := h.ended i
    rw [hi] at hi'
    cases hi'
  · rw [World.Agrees, hshown, hcontent] at hagrees
    have hhead := congrArg List.head? hagrees
    rw [Option.head?_toList, Option.head?_toList] at hhead
    exact hhead.symm

/-- **Calls that tell the index in turn leave it in agreement**: the one that tells has stored last. -/
theorem agrees_of_inTurn (h : Edits qs w user uid es) (hturn : InTurn qs w es) :
    ((machine qs w).run es).world.Agrees user uid := by
  have hrun : ∀ pre post, es = pre ++ post → PendingStored uid ((machine qs w).run pre) := by
    refine beginnings_induction (fun i u content hstored => by cases hstored) fun pre e post hes ih => ?_
    have hes' : es = (pre ++ [e]) ++ post := by rw [hes, List.append_assoc]; rfl
    exact (h.turn pre e).pendingStored ih (hturn (pre ++ [e]) ((List.mem_inits _ _).2 ⟨post, hes'.symm⟩))
  exact h.agrees_of_settles (settles_intro fun hes _ hstored _ => hrun _ _ hes _ _ _ hstored)

end Edits

/-- **The index agrees with the store after two calls at once just if they settle it**: it disagrees only if the call that
tells the index last has something else to tell than what is stored, which the other has stored since. -/
theorem agrees_iff_settles (h : Edits qs w user uid es) :
    ((machine qs w).run es).world.Agrees user uid ↔ Settles qs w uid es :=
  ⟨fun hagrees => settles_intro fun hes hij hstored hended => h.content_of_agrees hagrees hes hij hstored hended,
    h.agrees_of_settles⟩

/-! ## A note that the index goes on showing, and one that it does not -/

def rewriteAndDelete : Bool → EditCall := calls (.rewrite "new") .delete

/-- The note is rewritten and then deleted in the store, and the index is told of it the other way round. -/
def crossed : List Happening := [.step false, .step true, .step false, .step true, .step true, .step false]

/-- The same, but that the index is told of each when it is done. -/
def uncrossed : List Happening := [.step false, .step true, .step false, .step false, .step true, .step true]

theorem edits_of_ended {es : List Happening}
    (h : ∀ i, (((machine rewriteAndDelete oneNote).run es).stages i).ended = true) :
    Edits rewriteAndDelete oneNote 1 noteUid es :=
  ⟨mirrors_oneNote.willing, calls_about _ _, fun _ => ⟨rfl, rfl⟩, by decide +kernel, h,
    .inl (mirrors_oneNote.agrees (by decide +kernel))⟩

/-- **The index can go on showing a deleted note**, when the call that rewrites it tells the index last. -/
theorem crossed_shows_deleted :
    Edits rewriteAndDelete oneNote 1 noteUid crossed ∧
      ((machine rewriteAndDelete oneNote).run crossed).world.content? noteUid = none ∧
      ((machine rewriteAndDelete oneNote).run crossed).world.shown 1 noteUid = ["new"] ∧
      ¬((machine rewriteAndDelete oneNote).run crossed).world.Agrees 1 noteUid :=
  ⟨edits_of_ended (by decide +kernel), by decide +kernel, by decide +kernel, by decide +kernel⟩

theorem agrees_iff_settles_uncrossed :
    Edits rewriteAndDelete oneNote 1 noteUid uncrossed ∧
      ((machine rewriteAndDelete oneNote).run uncrossed).world.Agrees 1 noteUid ∧
      ((machine rewriteAndDelete oneNote).run uncrossed).world.content? noteUid = none := by
  have h : Edits rewriteAndDelete oneNote 1 noteUid uncrossed := edits_of_ended (by decide +kernel)
  exact ⟨h, (agrees_iff_settles h).2 (by decide +kernel), by decide +kernel⟩

end Pair
end Tool
end NoteAgent
