import NoteAgent.Proofs.NoteWrites
import NoteAgent.Tool.Edit
/-!
# EditSteps — what the steps of a tool that changes a note come to

What a step can come to is said once (`Moves`), for a store and an index that do not fail; nothing else here looks into the
steps.  Taken without a break they are the tool (`alone_run`).
-/
namespace NoteAgent

/-! ## What the store and the index have of one note -/

namespace World

/-- The content of a note in the store. -/
def content? (w : World) (uid : String) : Option String := (w.notes.get? uid).map (·.content)

/-- The contents of the documents that a user's collection has under a uid. -/
def shown (w : World) (user : Int) (uid : String) : List String :=
  ((w.index.documents user).filter (·.id == uid)).map (·.content)

end World

namespace Tool

open Attempt (Ends)
open World (Alike)

/-- What is shown of a note once the index has been told its content, or that it is deleted. -/
def told : Option String → List String → List String
  | some content, shown => content :: shown.tail
  | none, _ => []

theorem told_of_length_le_one {shown : List String} (h : shown.length ≤ 1) (content : Option String) :
    told content shown = content.toList := by
  cases content with
  | none => rfl
  | some content =>
    match shown, h with
    | [], _ => rfl
    | [_], _ => rfl

namespace Caller

variable {c : Caller} {w : World}

theorem tell_ends (hc : c.indexed = true) (hw : w.Willing) (uid : String) (content : Option String) :
    Ends (c.tell uid content) w fun r w' => r = .ok () ∧ Alike w w' ∧ w'.notes = w.notes ∧
      w'.shown c.user uid = told content (w.shown c.user uid) := by
  cases content with
  | some content =>
    refine (index_ends hc hw uid content).mono fun r w' h => ⟨h.1, h.2.1, h.2.2.1, ?_⟩
    rw [World.shown, h.2.2.2, World.shown, Vector.filter_putDocument ⟨uid, content, indexFields content⟩, List.map_cons,
      List.map_tail]
    rfl
  | none =>
    refine (forget_ends hc hw uid).mono fun r w' h => ⟨h.1, h.2.1, h.2.2.1, ?_⟩
    rw [World.shown, h.2.2.2, List.filter_filter]
    have hno : (fun d : Vector.Document => d.id == uid && d.id != uid) = fun _ => false := by
      funext d
      simp
    rw [hno, List.filter_false]
    rfl

end Caller

/-! ## Calls -/

namespace Edit

theorem result?_of_added {e : Edit} {text : String} (h : e.added? = some text) (old : String) :
    e.result? old = some (Text.joinByBlankLine old text) := by
  cases e <;> cases h <;> rfl

end Edit

namespace EditCall
namespace Stage

theorem pending_of_unchanged {st : Stage} (h : st.changed = false) : st.pending = false := by
  cases st <;> first | rfl | cases h

theorem pending_of_ended {st : Stage} (h : st.ended = true) : st.pending = false := by
  cases st <;> first | rfl | cases h

/-- What a step can come to where nothing fails. -/
inductive Moves (q : EditCall) (w w' : World) : Stage → Stage → Prop
  | reads {note : Note} (notes : w'.notes = w.notes) (index : w'.index = w.index)
    (found : w.notes.get? q.uid = some note) (own : note.owner = q.caller.user) : Moves q w w' .called (.holding note)
  | stores {note : Note} (index : w'.index = w.index) (content : w'.content? note.uid = q.edit.result? note.content) :
    Moves q w w' (.holding note) (.stored note.uid (q.edit.result? note.content))
  | tells {uid : String} {content : Option String} (notes : w'.notes = w.notes) (shown : q.caller.indexed = true →
      w'.shown q.caller.user uid = told content (w.shown q.caller.user uid)) :
    Moves q w w' (.stored uid content) .finished
  | refuses {st : Stage} {answer : String} (notes : w'.notes = w.notes) (index : w'.index = w.index)
    (early : st.changed = false) (unlike : answer ≠ q.edit.success) : Moves q w w' st (.refused answer)
  | rests {st : Stage} (notes : w'.notes = w.notes) (index : w'.index = w.index) (ended : st.ended = true) :
    Moves q w w' st st

/-! ### What each step comes to -/

theorem ne_success {e : Edit} {answer : String} (h : answer.toList.head? = some 'E') : answer ≠ e.success := by
  rintro rfl
  cases e <;> simp [Edit.success] at h

theorem failed_ne_success (e : Edit) (text : String) : e.failed ++ text ≠ e.success := by
  refine ne_success ?_
  cases e <;> simp [Edit.failed]

theorem error_ne_success (e : Edit) (text : String) : "Error: " ++ text ≠ e.success := by
  refine ne_success ?_
  simp

theorem claim_ne_success {c : Caller} {found : Option Note} {answer : String} (h : c.claim found = .error answer)
    (e : Edit) : answer ≠ e.success := by
  refine ne_success ?_
  cases found with
  | none =>
    cases h
    rfl
  | some note =>
    rw [Caller.claim] at h
    split at h <;> cases h
    rfl

theorem store_ends {w : World} (hw : w.Willing) (e : Edit) (note : Note) :
    Ends (e.store note) w fun r w' => World.NotesOnly w w' ∧
      ((∃ f, r = .error f ∧ w'.notes = w.notes) ∨ r = .ok (some ()) ∧ w'.content? note.uid = e.result? note.content) := by
  unfold Edit.store
  split
  · rename_i content hcontent
    refine (World.replaceContent_ends hw.outspoken note.uid content).mono ?_
    rintro r w' ⟨hw', hfailed | ⟨rfl, hset⟩⟩
    · exact ⟨hw', .inl hfailed⟩
    · obtain ⟨n, -, hn⟩ := Note.Table.get?_setContent hset
      exact ⟨hw', .inr ⟨rfl, by rw [World.content?, hn, hcontent]; rfl⟩⟩
  · rename_i hnone
    refine (World.removeNote_ends hw.outspoken note.uid).mono ?_
    rintro r w' ⟨hw', hfailed | ⟨rfl, herase⟩⟩
    · exact ⟨hw', .inl hfailed⟩
    · exact ⟨hw', .inr ⟨rfl, by rw [World.content?, herase, Note.Table.get?_erase, hnone]; rfl⟩⟩

theorem next_ends {w : World} (hw : w.Willing) (q : EditCall) : ∀ st : Stage,
    Ends (st.next q) w fun r w' => Alike w w' ∧ Moves q w w' st (reached r)
  | .called => by
    refine (q.caller.ownNote_claims q.uid w).bind ?_ ?_
    · rintro own w' ⟨hlooked, hclaim⟩
      obtain ⟨found, rfl, hfound⟩ := hclaim own rfl
      have hindex := hlooked.notesOnly.index
      cases hown : q.caller.claim found with
      | error answer =>
        exact ⟨hlooked.notesOnly.alike, .refuses hlooked.notes hindex rfl (claim_ne_success hown q.edit)⟩
      | ok note =>
        obtain ⟨rfl, howner⟩ := Caller.claim_ok hown
        exact ⟨hlooked.notesOnly.alike, .reads hlooked.notes hindex (hfound note rfl) howner⟩
    · rintro e w' ⟨hlooked, -⟩
      exact ⟨hlooked.notesOnly.alike, .refuses hlooked.notes hlooked.notesOnly.index rfl (error_ne_success _ _)⟩
  | .holding note => by
    refine Ends.settle (store_ends hw q.edit note) ?_
    rintro r w' ⟨hw', ⟨f, rfl, hnotes⟩ | ⟨rfl, hcontent⟩⟩
    · exact ⟨hw'.alike, .refuses hnotes hw'.index rfl (failed_ne_success _ _)⟩
    · exact ⟨hw'.alike, .stores hw'.index hcontent⟩
  | .stored uid content => by
    cases hc : q.caller.indexed with
    | true =>
      refine (Caller.tell_ends hc hw uid content).bind ?_ ?_
      · rintro done w' ⟨-, halike, hnotes, hshown⟩
        exact ⟨halike, .tells hnotes fun _ => hshown⟩
      · rintro e w' ⟨he, -⟩
        cases he
    | false =>
      have hsame : q.caller.tell uid content = .done () := by
        cases content <;> simp [Caller.tell, Caller.index, Caller.forget, hc]
      have hrun : q.caller.tell uid content w = (.ok (), w) := by rw [hsame, Attempt.done_run]
      refine Ends.next hrun ⟨.refl w, .tells rfl fun h => ?_⟩
      rw [hc] at h
      cases h
  | .finished => ⟨.refl w, .rests rfl rfl rfl⟩
  | .refused answer => ⟨.refl w, .rests rfl rfl rfl⟩

/-- **What a step of a call comes to** where nothing fails. -/
theorem advance_moves {w : World} (hw : w.Willing) (q : EditCall) (st : Stage) :
    Moves q w (st.advance q w).2 st (st.advance q w).1 := (next_ends hw q st).2

theorem advance_alike {w : World} (hw : w.Willing) (q : EditCall) (st : Stage) : Alike w (st.advance q w).2 :=
  (next_ends hw q st).1

end Stage

/-! ## Without a break -/

def whole (q : EditCall) : Attempt World String := do
  match ← q.caller.ownNote q.uid with
  | .error answer => return answer
  | .ok note =>
    match ← (q.edit.store note).settle with
    | .error e => return q.edit.failed ++ e.message
    | .ok _ =>
      q.caller.tell note.uid (q.edit.result? note.content)
      return q.edit.success

theorem perform_eq_whole {t : Tool} {args : Arguments} {e : Edit} (h : Edit.of? args t = some e) (c : Caller) :
    t.perform c args = whole ⟨c, text args "uid", e⟩ := by
  cases t <;> cases h <;> rfl

/-- What is told to the model of a call that broke off or did not. -/
def answered : Except Failure String → String
  | .ok answer => answer
  | .error e => "Error: " ++ e.message

theorem run_eq_whole {c : Caller} {name raw : String} {q : EditCall} (h : of? c name raw = some q) (w : World) :
    run c name raw w = (.ok (answered (q.whole w).1), (q.whole w).2) := by
  simp only [of?, Option.bind_eq_bind, Option.bind_eq_some_iff, Option.pure_def] at h
  obtain ⟨t, ht, form, hform, args, hread, e, he, hq⟩ := h
  cases hq
  have hsearch : (t == .searchNotes) = false := by cases t <;> first | rfl | cases he
  have hexecute : t.execute c raw = whole ⟨c, text args "uid", e⟩ := by
    rw [execute, hsearch, Bool.false_and, if_neg (by decide), hform, ← perform_eq_whole he c]
    simp only [hread]
  rw [run, ht, Option.map_some, answerTo, Attempt.settle_bind_run, hexecute]
  cases (whole ⟨c, text args "uid", e⟩ w).1 <;> rfl

variable {q : EditCall} {w w' : World}

theorem step_ok (st : Stage) {st' : Stage} (h : st.next q w = (.ok st', w')) : q.step (st, w) = (st', w') := by
  rw [step, Stage.advance, h]
  rfl

theorem step_error (st : Stage) {e : Failure} (h : st.next q w = (.error e, w')) :
    q.step (st, w) = (.refused ("Error: " ++ e.message), w') := by
  rw [step, Stage.advance, h]
  rfl

theorem alone_whole (q : EditCall) (w : World) :
    (q.alone w).1.answer? q.edit = some (answered (q.whole w).1) ∧ (q.alone w).2 = (q.whole w).2 := by
  rw [alone, whole]
  rcases hown : q.caller.ownNote q.uid w with ⟨_ | own, w₁⟩
  · rw [step_error .called (Attempt.bind_run_error hown), Attempt.bind_run_error hown]
    exact ⟨rfl, rfl⟩
  have hread : Stage.next q .called w = _ := Attempt.bind_run_ok hown
  rw [Attempt.bind_run_ok hown]
  cases own with
  | error answer =>
    rw [step_ok _ hread]
    exact ⟨rfl, rfl⟩
  | ok note =>
    rw [step_ok _ hread]
    rcases hstore : q.edit.store note w₁ with ⟨e | done, w₂⟩
    · have hsettled : (q.edit.store note).settle w₁ = (.ok (.error e), w₂) := by rw [Attempt.settle_run, hstore]
      rw [step_ok (.holding note) (Attempt.bind_run_ok hsettled)]
      simp only [Attempt.bind_run_ok hsettled]
      exact ⟨rfl, rfl⟩
    · have hsettled : (q.edit.store note).settle w₁ = (.ok (.ok done), w₂) := by rw [Attempt.settle_run, hstore]
      rw [step_ok (.holding note) (Attempt.bind_run_ok hsettled)]
      simp only [Attempt.bind_run_ok hsettled]
      rcases htell : q.caller.tell note.uid (q.edit.result? note.content) w₂ with ⟨_ | _, w₃⟩
      · rw [step_error (.stored _ _) (Attempt.bind_run_error htell), Attempt.bind_run_error htell]
        exact ⟨rfl, rfl⟩
      · rw [step_ok (.stored _ _) (Attempt.bind_run_ok htell), Attempt.bind_run_ok htell]
        exact ⟨rfl, rfl⟩

/-- **The steps without a break are the tool**: the same answer and the same world, for any faults. -/
theorem alone_run {c : Caller} {name raw : String} (h : of? c name raw = some q) (w : World) :
    ∃ answer, (q.alone w).1.answer? q.edit = some answer ∧ run c name raw w = (.ok answer, (q.alone w).2) := by
  obtain ⟨hanswer, hworld⟩ := alone_whole q w
  exact ⟨_, hanswer, by rw [run_eq_whole h, hworld]⟩

end EditCall
end Tool
end NoteAgent
