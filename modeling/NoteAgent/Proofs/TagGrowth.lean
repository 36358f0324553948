import NoteAgent.Proofs.BulkIndexing
import NoteAgent.Proofs.NoteQuery
import NoteAgent.Proofs.TagRuns
import NoteAgent.Proofs.ToolAtomicity
/-!
# TagGrowth — what is appended to a note adds its tags after those there are

A blank line stands in no tag, so the tags of two texts with a blank line between them are those of the one and then those of
the other (`tags_join`), and the tags as they are stored beside a body have themselves for tags (`tags_joined`).  The two
tools that append to a note read it, store the longer content and then give the index its tags, so a row that they write has
the tags of the note as it was, and after them those of what was appended (`EditCall.Adds`).  However many such calls are
made, whatever breaks off: the tags that the index has of a note are only added to, at their end (`tags_only_added`).
-/
namespace NoteAgent
namespace Tag

/-! ## Tags of two texts -/

theorem tags_join (a b : String) : tags (Text.joinByBlankLine a b) = tags a ++ tags b := by
  have hbreak : isTagChar '\n' = false := by decide
  have htext : (Text.joinByBlankLine a b).toList = a.toList ++ '\n' :: ('\n' :: b.toList) := by
    simp [Text.joinByBlankLine]
  rw [tags, htext, scan_append_break hbreak, scan_skip (by decide), scan_skip (by decide), List.map_append]
  rfl

/-- Two texts with a blank between them, should neither be empty. -/
def spaced (x y : String) : String := if x.isEmpty then y else if y.isEmpty then x else x ++ " " ++ y

theorem intercalate_append {α : Type} (sep : List α) {x y : List α} (xs ys : List (List α)) :
    List.intercalate sep (x :: xs ++ y :: ys) =
      List.intercalate sep (x :: xs) ++ sep ++ List.intercalate sep (y :: ys) := by
  induction xs generalizing x with
  | nil => simp
  | cons x' xs ih =>
    rw [List.cons_append, List.cons_append, List.intercalate_cons_cons, List.intercalate_cons_cons,
      ← List.cons_append, ih]
    simp only [List.append_assoc]

/-! ## Tags of tags -/

theorem isTag_of_mem_close {tag run : List Char} (hrun : ∀ c ∈ run, isTagChar c = true) (h : tag ∈ close run) :
    IsTag (String.ofList tag) := by
  refine ⟨run.reverse, ?_, fun hnil => ?_, fun c hc => hrun c (List.mem_reverse.1 hc)⟩
  · rw [String.toList_ofList, mem_close h]
  · rw [close, List.reverse_eq_nil_iff.1 hnil] at h
    cases h

/-- **What is read as a tag is one.** -/
theorem isTag_of_mem_scan {tag : List Char} {run : Option (List Char)} {cs : List Char}
    (hrun : ∀ c ∈ run.getD [], isTagChar c = true) (h : tag ∈ scan run cs) : IsTag (String.ofList tag) := by
  induction cs generalizing run with
  | nil =>
    cases run with
    | none => cases h
    | some run => exact isTag_of_mem_close hrun h
  | cons c cs ih =>
    have hnone (h : tag ∈ scan none (c :: cs)) : IsTag (String.ofList tag) := by
      by_cases hc : c = '#'
      · rw [hc, scan_hash] at h
        exact ih (List.forall_mem_nil _) h
      · rw [scan_skip hc] at h
        exact ih (List.forall_mem_nil _) h
    cases run with
    | none => exact hnone h
    | some run =>
      cases hc : isTagChar c with
      | true =>
        rw [scan_more hc] at h
        have hmore : ∀ d ∈ (some (c :: run)).getD [], isTagChar d = true := List.forall_mem_cons.2 ⟨hc, hrun⟩
        exact ih hmore h
      | false =>
        rw [scan_close hc, List.mem_append] at h
        exact h.elim (isTag_of_mem_close hrun) hnone

theorem scan_tag {tag : List Char} (h : IsTag (String.ofList tag)) : scan none tag = [tag] := by
  obtain ⟨run, htag, hne, hrun⟩ := h
  rw [String.toList_ofList] at htag
  have htake : run.takeWhile isTagChar = run := List.takeWhile_eq_self_iff.2 hrun
  have hdrop : run.dropWhile isTagChar = [] := List.dropWhile_eq_nil_iff.2 hrun
  rw [htag, scan_hash, scan_some, htake, hdrop, List.append_nil, close]
  simp [hne, scan]

/-- Tags with blanks between them are read one by one. -/
theorem scan_intercalate : ∀ words : List (List Char), (∀ word ∈ words, IsTag (String.ofList word)) →
    scan none (List.intercalate [' '] words) = words
  | [], _ => rfl
  | [word], h => by rw [List.intercalate_singleton, scan_tag (h word List.mem_cons_self)]
  | word :: word' :: words, h => by
    rw [List.intercalate_cons_cons, List.append_assoc, List.singleton_append, scan_append_break not_isTagChar_blank,
      scan_skip (by decide), scan_tag (h word List.mem_cons_self),
      scan_intercalate (word' :: words) fun w hw => h w (List.mem_cons_of_mem _ hw), List.singleton_append]

/-- **The tags of a body, as they are stored beside it, have themselves for tags.** -/
theorem tags_joined (content : String) : tags (joined content) = tags content := by
  have hwords : ∀ word ∈ scan none content.toList, IsTag (String.ofList word) := fun word hword =>
    isTag_of_mem_scan (List.forall_mem_nil _) hword
  rw [tags, toList_joined, scan_intercalate _ hwords, tags]

theorem joined_isEmpty_iff (content : String) : (joined content).isEmpty = true ↔ tags content = [] := by
  constructor
  · intro h
    rw [← tags_joined, String.isEmpty_iff.1 h]
    rfl
  · intro h
    rw [joined, h]
    rfl

/-- The tags of two texts with a blank line between them, as they are stored beside a body. -/
theorem joined_join (a b : String) : joined (Text.joinByBlankLine a b) = spaced (joined a) (joined b) := by
  have hjoin : joined (Text.joinByBlankLine a b) = " ".intercalate (tags a ++ tags b) := by rw [joined, tags_join]
  unfold spaced
  split
  · rename_i ha
    rw [hjoin, (joined_isEmpty_iff a).1 ha, List.nil_append, joined]
  · rename_i ha
    split
    · rename_i hb
      rw [hjoin, (joined_isEmpty_iff b).1 hb, List.append_nil, joined]
    · rename_i hb
      rw [joined_isEmpty_iff] at ha hb
      rw [hjoin, joined, joined]
      obtain ⟨x, xs, hx⟩ := List.exists_cons_of_ne_nil ha
      obtain ⟨y, ys, hy⟩ := List.exists_cons_of_ne_nil hb
      rw [hx, hy, ← String.toList_inj]
      simp only [String.toList_intercalate, String.toList_append, List.map_append, List.map_cons, intercalate_append]

end Tag

/-! ## A call that appends -/

namespace Note
namespace Table

/-- Other notes than the one that is given new content are found as they were. -/
theorem get?_setContent_of_ne {t t' : Table} {uid content : String} {now : Int}
    (h : t.setContent uid content now = .ok t') {other : String} (hne : other ≠ uid) : t'.get? other = t.get? other := by
  obtain ⟨-, rfl⟩ := setContent_ok h
  have hp : (fun e : Entry => e.note.uid == other) ∘ Entry.revised uid content now = (·.note.uid == other) := by
    funext e
    simp
  rw [get?, List.find?_map, hp, get?]
  cases hfound : t.entries.find? (·.note.uid == other) with
  | none => rfl
  | some e =>
    have huid : e.note.uid = other := by simpa using List.find?_some hfound
    rw [Option.map_some, revised_of_ne fun h => hne (huid.symm.trans h)]

end Table
end Note

namespace World

open Attempt (Ends)

/-- A note is given new content, or nothing is done: the method breaks off, or is struck silent. -/
theorem replaceContent_cases (uid content : String) (w : World) :
    Ends (replaceContent uid content) w fun r w' => w'.noteFaults.strikes = w.noteFaults.strikes ∧ w'.index = w.index ∧
      (w'.notes = w.notes ∧ ((∃ e, r = .error e) ∨ ¬w.Outspoken) ∨
        w.notes.setContent uid content w.clock = .ok w'.notes) := by
  by_cases hw : w.Outspoken
  · refine (replaceContent_ends hw uid content).mono ?_
    rintro r w' ⟨hw', ⟨e, he, hnotes⟩ | ⟨-, hset⟩⟩
    · exact ⟨hw'.strikes, hw'.index, .inl ⟨hnotes, .inl ⟨e, he⟩⟩⟩
    · exact ⟨hw'.strikes, hw'.index, .inr hset⟩
  · unfold Ends replaceContent
    rw [noteMethod_run]
    split
    · exact ⟨rfl, rfl, .inl ⟨rfl, .inr hw⟩⟩
    · exact ⟨rfl, rfl, .inl ⟨rfl, .inr hw⟩⟩
    · rw [Attempt.map_run, Attempt.bind_run_ok (Attempt.look_run _ _), onNotes_run]
      split
      · rename_i t ht
        exact ⟨rfl, rfl, .inr ht⟩
      · exact ⟨rfl, rfl, .inl ⟨rfl, .inl ⟨_, rfl⟩⟩⟩

end World

namespace Tool

open Attempt (Ends)

/-- The row is that of a note with more text appended: its tags are those of the note as it was, and then those of the
text. -/
structure AppendedRow (note : Note) (text : String) (r : Vector.Row) : Prop where
  id : r.id = note.uid
  content : r.content = Text.joinByBlankLine note.content text
  tags : Tag.tags r.tags = Tag.tags note.content ++ Tag.tags text

/-- Nobody hears of a note: there is no index, or it breaks off. -/
def Caller.Unheard (c : Caller) (uid content : String) (i : Vector.Index) : Prop :=
  c.indexed = true → ∃ e, (Vector.Index.upsert c.user uid content (indexFields content) i).1 = .error e

/-- **What a call that appends a text can do**: fail without a trace, but for a use of the note store; or the note under its
uid is the caller's, and has the text appended (unless the store was struck silent).  Then the row of the note in the
caller's collection is replaced by one with more tags, or no row is changed, as after a failure and where nobody hears. -/
inductive EditCall.Adds (q : EditCall) (text : String) (w : World) (answer : String) (w' : World) : Prop
  | nothing (failed : answer ≠ q.edit.success) (notes : w'.notes = w.notes) (index : w'.index = w.index)
  | appended (note : Note) (found : w.notes.get? q.uid = some note) (own : note.owner = q.caller.user)
    (stored : w.notes.setContent q.uid (Text.joinByBlankLine note.content text) w.clock = .ok w'.notes ∨
      w'.notes = w.notes ∧ ¬w.Outspoken)
    (rows : w'.rowsOf q.caller.user = w.rowsOf q.caller.user ∧
        (answer = q.edit.success → q.caller.Unheard q.uid (Text.joinByBlankLine note.content text) w.index) ∨
      ∃ r, AppendedRow note text r ∧ w'.rowsOf q.caller.user = Vector.putRow r (w.rowsOf q.caller.user))

/-- Telling the index a note with more text appended. -/
theorem Caller.index_appends (c : Caller) (note : Note) (text : String) (w : World) :
    Ends (c.index note.uid (Text.joinByBlankLine note.content text)) w fun r w' => r = .ok () ∧
      w'.noteFaults.strikes = w.noteFaults.strikes ∧ w'.notes = w.notes ∧
      (w'.rowsOf c.user = w.rowsOf c.user ∧ c.Unheard note.uid (Text.joinByBlankLine note.content text) w.index ∨
        ∃ r, AppendedRow note text r ∧ w'.rowsOf c.user = Vector.putRow r (w.rowsOf c.user)) := by
  unfold Caller.index
  split
  · refine ⟨rfl, rfl, rfl, ?_⟩
    rcases Vector.Index.wrote_row c.user note.uid (Text.joinByBlankLine note.content text) w.index with
      ⟨v, -, -, hwrote | ⟨he, hrows⟩⟩ | ⟨he, hrows⟩
    · refine .inr ⟨_, ⟨rfl, rfl, ?_⟩, hwrote⟩
      rw [← Tag.tags_join, ← Tag.tags_joined (Text.joinByBlankLine _ _)]
      rfl
    · exact .inl ⟨hrows, fun _ => he⟩
    · exact .inl ⟨hrows, fun _ => he⟩
  · rename_i hc
    exact ⟨rfl, rfl, rfl, .inl ⟨rfl, fun h => absurd h hc⟩⟩

/-- Storing a note with more text appended, once it was looked up. -/
theorem EditCall.store_ends {q : EditCall} {text : String} (h : q.edit.added? = some text) {note : Note}
    (hid : note.uid = q.uid) {w w₁ : World} (hlooked : w.Looked w₁) :
    Ends (q.edit.store note) w₁ fun r w₂ => w₂.noteFaults.strikes = w.noteFaults.strikes ∧ w₂.index = w.index ∧
      (w.notes.setContent q.uid (Text.joinByBlankLine note.content text) w.clock = .ok w₂.notes ∨
        w₂.notes = w.notes ∧ ((∃ e, r = .error e) ∨ ¬w.Outspoken)) := by
  have hstore : q.edit.store note = World.replaceContent q.uid (Text.joinByBlankLine note.content text) := by
    rw [Edit.store, Edit.result?_of_added h, hid]
  rw [hstore]
  refine (World.replaceContent_cases _ _ w₁).mono ?_
  rintro r w₂ ⟨hstrikes, hindex, hnotes⟩
  rw [hlooked.notes, hlooked.clock] at hnotes
  refine ⟨hstrikes.trans hlooked.notesOnly.strikes, hindex.trans hlooked.notesOnly.index,
    hnotes.symm.imp_right fun h => ⟨h.1, h.2.imp_right fun hw hout => hw (hlooked.outspoken hout)⟩⟩

theorem EditCall.whole_adds {q : EditCall} {text : String} (h : q.edit.added? = some text) (w : World) :
    Ends q.whole w fun r w' => w'.noteFaults.strikes = w.noteFaults.strikes ∧ q.Adds text w (answered r) w' := by
  refine (q.caller.ownNote_claims q.uid w).bind ?_ ?_
  · rintro own w₁ ⟨hlooked, hclaim⟩
    obtain ⟨found, rfl, hfound⟩ := hclaim own rfl
    cases hown : q.caller.claim found with
    | error answer =>
      exact ⟨hlooked.notesOnly.strikes, .nothing (Stage.claim_ne_success hown q.edit) hlooked.notes hlooked.notesOnly.index⟩
    | ok note =>
      obtain ⟨rfl, howner⟩ := Caller.claim_ok hown
      have hget := hfound note rfl
      obtain ⟨-, -, -, huid⟩ := Note.Table.get?_some hget
      refine Ends.settle (store_ends h huid hlooked) ?_
      rintro r w₂ ⟨hstrikes, hindex, hstored⟩
      have hrows : w₂.rowsOf q.caller.user = w.rowsOf q.caller.user := by rw [World.rowsOf, hindex, World.rowsOf]
      cases r with
      | error e =>
        have hfailed : q.edit.failed ++ e.message ≠ q.edit.success := Stage.failed_ne_success _ _
        rcases hstored with hset | ⟨hsame, -⟩
        · exact ⟨hstrikes, .appended note hget howner (.inl hset) (.inl ⟨hrows, fun h => absurd h hfailed⟩)⟩
        · exact ⟨hstrikes, .nothing hfailed hsame hindex⟩
      | ok done =>
        have hstored' : w.notes.setContent q.uid (Text.joinByBlankLine note.content text) w.clock = .ok w₂.notes ∨
            w₂.notes = w.notes ∧ ¬w.Outspoken :=
          hstored.imp_right fun h => ⟨h.1, h.2.resolve_left fun ⟨e, he⟩ => by cases he⟩
        rw [Edit.result?_of_added h]
        refine (q.caller.index_appends note text w₂).bind ?_ ?_
        · rintro _ w₃ ⟨-, hstrikes', hnotes, hrows'⟩
          rw [← hnotes] at hstored'
          rw [hrows, huid, hindex] at hrows'
          exact ⟨hstrikes'.trans hstrikes, .appended note hget howner hstored'
            (hrows'.imp_left fun h => ⟨h.1, fun _ => h.2⟩)⟩
        · rintro e w₃ ⟨he, -⟩
          cases he
  · rintro e w₁ ⟨hlooked, -⟩
    exact ⟨hlooked.notesOnly.strikes, .nothing (Stage.error_ne_success _ _) hlooked.notes hlooked.notesOnly.index⟩

theorem EditCall.run_adds {c : Caller} {name raw : String} {q : EditCall} {text : String} (hq : of? c name raw = some q)
    (h : q.edit.added? = some text) (w : World) :
    ∃ answer, (run c name raw w).1 = .ok answer ∧ (run c name raw w).2.noteFaults.strikes = w.noteFaults.strikes ∧
      q.Adds text w answer (run c name raw w).2 := by
  rw [run_eq_whole hq]
  exact ⟨_, rfl, whole_adds h w⟩

/-- A tool that appends to a note. -/
def Appends (t : Tool) : Prop := t = .appendToNote ∨ t = .updateNoteTags

/-- A call of a tool that appends is one that appends a text, or does nothing. -/
theorem Appends.call {t : Tool} (ht : t.Appends) (c : Caller) (raw : String) :
    (∃ q text, EditCall.of? c t.name raw = some q ∧ q.caller = c ∧ q.edit.added? = some text) ∨
      ∀ w, (run c t.name raw w).2 = w := by
  have hform : ∃ form, t.form? = some form ∧ ∀ args, ∃ e text, Edit.of? args t = some e ∧ e.added? = some text := by
    rcases ht with rfl | rfl <;> exact ⟨_, rfl, fun args => ⟨_, _, rfl, rfl⟩⟩
  have hsearch : (t == .searchNotes) = false := by rcases ht with rfl | rfl <;> rfl
  have hnamed : named? t.name = some t := by rcases ht with rfl | rfl <;> decide
  obtain ⟨form, hform, hedit⟩ := hform
  cases hread : form.read raw with
  | some args =>
    obtain ⟨e, text, he, hadded⟩ := hedit args
    exact .inl ⟨⟨c, Tool.text args "uid", e⟩, text, by simp [EditCall.of?, hnamed, hform, hread, he], rfl, hadded⟩
  | none =>
    refine .inr fun w => ?_
    have hexecute : t.execute c raw = .done unreadable := by
      rw [execute, hsearch, Bool.false_and, if_neg (by decide), hform]
      simp only [hread]
    rw [run, hnamed, Option.map_some, hexecute]
    rfl

end Tool

/-! ## Many calls -/

namespace World

variable {user : Int} {uid : String} {w w' w'' : World}

/-- **From one world to a later one the tags of a note were only added to**, at their end: those of its content, and those
that a user's collection has under its uid, where each row is one that was there or has more tags than the content had. -/
structure TagsGrow (user : Int) (uid : String) (w w' : World) : Prop where
  strikes : w'.noteFaults.strikes = w.noteFaults.strikes
  absent : w.notes.get? uid = none → w'.notes.get? uid = none
  content : ∀ note, w.notes.get? uid = some note →
    ∃ note', w'.notes.get? uid = some note' ∧ Tag.tags note.content <+: Tag.tags note'.content
  kept : ∀ r ∈ w.rowsOf user, r.id = uid → r ∈ w'.rowsOf user ∨ ∃ note, w.notes.get? uid = some note ∧
    ∃ r' ∈ w'.rowsOf user, r'.id = uid ∧ Tag.tags note.content <+: Tag.tags r'.tags
  new : ∀ r' ∈ w'.rowsOf user, r'.id = uid → r' ∈ w.rowsOf user ∨
    ∃ note note', w.notes.get? uid = some note ∧ w'.notes.get? uid = some note' ∧
      Tag.tags note.content <+: Tag.tags r'.tags ∧ Tag.tags r'.tags <+: Tag.tags note'.content

namespace TagsGrow

theorem of_same (hstrikes : w'.noteFaults.strikes = w.noteFaults.strikes) (hnotes : w'.notes = w.notes)
    (hrows : w'.rowsOf user = w.rowsOf user) : TagsGrow user uid w w' where
  strikes := hstrikes
  absent h := hnotes ▸ h
  content note h := ⟨note, hnotes ▸ h, List.prefix_rfl⟩
  kept _ hr _ := .inl (hrows ▸ hr)
  new _ hr _ := .inl (hrows ▸ hr)

/-- A note that is there later was there before, and its tags were among those it has. -/
theorem earlier (h : TagsGrow user uid w w') {note' : Note} (hnote' : w'.notes.get? uid = some note') :
    ∃ note, w.notes.get? uid = some note ∧ Tag.tags note.content <+: Tag.tags note'.content := by
  cases hnote : w.notes.get? uid with
  | none => cases (h.absent hnote).symm.trans hnote'
  | some note =>
    obtain ⟨note'', hnote'', hgrows⟩ := h.content note hnote
    cases hnote'.symm.trans hnote''
    exact ⟨note, rfl, hgrows⟩

theorem trans (h : TagsGrow user uid w w') (h' : TagsGrow user uid w' w'') : TagsGrow user uid w w'' where
  strikes := h'.strikes.trans h.strikes
  absent hnone := h'.absent (h.absent hnone)
  content note hnote := by
    obtain ⟨note', hnote', hgrows⟩ := h.content note hnote
    obtain ⟨note'', hnote'', hgrows'⟩ := h'.content note' hnote'
    exact ⟨note'', hnote'', hgrows.trans hgrows'⟩
  kept r hr hid := by
    -- a row that is replaced has at least the tags that the content had before, whenever it was replaced
    rcases h.kept r hr hid with hr' | ⟨note, hnote, r', hr', hid', hmore⟩
    · refine (h'.kept r hr' hid).imp_right ?_
      rintro ⟨note', hnote', r'', hr'', hid'', hmore⟩
      obtain ⟨note, hnote, hgrows⟩ := h.earlier hnote'
      exact ⟨note, hnote, r'', hr'', hid'', hgrows.trans hmore⟩
    · refine .inr ⟨note, hnote, ?_⟩
      rcases h'.kept r' hr' hid' with hr'' | ⟨note', hnote', r'', hr'', hid'', hmore'⟩
      · exact ⟨r', hr'', hid', hmore⟩
      · obtain ⟨note₀, hnote₀, hgrows⟩ := h.earlier hnote'
        cases hnote.symm.trans hnote₀
        exact ⟨r'', hr'', hid'', hgrows.trans hmore'⟩
  new r hr hid := by
    rcases h'.new r hr hid with hr' | ⟨note', note'', hnote', hnote'', hmore, hless⟩
    · refine (h.new r hr' hid).imp_right ?_
      rintro ⟨note, note', hnote, hnote', hmore, hless⟩
      obtain ⟨note'', hnote'', hgrows⟩ := h'.content note' hnote'
      exact ⟨note, note'', hnote, hnote'', hmore, hless.trans hgrows⟩
    · obtain ⟨note, hnote, hgrows⟩ := h.earlier hnote'
      exact .inr ⟨note, note'', hnote, hnote'', hgrows.trans hmore, hless⟩

end TagsGrow

/-- The tags that a user's collection has under a uid are the first of those of the note, or all of them. -/
def Trails (user : Int) (uid : String) (w : World) : Prop :=
  ∀ r ∈ w.rowsOf user, r.id = uid → ∀ note, w.notes.get? uid = some note → Tag.tags r.tags <+: Tag.tags note.content

theorem Trails.grow (hw : w.Trails user uid) (h : TagsGrow user uid w w') : w'.Trails user uid := by
  intro r hr hid note' hnote'
  rcases h.new r hr hid with hr' | ⟨-, note'', -, hnote'', -, hless⟩
  · obtain ⟨note, hnote, hgrows⟩ := h.earlier hnote'
    exact (hw r hr' hid note hnote).trans hgrows
  · cases hnote'.symm.trans hnote''
    exact hless

end World

namespace Vector

variable {r x : Row}

theorem mem_putRow : ∀ {rs : List Row}, x ∈ putRow r rs → x = r ∨ x ∈ rs
  | [], h => .inl (List.mem_singleton.1 h)
  | r' :: rs, h => by
    rw [putRow] at h
    split at h
    · exact (List.mem_cons.1 h).imp_right (List.mem_cons_of_mem r')
    · rcases List.mem_cons.1 h with rfl | h
      · exact .inr List.mem_cons_self
      · exact (mem_putRow h).imp_right (List.mem_cons_of_mem r')

/-- A row that is put takes the place of one of its id at most. -/
theorem mem_putRow_of_mem {rs : List Row} (h : x ∈ rs) : x ∈ putRow r rs ∨ x.id = r.id := by
  by_cases hid : x.id = r.id
  · exact .inr hid
  · have hkept : x ∈ dropRows [r.id] (putRow r rs) := by
      rw [ChangedOnly.putRow r rs]
      exact List.mem_filter.2 ⟨h, by simpa using hid⟩
    exact .inl (List.mem_of_mem_filter hkept)

theorem mem_putRow_self (r : Row) : ∀ rs : List Row, r ∈ putRow r rs
  | [] => List.mem_singleton_self r
  | r' :: rs => by
    rw [putRow]
    split
    · exact List.mem_cons_self
    · exact List.mem_cons_of_mem r' (mem_putRow_self r rs)

end Vector

namespace Tool

open World (Spares TagsGrow Trails)

variable {w w' : World}

section
variable {user : Int} {uid text : String} {note : Note}

/-- The note that has more text appended, with its row replaced or none. -/
theorem AppendedRow.tagsGrow (hstrikes : w'.noteFaults.strikes = w.noteFaults.strikes) (hfound : w.notes.get? uid = some note)
    (hset : w.notes.setContent uid (Text.joinByBlankLine note.content text) w.clock = .ok w'.notes)
    (hrows : w'.rowsOf user = w.rowsOf user ∨
      ∃ r, AppendedRow note text r ∧ w'.rowsOf user = Vector.putRow r (w.rowsOf user)) : TagsGrow user uid w w' := by
  obtain ⟨n, hn, hstored⟩ := Note.Table.get?_setContent hset
  cases hfound.symm.trans hn
  obtain ⟨-, -, -, huid⟩ := Note.Table.get?_some hfound
  have hgrown : Tag.tags (Text.joinByBlankLine note.content text) = Tag.tags note.content ++ Tag.tags text :=
    Tag.tags_join _ _
  refine ⟨hstrikes, fun hnone => (by cases hnone.symm.trans hfound), fun n hn => ?_, fun r hr hid => ?_,
    fun r hr hid => ?_⟩
  · cases hfound.symm.trans hn
    exact ⟨_, hstored, hgrown ▸ List.prefix_append _ _⟩
  · rcases hrows with hsame | ⟨row, hrow, hput⟩
    · exact .inl (hsame ▸ hr)
    · refine .inr ⟨note, hfound, row, hput ▸ Vector.mem_putRow_self row _, hrow.id.trans huid, ?_⟩
      rw [hrow.tags]
      exact List.prefix_append _ _
  · rcases hrows with hsame | ⟨row, hrow, hput⟩
    · exact .inl (hsame ▸ hr)
    · rw [hput] at hr
      refine (Vector.mem_putRow hr).symm.imp_right ?_
      rintro rfl
      refine ⟨note, _, hfound, hstored, ?_, ?_⟩
      · rw [hrow.tags]
        exact List.prefix_append _ _
      · simp only [hrow.tags, hgrown, List.prefix_rfl]

/-- Another note than the one that has more text appended. -/
theorem AppendedRow.tagsGrow_of_ne {other : String} (hne : uid ≠ other)
    (hstrikes : w'.noteFaults.strikes = w.noteFaults.strikes) (hfound : w.notes.get? other = some note)
    (hset : w.notes.setContent other (Text.joinByBlankLine note.content text) w.clock = .ok w'.notes)
    (hrows : w'.rowsOf user = w.rowsOf user ∨
      ∃ r, AppendedRow note text r ∧ w'.rowsOf user = Vector.putRow r (w.rowsOf user)) : TagsGrow user uid w w' := by
  have hsame : w'.notes.get? uid = w.notes.get? uid := Note.Table.get?_setContent_of_ne hset hne
  obtain ⟨-, -, -, huid⟩ := Note.Table.get?_some hfound
  have hrows' : ∀ r, r.id = uid → (r ∈ w'.rowsOf user ↔ r ∈ w.rowsOf user) := by
    intro r hid
    rcases hrows with hsame | ⟨row, hrow, hput⟩
    · rw [hsame]
    · have hother : row.id ≠ r.id := fun h => hne (hid.symm.trans (h.symm.trans (hrow.id.trans huid)))
      rw [hput]
      refine ⟨fun hr => (Vector.mem_putRow hr).resolve_left fun h => hother (h ▸ rfl), fun hr => ?_⟩
      exact (Vector.mem_putRow_of_mem hr).resolve_right (Ne.symm hother)
  exact ⟨hstrikes, fun hnone => hsame.trans hnone, fun n hn => ⟨n, hsame.trans hn, List.prefix_rfl⟩,
    fun r hr hid => .inl ((hrows' r hid).2 hr), fun r hr hid => .inl ((hrows' r hid).1 hr)⟩

end

/-- **A call that appends only adds to tags**, wherever a store or the index breaks off. -/
theorem EditCall.Adds.tagsGrow {q : EditCall} {text answer : String} (h : q.Adds text w answer w') (hw : w.Outspoken)
    (hstrikes : w'.noteFaults.strikes = w.noteFaults.strikes) (hspares : Spares q.caller.user w w') (user : Int)
    (uid : String) : TagsGrow user uid w w' := by
  cases h with
  | nothing _ hnotes hindex => exact .of_same hstrikes hnotes (by rw [World.rowsOf, hindex, World.rowsOf])
  | appended note hfound hown hstored hrows =>
    obtain hset : w.notes.setContent q.uid _ w.clock = .ok w'.notes := hstored.resolve_right fun h => h.2 hw
    have hrows' : w'.rowsOf user = w.rowsOf user ∨ ∃ r, AppendedRow note text r ∧
        w'.rowsOf user = Vector.putRow r (w.rowsOf user) := by
      by_cases huser : user = q.caller.user
      · rw [huser]
        exact hrows.imp_left And.left
      · have hname : Vector.collectionOf user ≠ Vector.collectionOf q.caller.user := fun he =>
          huser (Vector.collectionOf_injective he)
        refine .inl ?_
        rw [World.rowsOf, Vector.Service.rows, hspares.collections _ hname]
        rfl
    by_cases hq : uid = q.uid
    · subst hq
      exact AppendedRow.tagsGrow hstrikes hfound hset hrows'
    · exact AppendedRow.tagsGrow_of_ne hq hstrikes hfound hset hrows'

/-- **However many calls append to notes, their tags only grow.** -/
theorem tagsGrow_afterAllCalls (hw : w.Outspoken) {ks : List (Int × Call)}
    (hks : ∀ k ∈ ks, ∃ t : Tool, t.Appends ∧ k.2.name = t.name) (user : Int) (uid : String) :
    TagsGrow user uid w (afterAllCalls w ks) := by
  induction ks generalizing w with
  | nil => exact .of_same rfl rfl rfl
  | cons k ks ih =>
    obtain ⟨t, ht, hname⟩ := hks k List.mem_cons_self
    let w₁ : World := { w with clock := k.2.clock, nextId := k.2.nextId }
    have hcalled : TagsGrow user uid w₁ (run (k.2.caller k.1) t.name k.2.raw w₁).2 := by
      rcases ht.call (k.2.caller k.1) k.2.raw with ⟨q, text, hq, hcaller, hadded⟩ | hnothing
      · obtain ⟨_, -, hstrikes, hadds⟩ := EditCall.run_adds hq hadded w₁
        refine hadds.tagsGrow hw hstrikes ?_ user uid
        rw [hcaller]
        exact keeps_run _ _ _ w₁
      · rw [hnothing]
        exact .of_same rfl rfl rfl
    have hstep : TagsGrow user uid w (k.2.after k.1 w) := by
      have hset : TagsGrow user uid w w₁ := .of_same rfl rfl rfl
      rw [Call.after, hname]
      exact hset.trans hcalled
    exact hstep.trans (ih (fun n m => hstep.strikes ▸ hw n m) fun k' hk' => hks k' (List.mem_cons_of_mem k hk'))

/-- **Tags are only added to, after those there are, and none is left out that is there already.**  The tags of two texts
with a blank line between them are those of the one and then those of the other, and the tags as they are stored beside a
body have themselves for tags.  So a call that appends writes a row with the tags of the note as it was and then those of the
text, or no row.  However many such calls are made, by anybody and whatever breaks off, the tags of a note only grow; and
where a collection has of it no other tags than the first of its content's, this stays so, each row of the note stays or
gives way to one with more tags after the same, and each row that is new has the tags of every row before it, and more after
them. -/
theorem tags_only_added :
    (∀ a b, Tag.tags (Text.joinByBlankLine a b) = Tag.tags a ++ Tag.tags b ∧
      Tag.joined (Text.joinByBlankLine a b) = Tag.spaced (Tag.joined a) (Tag.joined b)) ∧
    (∀ a, Tag.joined (Tag.joined a) = Tag.joined a) ∧
    (∀ (c : Caller) (name raw : String) (q : EditCall) (text : String), EditCall.of? c name raw = some q →
      q.edit.added? = some text → ∀ w, ∃ answer, (run c name raw w).1 = .ok answer ∧
        q.Adds text w answer (run c name raw w).2) ∧
    ∀ (w : World) (ks : List (Int × Call)), w.Outspoken → (∀ k ∈ ks, ∃ t : Tool, t.Appends ∧ k.2.name = t.name) →
      ∀ user uid, let w' := afterAllCalls w ks
        TagsGrow user uid w w' ∧ (w.Trails user uid → w'.Trails user uid ∧
          (∀ r ∈ w.rowsOf user, r.id = uid →
            ∃ r' ∈ w'.rowsOf user, r'.id = uid ∧ Tag.tags r.tags <+: Tag.tags r'.tags) ∧
          ∀ r' ∈ w'.rowsOf user, r'.id = uid → r' ∈ w.rowsOf user ∨
            ∀ r ∈ w.rowsOf user, r.id = uid → Tag.tags r.tags <+: Tag.tags r'.tags) := by
  refine ⟨fun a b => ⟨Tag.tags_join a b, Tag.joined_join a b⟩, fun a => ?_,
    fun c name raw q text hq hadded w => ?_, fun w ks hw hks user uid => ?_⟩
  · rw [Tag.joined, Tag.tags_joined, Tag.joined]
  · obtain ⟨answer, hrun, -, hadds⟩ := EditCall.run_adds hq hadded w
    exact ⟨answer, hrun, hadds⟩
  · have hgrow := tagsGrow_afterAllCalls hw hks user uid
    refine ⟨hgrow, fun htrails => ⟨htrails.grow hgrow, fun r hr hid => ?_, fun r' hr' hid' => ?_⟩⟩
    · rcases hgrow.kept r hr hid with hkept | ⟨note, hnote, r', hr', hid', hmore⟩
      · exact ⟨r, hkept, hid, List.prefix_rfl⟩
      · exact ⟨r', hr', hid', (htrails r hr hid note hnote).trans hmore⟩
    · refine (hgrow.new r' hr' hid').imp_right ?_
      rintro ⟨note, -, hnote, -, hmore, -⟩ r hr hid
      exact (htrails r hr hid note hnote).trans hmore

/-- A note with one tag, which is in its user's collection, and a vector service that refuses its fourth call. -/
def oneTag : World :=
  { World.fresh 5 (.fresh ⟨[("user_1_notes", [⟨"a", "x #a", [("tags", "#a")], .text ""⟩])], [],
      fun n _ => if n = 3 then some (.refused "busy") else none, fun _ => none, fun _ _ => none⟩
      ⟨fun _ _ => .ok [[]], 0⟩ 0) (.fresh (.always "") (.always "") (.always "")) with
    notes := ⟨[⟨1, "a", 1, "x #a", Note.normal, 0, 0⟩]⟩ }

def taggingAgain : String := "\x7b\"uid\": \"a\", \"new_tags\": [\"#b\", \"#a\"]\x7d"

/-- The tags of a note are given twice, and in between a text is appended of which the index does not hear. -/
def taggedTwice : List (Int × Call) :=
  [(1, ⟨5, 1, true, "", "update_note_tags", taggingAgain⟩), (1, ⟨6, 1, true, "", "append_to_note", appending⟩),
    (1, ⟨7, 1, true, "", "update_note_tags", taggingAgain⟩)]

theorem tags_only_added_taggedTwice :
    (∃ q, EditCall.of? firstUser "update_note_tags" taggingAgain = some q ∧ q.edit = .addTags ["#b", "#a"] ∧
      ∃ answer, q.Adds "#b #a" oneTag answer (run firstUser "update_note_tags" taggingAgain oneTag).2) ∧
    oneTag.Outspoken ∧ (∀ k ∈ taggedTwice, ∃ t : Tool, t.Appends ∧ k.2.name = t.name) ∧ oneTag.Trails 1 "a" ∧
    (afterAllCalls oneTag taggedTwice).Trails 1 "a" ∧
    ((afterAllCalls oneTag taggedTwice).rowsOf 1).map (·.tags) = ["#a #b #a #b #a"] := by
  obtain ⟨-, -, hadds, hgrow⟩ := tags_only_added
  have hcall : (EditCall.of? firstUser "update_note_tags" taggingAgain).map (·.edit) = some (.addTags ["#b", "#a"]) := by
    decide +kernel
  obtain ⟨q, hq, hedit⟩ := Option.map_eq_some_iff.1 hcall
  have hadded : q.edit.added? = some "#b #a" := by
    rw [hedit]
    decide
  have hw : oneTag.Outspoken := fun _ _ h => by cases h
  have hcalls : ∀ k ∈ taggedTwice, ∃ t : Tool, t.Appends ∧ k.2.name = t.name := by
    intro k hk
    simp only [taggedTwice, List.mem_cons, List.not_mem_nil, or_false] at hk
    obtain rfl | rfl | rfl := hk
    · exact ⟨.updateNoteTags, .inr rfl, rfl⟩
    · exact ⟨.appendToNote, .inl rfl, rfl⟩
    · exact ⟨.updateNoteTags, .inr rfl, rfl⟩
  have htrails : oneTag.Trails 1 "a" := by
    intro r hr _ note hnote
    have hrow : r.tags ∈ (oneTag.rowsOf 1).map (·.tags) := List.mem_map_of_mem hr
    have hrows : (oneTag.rowsOf 1).map (·.tags) = ["#a"] := by decide +kernel
    rw [hrows, List.mem_singleton] at hrow
    rw [hrow]
    cases hnote
    decide +kernel
  obtain ⟨answer, -, hadds'⟩ := hadds _ _ _ _ _ hq hadded oneTag
  exact ⟨⟨q, hq, hedit, answer, hadds'⟩, hw, hcalls, htrails, ((hgrow oneTag taggedTwice hw hcalls 1 "a").2 htrails).1,
    by decide +kernel⟩

end Tool
end NoteAgent
