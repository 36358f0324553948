import NoteAgent.Proofs.DayTexts
import NoteAgent.Proofs.NoteHistory
/-!
# NoteQuery — what a query of the notes finds and answers

A query asks for a text, a first day and a last day.  A text that is no day bounds nothing, and the last day counts to its
end (`Finds`, `queryFilter_ok`).  The answer tells the first five notes of the listing and how many more there are (`Tells`).
Two questions are told a failure: one that asks for the last day there is, since no moment comes after it, and one for an owner
whose number fits no column (`query_answered`).  The moments of the notes can be printed as long as those of the clock could,
whatever tools were run (`afterAllCalls_dated`).  A note is found by the date that is printed for it (`printed_date_finds`).
-/
namespace NoteAgent

open Attempt (Ends Keeps)
open Calendar (Date Stamp Printable readDay lastDay)

namespace Tool

open Caller (queryFilter)

/-! ## What is asked for -/

/-- **The notes that a query asks for**: those that hold the text, created at the beginning of the first day or later and at
the end of the last day or earlier.  Every note holds the empty text, and what is no day bounds nothing. -/
structure Finds (args : Arguments) (n : Note) : Prop where
  holds : (text args "text_search").toList <:+: n.content.toList
  since : ∀ day, readDay (text args "date_start") = some day → day * 86400 ≤ n.created
  upTo : ∀ day, readDay (text args "date_end") = some day → n.created ≤ (day + 1) * 86400

section
variable {args : Arguments}

theorem queryFilter_tooLate (h : readDay (text args "date_end") = some lastDay) :
    queryFilter args = .error .dayTooLate := by
  unfold queryFilter
  rw [h]
  rfl

theorem queryFilter_eq (h : readDay (text args "date_end") ≠ some lastDay) : queryFilter args = .ok {
    contains := if (text args "text_search").isEmpty then none else some (text args "text_search")
    createdFrom := (readDay (text args "date_start")).map (· * 86400)
    createdTo := (readDay (text args "date_end")).map fun day => (day + 1) * 86400 } := by
  unfold queryFilter
  cases hend : readDay (text args "date_end") with
  | none => rfl
  | some day =>
    have hle := (Calendar.readDay_range hend).2
    have hne : day ≠ lastDay := fun heq => h (by rw [hend, heq])
    simp only [if_pos (show day < lastDay by omega)]
    rfl

/-- The empty text stands in every text, so it makes no difference that it is not asked for. -/
theorem given_infix_iff (search : String) (cs : List Char) :
    (∀ s, (if search.isEmpty then none else some search) = some s → s.toList <:+: cs) ↔ search.toList <:+: cs := by
  split
  · rename_i hempty
    rw [String.isEmpty_iff.1 hempty]
    exact iff_of_true (fun s hs => by cases hs) List.nil_infix
  · exact ⟨fun h => h _ rfl, fun h s hs => Option.some.inj hs ▸ h⟩

/-- **The filter of a query** admits the owner's notes that the query asks for, and only the owner's number can fail to fit
the columns. -/
theorem queryFilter_ok (h : readDay (text args "date_end") ≠ some lastDay) : ∃ f, queryFilter args = .ok f ∧
    (∀ owner n, f.Asks owner n ↔ n.owner = owner ∧ Finds args n) ∧
    ∀ owner, f.Fits owner ↔ fitsColumn owner = true := by
  refine ⟨_, queryFilter_eq h, fun owner n => ?_, fun owner => ?_⟩
  · constructor
    · rintro ⟨howner, hcontains, hsince, hupTo, -⟩
      exact ⟨howner, (given_infix_iff _ _).1 hcontains, (Option.forall_mem_map (p := (· ≤ n.created))).1 hsince,
        (Option.forall_mem_map (p := (n.created ≤ ·))).1 hupTo⟩
    · rintro ⟨howner, hholds, hsince, hupTo⟩
      exact ⟨howner, (given_infix_iff _ _).2 hholds, (Option.forall_mem_map (p := (· ≤ n.created))).2 hsince,
        (Option.forall_mem_map (p := (n.created ≤ ·))).2 hupTo, fun status hstatus => by cases hstatus⟩
  · -- a day that is read is so near that the seconds to either end of it fit
    have hfits {s : String} {day k : Int} (hday : readDay s = some day) (hk : k = day ∨ k = day + 1) :
        fitsColumn (k * 86400) = true := by
      have := Calendar.readDay_range hday
      rw [Calendar.epoch, lastDay] at this
      rw [fitsColumn_iff]
      omega
    rw [Note.Filter.fits_iff]
    exact and_iff_left ⟨Option.forall_mem_map.2 fun day hday => hfits hday (.inl rfl),
      Option.forall_mem_map.2 fun day hday => hfits hday (.inr rfl)⟩

end

/-! ## What is answered -/

/-- A minute of a day in universal time. -/
structure Minute where
  date : Date
  hour : Nat
  minute : Nat

structure Minute.Holds (m : Minute) (t : Int) : Prop where
  valid : m.date.isValid = true
  hour : m.hour < 24
  minute : m.minute < 60
  since : m.date.toDay * 86400 + m.hour * 3600 + m.minute * 60 ≤ t
  before : t < m.date.toDay * 86400 + m.hour * 3600 + m.minute * 60 + 60

/-- What is shown of a content: all of it, or the first 400 characters and three dots. -/
def Preview (content shown : String) : Prop :=
  (content.length ≤ 400 → shown = content) ∧
    (400 < content.length → shown.toList = content.toList.take 400 ++ "...".toList)

/-- **An item of an answer**: the note's number in the answer, its uid, the minute it was created in, and its preview. -/
def Item (k : Nat) (n : Note) (item : String) : Prop :=
  ∃ (m : Minute) (shown : String), m.Holds n.created ∧ Preview n.content shown ∧
    item = "[" ++ toString k ++ "] Note " ++ n.uid ++ " (Created: " ++ m.date.print ++ " " ++
      Calendar.twoDigits m.hour ++ ":" ++ Calendar.twoDigits m.minute ++ "):\n" ++ shown ++ "\n\n"

/-- **What an answer tells of the notes that were found**: that there are none, or the first five, numbered from one, and how
many more there are. -/
structure Tells (ns : List Note) (answer : String) : Prop where
  none : ns = [] → answer = "No notes found matching those criteria."
  some : ns ≠ [] → ∃ items : List String, items.length = min 5 ns.length ∧
    (∀ i item, items[i]? = some item → ∃ n, ns[i]? = some n ∧ Item (i + 1) n item) ∧
    answer = String.join items ++
      if 5 < ns.length then "... and " ++ toString (ns.length - 5) ++ " more notes skipped." else ""

theorem preview_preview (content : String) : Preview content (Text.preview content previewLength) := by
  have hlength : (previewLength : Int) < content.length ↔ 400 < content.length := by rw [previewLength]; omega
  unfold Text.preview
  refine ⟨fun h => if_neg (by omega), fun h => ?_⟩
  rw [if_pos (hlength.2 h), String.toList_append, Text.before, if_neg (by decide), Text.cut, String.toList_ofList]
  rfl

theorem datedLine_ok (k : Nat) {n : Note} (h : Printable n.created) : ∃ item, datedLine k n = .ok item ∧ Item k n item := by
  obtain ⟨hvalid, hhour, hminute, hsecond, hmoment⟩ := Stamp.ofSeconds_spec n.created
  unfold datedLine
  rw [Calendar.stampOf_printable h]
  refine ⟨_, rfl, ⟨(Stamp.ofSeconds n.created).date, (Stamp.ofSeconds n.created).hour,
    (Stamp.ofSeconds n.created).minute⟩, _, ⟨hvalid, hhour, hminute, by dsimp only; omega, by dsimp only; omega⟩,
    preview_preview n.content, ?_⟩
  simp only [Stamp.printMinute, String.append_assoc]

theorem datedLines_ok {ns : List Note} (h : ∀ n ∈ ns, Printable n.created) (k : Nat) : ∃ items : List String,
    datedLines k ns = .ok (String.join items) ∧ items.length = ns.length ∧
      ∀ i item, items[i]? = some item → ∃ n, ns[i]? = some n ∧ Item (k + i) n item := by
  induction ns generalizing k with
  | nil => exact ⟨[], rfl, rfl, fun i item hi => by cases hi⟩
  | cons n ns ih =>
    obtain ⟨item, hitem, hn⟩ := datedLine_ok k (h n List.mem_cons_self)
    obtain ⟨items, hitems, hlength, hns⟩ := ih (fun m hm => h m (List.mem_cons_of_mem n hm)) (k + 1)
    refine ⟨item :: items, ?_, congrArg (· + 1) hlength, ?_⟩
    · rw [datedLines, hitem, hitems, String.join_cons]
      rfl
    · rintro (_ | i) item' hi
      · exact ⟨n, rfl, Option.some.inj hi ▸ hn⟩
      · obtain ⟨m, hm, hmi⟩ := hns i item' hi
        exact ⟨m, hm, by rwa [show k + (i + 1) = k + 1 + i by omega]⟩

/-- **An answer tells the notes that were found**, if their moments can be printed. -/
theorem datedListing_ok {ns : List Note} (h : ∀ n ∈ ns, Printable n.created) :
    ∃ answer, datedListing ns = .ok answer ∧ Tells ns answer := by
  unfold datedListing
  cases ns with
  | nil => exact ⟨_, rfl, fun _ => rfl, fun hne => absurd rfl hne⟩
  | cons n ns =>
    have hfirst : ∀ m ∈ (n :: ns).take queryShown, Printable m.created := fun m hm => h m (List.mem_of_mem_take hm)
    obtain ⟨items, hitems, hlength, hshown⟩ := datedLines_ok hfirst 1
    rw [if_neg (by simp), hitems]
    refine ⟨_, rfl, ⟨fun hnil => absurd hnil (List.cons_ne_nil n ns), fun _ => ⟨items, ?_, fun i item hi => ?_, rfl⟩⟩⟩
    · rw [hlength, List.length_take]
      rfl
    · obtain ⟨m, hm, hitem⟩ := hshown i item hi
      rw [Nat.add_comm] at hitem
      rw [List.getElem?_take] at hm
      split at hm
      · exact ⟨m, hm, hitem⟩
      · cases hm

/-- The beginning of an answer that tells a failure. -/
def failing : String := "Error: "

theorem Tells.not_failing {ns : List Note} {answer : String} (h : Tells ns answer) :
    ¬failing.toList <+: answer.toList := by
  cases ns with
  | nil =>
    rw [h.none rfl]
    decide
  | cons n ns =>
    obtain ⟨items, hlength, hitems, rfl⟩ := h.some (List.cons_ne_nil n ns)
    cases items with
    | nil =>
      rw [List.length_nil, List.length_cons] at hlength
      omega
    | cons item items =>
      obtain ⟨m, -, minute, shown, -, -, rfl⟩ := hitems 0 item rfl
      simp [failing]

/-! ## Queries -/

section
variable {c : Caller} {w : World} {args : Arguments}

theorem queryNotes_tooLate (hend : readDay (text args "date_end") = some lastDay) :
    c.queryNotes args w = (.error .dayTooLate, w) := by
  rw [Caller.queryNotes, queryFilter_tooLate hend]
  rfl

theorem queryNotes_wide (hlist : ∀ n, w.noteFaults.strikes n .list = none)
    (hend : readDay (text args "date_end") ≠ some lastDay) (hwide : fitsColumn c.user = false) :
    c.queryNotes args w = (.error .wideInteger, w.noteUsed) := by
  obtain ⟨f, hf, -, hfits⟩ := queryFilter_ok hend
  have hrefused : ¬f.Fits c.user := fun h => Bool.false_ne_true (hwide.symm.trans ((hfits c.user).1 h))
  rw [Caller.queryNotes, hf, Attempt.bind_run_ok (Attempt.ofExcept_run _ _)]
  refine Attempt.bind_run_error ?_
  rw [World.notesOf_run hlist, w.notes.select_refused hrefused]
  rfl

/-- **A query tells the owner's notes that it asks for**, newest first. -/
theorem queryNotes_ok (ht : w.notes.Sound) (hlist : ∀ n, w.noteFaults.strikes n .list = none)
    (hcreated : ∀ n ∈ w.notes.toList, n.owner = c.user → Printable n.created)
    (hend : readDay (text args "date_end") ≠ some lastDay) (huser : fitsColumn c.user = true) :
    ∃ ns answer, c.queryNotes args w = (.ok answer, w.noteUsed) ∧
      w.notes.Listing (fun n => n.owner = c.user ∧ Finds args n) ns ∧ Tells ns answer := by
  obtain ⟨f, hf, hasks, hfits⟩ := queryFilter_ok hend
  obtain ⟨ns, hns⟩ := w.notes.select_ok ((hfits c.user).2 huser)
  have hlisting := (Note.Table.listing_select ht hns).congr (hasks c.user)
  obtain ⟨answer, hanswer, htells⟩ := datedListing_ok fun n hn =>
    hcreated n ((hlisting.mem n).1 hn).1 ((hlisting.mem n).1 hn).2.1
  refine ⟨ns, answer, ?_, hlisting, htells⟩
  rw [Caller.queryNotes, hf, Attempt.bind_run_ok (Attempt.ofExcept_run _ _),
    Attempt.bind_run_ok (by rw [World.notesOf_run hlist, hns]; rfl)]
  exact congrArg (·, w.noteUsed) hanswer

theorem dispatch_queryNotes (c : Caller) {raw : String} (hargs : Form.queryNotes.read raw = some args) :
    (registry c).dispatch (.text "query_notes") (.text raw) = answerTo "query_notes" (some (c.queryNotes args)) := by
  have hexecute : Tool.queryNotes.execute c raw = c.queryNotes args := by
    simp only [execute, form?, hargs]
    rfl
  rw [dispatch_registry, run, ← hexecute]
  rfl

variable {raw : String}

/-- **When a query tells notes**, and when a failure: the end of the last day there is, and an owner whose number does not
fit, are all that stands in the way. -/
theorem query_answered (ht : w.notes.Sound) (hlist : ∀ n, w.noteFaults.strikes n .list = none)
    (hcreated : ∀ n ∈ w.notes.toList, n.owner = c.user → Printable n.created)
    (hargs : Form.queryNotes.read raw = some args) :
    ∃ answer w', (registry c).dispatch (.text "query_notes") (.text raw) w = (.ok answer, w') ∧
      ((∃ ns, w.notes.Listing (fun n => n.owner = c.user ∧ Finds args n) ns ∧ Tells ns answer) ↔
        readDay (text args "date_end") ≠ some lastDay ∧ fitsColumn c.user = true) ∧
      (failing.toList <+: answer.toList ↔ readDay (text args "date_end") = some lastDay ∨ fitsColumn c.user = false) := by
  have hfails (e : Failure) : failing.toList <+: (failing ++ e.message).toList := by
    rw [String.toList_append]
    exact List.prefix_append _ _
  have hfailed {e : Failure} : ¬∃ ns, w.notes.Listing (fun n => n.owner = c.user ∧ Finds args n) ns ∧
      Tells ns (failing ++ e.message) := by
    rintro ⟨ns, -, htells⟩
    exact htells.not_failing (hfails e)
  rw [dispatch_queryNotes c hargs]
  by_cases hend : readDay (text args "date_end") = some lastDay
  · exact ⟨_, _, answerTo_error (queryNotes_tooLate hend), iff_of_false hfailed fun h => h.1 hend,
      iff_of_true (hfails _) (.inl hend)⟩
  cases huser : fitsColumn c.user with
  | true =>
    obtain ⟨ns, answer, hrun, hlisting, htells⟩ := queryNotes_ok ht hlist hcreated hend huser
    exact ⟨answer, _, answerTo_ok hrun, iff_of_true ⟨ns, hlisting, htells⟩ ⟨hend, rfl⟩,
      iff_of_false htells.not_failing (by simp [hend])⟩
  | false =>
    exact ⟨_, _, answerTo_error (queryNotes_wide hlist hend huser), iff_of_false hfailed fun h => Bool.false_ne_true h.2,
      iff_of_true (hfails _) (.inr rfl)⟩

end

/-- **A query tells the owner's notes that it asks for just if the owner's number fits the columns**, whatever is in the
store and whatever is asked for short of the last day there is. -/
theorem query_tells_iff {c : Caller} {w : World} {raw : String} {args : Arguments} (ht : w.notes.Sound)
    (hlist : ∀ n, w.noteFaults.strikes n .list = none)
    (hcreated : ∀ n ∈ w.notes.toList, n.owner = c.user → Printable n.created)
    (hargs : Form.queryNotes.read raw = some args) (hend : readDay (text args "date_end") ≠ some lastDay) :
    ∃ answer w', (registry c).dispatch (.text "query_notes") (.text raw) w = (.ok answer, w') ∧
      ((∃ ns, w.notes.Listing (fun n => n.owner = c.user ∧ Finds args n) ns ∧ Tells ns answer) ↔
        fitsColumn c.user = true) := by
  obtain ⟨answer, w', hrun, htells, -⟩ := query_answered ht hlist hcreated hargs
  exact ⟨answer, w', hrun, htells.trans (and_iff_right hend)⟩

/-- Two notes; the one that was added last is dated back. -/
def milkNotes : World :=
  { Note.noNotes with notes := ⟨[⟨2, "a", 1, "milk", Note.normal, 90000, 90000⟩, ⟨3, "b", 1, "Milk", Note.normal, 5, 7⟩]⟩ }

def milkBefore : String := "\x7b\"text_search\": \"milk\", \"date_start\": \"soon\", \"date_end\": \"1970-01-02\"\x7d"

theorem query_tells_iff_milkNotes : milkNotes.notes.Sound ∧ (∀ n, milkNotes.noteFaults.strikes n .list = none) ∧
    (∀ n ∈ milkNotes.notes.toList, n.owner = 1 → Printable n.created) ∧ fitsColumn 1 = true ∧
    ∃ args, Form.queryNotes.read milkBefore = some args ∧ readDay (text args "date_end") = some 1 ∧
      ∃ answer w', (registry ⟨1, false, "", 5⟩).dispatch (.text "query_notes") (.text milkBefore) milkNotes =
        (.ok answer, w') ∧
        ∃ ns, milkNotes.notes.Listing (fun n => n.owner = 1 ∧ Finds args n) ns ∧ Tells ns answer := by
  have hsound : milkNotes.notes.Sound := ⟨by decide, by decide⟩
  have hcreated : ∀ n ∈ milkNotes.notes.toList, n.owner = 1 → Printable n.created := by decide
  let args : Arguments := [("text_search", .text "milk"), ("date_start", .text "soon"), ("date_end", .text "1970-01-02")]
  have hargs : Form.queryNotes.read milkBefore = some args := by decide +kernel
  have hend : readDay (text args "date_end") = some 1 := by decide +kernel
  obtain ⟨answer, w', hrun, htells⟩ := query_tells_iff (c := ⟨1, false, "", 5⟩) (w := milkNotes) hsound (fun _ => rfl)
    hcreated hargs (by rw [hend]; decide)
  exact ⟨hsound, fun _ => rfl, hcreated, rfl, args, hargs, hend, answer, w', hrun, htells.2 rfl⟩

/-- An owner whose number does not fit the columns is answered with a failure. -/
theorem wide_owner_is_failed :
    ((registry ⟨9223372036854775808, false, "", 5⟩).dispatch (.text "query_notes") (.text "\x7b\x7d") Note.noNotes).1 =
      .ok "Error: Python int too large to convert to SQLite INTEGER" ∧
    ∀ ns, ¬Tells ns "Error: Python int too large to convert to SQLite INTEGER" :=
  ⟨by decide +kernel, fun _ h => h.not_failing (by decide)⟩

end Tool

/-! ## Histories -/

namespace Note
namespace Table

/-- The notes of a table are in order, and the moments they were created at can be printed. -/
structure Dated (t : Table) : Prop where
  sound : t.Sound
  created : ∀ n ∈ t.toList, Printable n.created

variable {t t' : Table}

theorem dated_empty : Dated .empty := ⟨.empty, fun _ hn => (List.not_mem_nil hn).elim⟩

theorem Dated.insert (h : t.Dated) {n : Note} (hn : Printable n.created) (hrun : t.insert n = .ok t') : t'.Dated := by
  refine ⟨h.sound.insert hrun, fun m hm => ?_⟩
  rw [toList_insert hrun, List.mem_append, List.mem_singleton] at hm
  rcases hm with hm | rfl
  · exact h.created m hm
  · exact hn

theorem Dated.setContent (h : t.Dated) {uid content : String} {now : Int} (hrun : t.setContent uid content now = .ok t') :
    t'.Dated := by
  refine ⟨h.sound.setContent hrun, fun m hm => ?_⟩
  rw [toList_setContent hrun] at hm
  obtain ⟨before, hbefore, rfl⟩ := List.mem_map.1 hm
  rw [Deed.revise_created]
  exact h.created before hbefore

theorem Dated.erase (h : t.Dated) (uid : String) : (t.erase uid).Dated := by
  refine ⟨h.sound.erase uid, fun m hm => ?_⟩
  rw [toList_erase] at hm
  exact h.created m (List.mem_filter.1 hm).1

end Table
end Note

namespace World

/-- The clock stands, what strikes the note store stays, and where the clock can be printed the notes stay dated. -/
structure KeepsDated (w w' : World) : Prop where
  clock : w'.clock = w.clock
  strikes : w'.noteFaults.strikes = w.noteFaults.strikes
  dated : Printable w.clock → w.notes.Dated → w'.notes.Dated

namespace KeepsDated

theorem trans {w w' w'' : World} (h : KeepsDated w w') (h' : KeepsDated w' w'') : KeepsDated w w'' where
  clock := h'.clock.trans h.clock
  strikes := h'.strikes.trans h.strikes
  dated hclock hw := h'.dated (h.clock ▸ hclock) (h.dated hclock hw)

instance : Std.Refl KeepsDated := ⟨fun _ => ⟨rfl, rfl, fun _ => id⟩⟩
instance : Trans KeepsDated KeepsDated KeepsDated := ⟨trans⟩

variable {w : World}

theorem noteMethod {α : Type} (m : Note.Method) {t : Attempt World α} (h : Keeps KeepsDated t) :
    Keeps KeepsDated (noteMethod m t) := fun w => by
  have hused : KeepsDated w w.noteUsed := ⟨rfl, rfl, fun _ => id⟩
  rw [noteMethod_run]
  split
  · exact hused
  · exact hused
  · rw [Attempt.map_run]
    exact hused.trans (h _)

theorem onNotes {f : Note.Table → Except Failure Note.Table}
    (h : Printable w.clock → w.notes.Dated → ∀ t, f w.notes = .ok t → t.Dated) : KeepsDated w (onNotes f w).2 := by
  rw [onNotes_run]
  split
  · rename_i t ht
    exact ⟨rfl, rfl, fun hclock hw => h hclock hw t ht⟩
  · exact ⟨rfl, rfl, fun _ => id⟩

theorem addNote (owner : Int) (content status : String) : Keeps KeepsDated (addNote owner content none status) := by
  refine noteMethod .add fun w => ?_
  -- the note is created at the time of the clock
  let made : Note := ⟨World.idText World.noteUidLength w.nextId, owner, content, status, w.clock, w.clock⟩
  have hmade : KeepsDated { w with nextId := w.nextId + 1 }
      (World.onNotes (·.insert made) { w with nextId := w.nextId + 1 }).2 :=
    onNotes fun hclock hw t ht => hw.insert (n := made) hclock ht
  suffices hends : Ends (World.takeId >>= _) w fun _ w' => KeepsDated w w' from hends
  refine Ends.next rfl (Ends.look (Ends.bind (P := fun _ w' => KeepsDated w w') ?_ (fun _ _ h => h) fun _ _ h => h))
  exact ⟨hmade.clock, hmade.strikes, hmade.dated⟩

theorem replaceContent (uid content : String) : Keeps KeepsDated (replaceContent uid content) := by
  refine noteMethod .replace fun w => ?_
  rw [Attempt.bind_run_ok (Attempt.look_run _ _)]
  exact onNotes fun _ hw t ht => hw.setContent ht

theorem removeNote (uid : String) : Keeps KeepsDated (removeNote uid) :=
  noteMethod .remove fun _ => onNotes fun _ hw _ ht => Except.ok.inj ht ▸ hw.erase uid

theorem uses (c : Tool.Caller) : Tool.UsesKeep KeepsDated c where
  added _ := addNote _ _ _
  found _ := (noteMethod .find (.look _)).bind fun _ => .done _
  replaced := replaceContent
  removed := removeNote
  listed _ := noteMethod .list ((Keeps.look _).bind fun _ => .ofExcept _)
  counted _ := noteMethod .count ((Keeps.look _).bind fun _ => .ofExcept _)
  indexed _ := fun _ => ⟨rfl, rfl, fun _ => id⟩

end KeepsDated
end World

namespace Tool

/-- **However many tools are run, the notes stay dated**, if every call is made at a time that can be printed. -/
theorem afterAllCalls_dated {w : World} (hw : w.notes.Dated) {ks : List (Int × Call)}
    (hclock : ∀ k ∈ ks, Printable k.2.clock) :
    (afterAllCalls w ks).notes.Dated ∧ (afterAllCalls w ks).noteFaults.strikes = w.noteFaults.strikes := by
  induction ks generalizing w with
  | nil => exact ⟨hw, rfl⟩
  | cons k ks ih =>
    have hkeeps := keeps_run_of (World.KeepsDated.uses (k.2.caller k.1)).perform k.2.name k.2.raw
      { w with clock := k.2.clock, nextId := k.2.nextId }
    have hdated := hkeeps.dated (hclock k List.mem_cons_self) hw
    obtain ⟨hall, hstrikes⟩ := ih hdated fun k' hk' => hclock k' (List.mem_cons_of_mem k hk')
    exact ⟨hall, hstrikes.trans hkeeps.strikes⟩

/-- **After any calls of tools a query answers, and tells a failure only of the last day there is or of an owner whose number
fits no column.** -/
theorem query_answers_iff {w : World} (hempty : w.notes = .empty) (hlist : ∀ n, w.noteFaults.strikes n .list = none)
    {ks : List (Int × Call)} (hclock : ∀ k ∈ ks, Printable k.2.clock) (c : Caller) {raw : String} {args : Arguments}
    (hargs : Form.queryNotes.read raw = some args) :
    let w' := afterAllCalls w ks
    ∃ answer w'', (registry c).dispatch (.text "query_notes") (.text raw) w' = (.ok answer, w'') ∧
      ((∃ ns, w'.notes.Listing (fun n => n.owner = c.user ∧ Finds args n) ns ∧ Tells ns answer) ↔
        readDay (text args "date_end") ≠ some lastDay ∧ fitsColumn c.user = true) ∧
      (failing.toList <+: answer.toList ↔ readDay (text args "date_end") = some lastDay ∨ fitsColumn c.user = false) := by
  obtain ⟨hdated, hstrikes⟩ := afterAllCalls_dated (hempty ▸ Note.Table.dated_empty) hclock
  have hlist' : ∀ n, (afterAllCalls w ks).noteFaults.strikes n .list = none := fun n => by rw [hstrikes, hlist]
  exact query_answered hdated.sound hlist' (fun n hn _ => hdated.created n hn) hargs

/-- Notes made by two users at the two ends of what can be printed. -/
def atBothEnds : List (Int × Call) :=
  [(1, ⟨-62135596800, 1, true, "", "create_note", "\x7b\"content\": \"first\"\x7d"⟩),
    (2, ⟨253402300799, 2, false, "", "create_note", "\x7b\"content\": \"last\"\x7d"⟩)]

def untilTheEnd : String := "\x7b\"date_start\": \"0001-01-01\", \"date_end\": \"9999-12-30\"\x7d"

theorem query_answers_iff_atBothEnds : Note.noNotes.notes = .empty ∧ (∀ n, Note.noNotes.noteFaults.strikes n .list = none) ∧
    (∀ k ∈ atBothEnds, Printable k.2.clock) ∧
    ∃ args, Form.queryNotes.read untilTheEnd = some args ∧
      ∃ answer w', (registry ⟨1, true, "", 5⟩).dispatch (.text "query_notes") (.text untilTheEnd)
        (afterAllCalls Note.noNotes atBothEnds) = (.ok answer, w') ∧ ¬failing.toList <+: answer.toList := by
  have hclock : ∀ k ∈ atBothEnds, Printable k.2.clock := by decide
  let args : Arguments := [("text_search", .text ""), ("date_start", .text "0001-01-01"), ("date_end", .text "9999-12-30")]
  have hargs : Form.queryNotes.read untilTheEnd = some args := by decide +kernel
  obtain ⟨answer, w', hrun, -, hfails⟩ := query_answers_iff (w := Note.noNotes) rfl (fun _ => rfl) hclock ⟨1, true, "", 5⟩ hargs
  exact ⟨rfl, fun _ => rfl, hclock, args, hargs, answer, w', hrun, fun h => absurd (hfails.1 h) (by decide +kernel)⟩

/-- The moment after the last day there is cannot be reckoned. -/
theorem last_day_is_failed :
    ((registry ⟨1, true, "", 5⟩).dispatch (.text "query_notes") (.text "\x7b\"date_end\": \"9999-12-31\"\x7d")
      (afterAllCalls Note.noNotes atBothEnds)).1 = .ok "Error: date value out of range" ∧
    ∀ ns, ¬Tells ns "Error: date value out of range" :=
  ⟨by decide +kernel, fun _ h => h.not_failing (by decide)⟩

/-! ## Printed dates -/

section
variable {t : Int} (hlow : 1000 ≤ (Stamp.ofSeconds t).date.year) (hhigh : (Stamp.ofSeconds t).date.year ≤ 9999)
include hlow hhigh

theorem readDay_printed : readDay (Stamp.ofSeconds t).date.print = some (t / 86400) := by
  have hday : (Stamp.ofSeconds t).date.toDay = t / 86400 := Date.toDay_ofDay _
  rw [Calendar.readDay_print hlow hhigh (Stamp.ofSeconds_spec t).1, hday]

theorem finds_printed {args : Arguments} (hsearch : text args "text_search" = "")
    (hfrom : text args "date_start" = (Stamp.ofSeconds t).date.print)
    (hto : text args "date_end" = (Stamp.ofSeconds t).date.print) {n : Note} (hcreated : n.created = t) :
    Finds args n := by
  have hday := readDay_printed hlow hhigh
  refine ⟨by rw [hsearch]; exact List.nil_infix, fun day h => ?_, fun day h => ?_⟩
  · rw [hfrom, hday, Option.some.injEq] at h
    omega
  · rw [hto, hday, Option.some.injEq] at h
    omega

/-- **A note is found by the date that is printed for it.**  Read as a day, this date is the beginning of the day the note was
created on: the greatest multiple of a day's seconds that is not above the moment. -/
theorem printed_date_finds :
    ∃ date time : String, date.length = 10 ∧
      (∀ k n, n.created = t → ∃ shown, datedLine k n =
        .ok ("[" ++ toString k ++ "] Note " ++ n.uid ++ " (Created: " ++ (date ++ " " ++ time) ++ "):\n" ++ shown)) ∧
      (∃ start, Calendar.readDayStart date = some start ∧ 86400 ∣ start ∧ start ≤ t ∧
        ∀ other, 86400 ∣ other → other ≤ t → other ≤ start) ∧
      (t < lastDay * 86400 → ∀ (c : Caller) (w : World) (args : Arguments), text args "text_search" = "" →
        text args "date_start" = date → text args "date_end" = date → (∀ n, w.noteFaults.strikes n .list = none) →
        (∀ n ∈ w.notes.toList, fitsColumn n.owner = true) →
        ∀ n ∈ w.notes.toList, n.owner = c.user → n.created = t → ∃ f ns, Caller.queryFilter args = .ok f ∧
          (World.notesOf c.user f w).1 = .ok (some ns) ∧ n ∈ ns) := by
  have hday := readDay_printed hlow hhigh
  have hvalid := (Stamp.ofSeconds_spec t).1
  refine ⟨(Stamp.ofSeconds t).date.print, Calendar.twoDigits (Stamp.ofSeconds t).hour ++ ":" ++
    Calendar.twoDigits (Stamp.ofSeconds t).minute, Calendar.length_print hlow hhigh hvalid, ?_,
    ⟨t / 86400 * 86400, ?_, Int.dvd_mul_left _ _, by omega, ?_⟩, ?_⟩
  · rintro k n rfl
    refine ⟨Text.preview n.content previewLength ++ "\n\n", ?_⟩
    unfold datedLine
    rw [Calendar.stampOf_printable ⟨by omega, hhigh⟩]
    simp only [Stamp.printMinute, String.append_assoc]
    rfl
  · rw [Calendar.readDayStart, hday]
    rfl
  · rintro other ⟨day, rfl⟩ hother
    omega
  · intro hlast c w args hsearch hfrom hto hlist hfits n hn howner hcreated
    have hend : readDay (text args "date_end") ≠ some lastDay := by
      rw [hto, hday, ne_eq, Option.some.injEq]
      omega
    obtain ⟨f, hf, hasks, huser⟩ := queryFilter_ok hend
    obtain ⟨ns, hns⟩ := w.notes.select_ok ((huser c.user).2 (howner ▸ hfits n hn))
    refine ⟨f, ns, hf, by rw [World.notesOf_fst hlist, hns]; rfl, (Note.Table.mem_select_iff hns).2 ⟨hn, ?_⟩⟩
    exact (hasks c.user n).2 ⟨howner, finds_printed hlow hhigh hsearch hfrom hto hcreated⟩

end

/-- A note of the last second of a leap day. -/
def leapDay : World := { Note.noNotes with notes := ⟨[⟨1, "a", 1, "leap", Note.normal, 951868799, 951868799⟩]⟩ }

theorem printed_date_finds_leapDay :
    1000 ≤ (Stamp.ofSeconds 951868799).date.year ∧ (Stamp.ofSeconds 951868799).date.year ≤ 9999 ∧
    ∃ date time : String, date.length = 10 ∧
      (∃ shown, datedLine 1 ⟨"a", 1, "leap", Note.normal, 951868799, 951868799⟩ =
        .ok ("[" ++ toString 1 ++ "] Note " ++ "a" ++ " (Created: " ++ (date ++ " " ++ time) ++ "):\n" ++ shown)) ∧
      (∃ start, Calendar.readDayStart date = some start ∧ 86400 ∣ start ∧ start ≤ 951868799 ∧
        ∀ other, 86400 ∣ other → other ≤ 951868799 → other ≤ start) ∧
      ∀ args, text args "text_search" = "" → text args "date_start" = date → text args "date_end" = date →
        ∃ f ns, Caller.queryFilter args = .ok f ∧ (World.notesOf 1 f leapDay).1 = .ok (some ns) ∧
          ⟨"a", 1, "leap", Note.normal, 951868799, 951868799⟩ ∈ ns := by
  have hlow : 1000 ≤ (Stamp.ofSeconds 951868799).date.year := by decide
  have hhigh : (Stamp.ofSeconds 951868799).date.year ≤ 9999 := by decide
  obtain ⟨date, time, hlength, hprinted, hread, hfound⟩ := printed_date_finds hlow hhigh
  exact ⟨hlow, hhigh, date, time, hlength, hprinted 1 ⟨"a", 1, "leap", Note.normal, 951868799, 951868799⟩ rfl, hread,
    fun args hsearch hfrom hto => hfound (by decide) ⟨1, false, "", 5⟩ leapDay args hsearch hfrom hto (fun _ => rfl)
      (by decide) _ (by decide) rfl rfl⟩

end Tool
end NoteAgent
