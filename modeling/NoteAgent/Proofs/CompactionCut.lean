import Mathlib.Algebra.GroupWithZero.Nat
import NoteAgent.Proofs.CompactionFailure
import NoteAgent.Proofs.TurnHistory
/-!
# CompactionCut — where a compaction cuts

The messages of a session are cut in two by their places in its list, but they are dropped by a number, from a table that
the messages of all sessions are in.  The two agree: what goes is just what the model was shown, all but the last messages
of the session, and everything else in the tables stays but the summary and the time of change of the session
(`foldUnder_cuts`).
-/
namespace NoteAgent
namespace Chat

open Attempt (Ends)

/-- The tables with a session in the place of the one with its uid, and without some messages. -/
def Table.cut (t : Table) (x : Session) (old : List Message) : Table :=
  { t with
    sessions := t.sessions.map fun y => if y.uid = x.uid then x else y
    messages := t.messages.filter (· ∉ old) }

/-- Another session is not the one of the number. -/
theorem Table.summed_of_ne {t : Table} {s y : Session} (ht : t.Sound) (hs : s ∈ t.sessions) (hy : y ∈ t.sessions)
    (huid : y.uid ≠ s.uid) (summary : String) (now : Int) : Session.summed s.id summary now y = y := by
  have hid : y.id ≠ s.id := fun hid => huid (congrArg (·.uid) (List.inj_on_of_nodup_map ht.ids hy hs hid))
  rw [Session.summed, if_neg (by simpa using hid)]

theorem Table.session?_compact_of_ne {t t' : Table} {s : Session} {summary other : String} {bound now : Int}
    (ht : t.Sound) (hs : t.session? s.uid = some s) (hother : other ≠ s.uid)
    (h : t.compact s.uid summary bound now = .ok t') : t'.session? other = t.session? other := by
  obtain ⟨s', hs', rfl⟩ := compact_ok h
  cases hs.symm.trans hs'
  rw [session?_map (keepsNames_summed _ _ _) rfl]
  cases hfound : t.session? other with
  | none => rfl
  | some y =>
    obtain ⟨hy, rfl⟩ := session?_some hfound
    rw [Option.map_some, summed_of_ne ht (session?_some hs).1 hy hother]

/-- Dropping what is numbered below the bound drops the old messages, whatever messages stand between them. -/
theorem Table.compact_cut {t t' : Table} {s : Session} {old recent : List Message} {summary : String} {bound now : Int}
    (ht : t.Sound) (hs : t.session? s.uid = some s) (hlive : t.live s.id = old ++ recent)
    (hbound : Compaction.firstKept old recent = .ok bound) (h : t.compact s.uid summary bound now = .ok t') :
    t' = t.cut { s with summary := summary, updated := now } old := by
  obtain ⟨s', hs', rfl⟩ := compact_ok h
  cases hs.symm.trans hs'
  have hmem := (session?_some hs).1
  obtain ⟨hbelow, habove, -⟩ := firstKept_parts (hlive ▸ ht.live_rising s.id) hbound
  have hsessions : t.sessions.map (Session.summed s.id summary now) =
      t.sessions.map fun y => if y.uid = s.uid then { s with summary := summary, updated := now } else y := by
    refine List.map_congr_left fun y hy => ?_
    by_cases huid : y.uid = s.uid
    · rw [ht.eq_of_uid hy hmem huid, Session.summed, if_pos (by simp), if_pos rfl]
    · rw [summed_of_ne ht hmem hy huid, if_neg huid]
  have hmessages : (t.messages.filter fun m => !(m.session == s.id && decide (m.id < bound))) =
      t.messages.filter (· ∉ old) := by
    refine List.filter_congr fun m hm => ?_
    by_cases hold : m ∈ old
    · have hsession : m.session = s.id := (mem_live.1 (hlive ▸ List.mem_append_left recent hold)).2
      simp [hold, hsession, hbelow m hold]
    · by_cases hsession : m.session = s.id
      · have hrecent : m ∈ recent :=
          (List.mem_append.1 (hlive ▸ mem_live.2 ⟨hm, hsession⟩ : m ∈ old ++ recent)).resolve_left hold
        have hkept : ¬m.id < bound := Int.not_lt.2 (habove m hrecent)
        simp [hold, hsession, hkept]
      · simp [hold, hsession]
  rw [Table.cut, hsessions, hmessages]

namespace Compaction

/-! ## When there is something to fold -/

/-- There is more text than the threshold, and there are more messages than are kept. -/
def Due (policy : Policy) (messages : List Message) : Prop :=
  policy.threshold < ((messages.map (·.content.length)).sum : Nat) ∧ policy.keepRecent < messages.length

theorem size_eq (messages : List Message) :
    size (messages.map (·.content)) = (messages.map (·.content.length)).sum := by
  have hfrom (n : Nat) : (messages.map (·.content)).foldl (fun n s => n + s.length) n =
      n + (messages.map (·.content.length)).sum := by
    induction messages generalizing n with
    | nil => rfl
    | cons m ms ih => rw [List.map_cons, List.foldl_cons, ih, List.map_cons, List.sum_cons, Nat.add_assoc]
  rw [size, hfrom, Nat.zero_add]

theorem oldCount?_of_due {policy : Policy} {messages : List Message} (h : Due policy messages) :
    oldCount? policy messages = some ((messages.length : Int) - policy.keepRecent).toNat := by
  obtain ⟨hsize, hlength⟩ := h
  rw [oldCount?, size_eq, if_neg (by omega), if_neg (by omega)]

theorem oldCount?_of_not_due {policy : Policy} {messages : List Message} (h : ¬Due policy messages) :
    oldCount? policy messages = none := by
  unfold oldCount?
  rw [size_eq]
  split
  · rfl
  · rename_i hsize
    rw [if_pos (by_contra fun hlength => h ⟨by omega, by omega⟩)]

theorem foldUnder_of_not_due (strikes : Strikes) {policy : Policy} (s : Session) {messages : List Message}
    (h : ¬Due policy messages) (w : World) : foldUnder strikes policy s messages w = (.ok (messages, some s), w) := by
  rw [foldUnder, oldCount?_of_not_due h]
  rfl

theorem foldUnder_of_due (strikes : Strikes) {policy : Policy} (hkeep : 0 ≤ policy.keepRecent) (s : Session)
    {messages : List Message} (h : Due policy messages) :
    foldUnder strikes policy s messages = summarise (messages.rdrop policy.keepRecent.toNat) >>=
      storeUnder strikes s (messages.rdrop policy.keepRecent.toNat) (messages.rtake policy.keepRecent.toNat) := by
  have hn := oldCount?_of_due h
  have hcount : ((messages.length : Int) - policy.keepRecent).toNat = messages.length - policy.keepRecent.toNat := by omega
  have hdrop := Turn.drop_eq_rtake hkeep hn
  rw [foldUnder, hn]
  dsimp only
  rw [hdrop, hcount]
  rfl

/-! ## What is asked and what is stored -/

theorem promptFor_eq (old : List Message) : promptFor old =
    instruction ++ String.join (old.map fun m => m.role ++ ": " ++ m.content ++ "\n") := by
  rw [promptFor, prompt, List.map_map]
  rfl

/-- A summary with a text added to it: after a blank line, or alone if there was no summary. -/
def withText (summary text : String) : String := if summary = "" then text else summary ++ "\n\n" ++ text

theorem extend_eq (summary text : String) : extend summary text = withText summary text := by
  by_cases h : summary = ""
  · rw [h, extend_empty, withText, if_pos rfl]
  · rw [extend_of_ne h, withText, if_neg h]

/-- Once a compaction is due the model is asked, with the old messages, and its text is stored, unless there is nothing in
it. -/
theorem foldUnder_asks (strikes : Strikes) {policy : Policy} (hkeep : 0 ≤ policy.keepRecent) (s : Session)
    {messages : List Message} (h : Due policy messages) (w : World) :
    let old := messages.rdrop policy.keepRecent.toNat
    let asked := Model.Client.complete .summary (promptFor old) w.model
    (∃ e, foldUnder strikes policy s messages w = (.error e, { w with model := asked.2 }) ∧
        ∀ text, asked.1 = .ok text → (Text.strip text).isEmpty = true) ∨
      ∃ text, asked.1 = .ok text ∧ (Text.strip text).isEmpty = false ∧ foldUnder strikes policy s messages w =
        storeUnder strikes s old (messages.rtake policy.keepRecent.toNat) text { w with model := asked.2 } := by
  intro old asked
  have hrun : summarise old w = (_, { w with model := asked.2 }) := summarise_run old w
  rw [foldUnder_of_due strikes hkeep s h]
  cases hreply : asked.1 with
  | error e =>
    rw [hreply] at hrun
    exact .inl ⟨_, Attempt.bind_run_error hrun, fun _ h => by cases h⟩
  | ok text =>
    rw [hreply] at hrun
    dsimp only at hrun
    cases hblank : (Text.strip text).isEmpty with
    | true =>
      rw [if_pos hblank] at hrun
      exact .inl ⟨_, Attempt.bind_run_error hrun, fun _ h => by cases h; exact hblank⟩
    | false =>
      rw [if_neg (by simp [hblank])] at hrun
      exact .inr ⟨text, rfl, hblank, Attempt.bind_run_ok hrun⟩

/-- The model is asked once. -/
theorem foldUnder_model (strikes : Strikes) {policy : Policy} (hkeep : 0 ≤ policy.keepRecent) (s : Session)
    {messages : List Message} (h : Due policy messages) (w : World) : (foldUnder strikes policy s messages w).2.model =
      (Model.Client.complete .summary (promptFor (messages.rdrop policy.keepRecent.toNat)) w.model).2 := by
  obtain ⟨e, hran, -⟩ | ⟨text, -, -, hran⟩ := foldUnder_asks strikes hkeep s h w
  · rw [hran]
  · rw [hran, (storeUnder_ends strikes s _ _ text _).1.model]

/-- A compaction has gone through with a text from the model: of the messages the last are left, the session has the text
in its summary and a new time of change, and nothing else in the tables is new. -/
structure Cuts (policy : Policy) (s : Session) (messages : List Message) (text : String) (now : Int) (x : Session)
    (t t' : Table) : Prop where
  session : x = { s with summary := withText s.summary text, updated := now }
  stored : t'.session? s.uid = some x
  live : t'.live s.id = messages.rtake policy.keepRecent.toNat
  tables : t' = t.cut x (messages.rdrop policy.keepRecent.toNat)
  otherSession : ∀ other, other ≠ s.uid → t'.session? other = t.session? other
  otherLive : ∀ other, other ≠ s.id → t'.live other = t.live other

theorem cuts_of_compact {policy : Policy} {s : Session} {text : String} {t t' : Table} {bound now : Int} (ht : t.Sound)
    (hs : t.session? s.uid = some s)
    (hbound : firstKept ((t.live s.id).rdrop policy.keepRecent.toNat) ((t.live s.id).rtake policy.keepRecent.toNat) =
      .ok bound) (h : t.compact s.uid (extend s.summary text) bound now = .ok t') :
    Cuts policy s (t.live s.id) text now { s with summary := withText s.summary text, updated := now } t t' := by
  have hparts : t.live s.id =
      (t.live s.id).rdrop policy.keepRecent.toNat ++ (t.live s.id).rtake policy.keepRecent.toNat :=
    (List.take_append_drop _ _).symm
  have hstored : Table.Stored s ((t.live s.id).rdrop policy.keepRecent.toNat)
      ((t.live s.id).rtake policy.keepRecent.toNat) text t t' := ⟨bound, now, hbound, h⟩
  constructor
  case session => rfl
  case stored => rw [Table.session?_compact hs h, extend_eq]
  case live => exact hstored.live ht hs hparts
  case tables => rw [Table.compact_cut ht hs hparts hbound h, extend_eq]
  case otherSession => exact fun other hne => Table.session?_compact_of_ne ht hs hne h
  case otherLive => exact fun other hne => hstored.live_of_ne hs hne

/-- **A compaction that has a text goes through** where no fault strikes and the numbers and the time fit the columns. -/
theorem storeUnder_ok {strikes : Strikes} {s : Session} {old recent : List Message} (text : String) {w : World}
    (hw : w.Steady) (hstrikes : ∀ st, strikes st = none) (hs : w.chats.session? s.uid = some s) (hold : old ≠ [])
    (htime : fitsColumn w.clock = true)
    (hfits : ∀ m ∈ old ++ recent, fitsColumn m.id = true ∧ fitsColumn (m.id + 1) = true) :
    ∃ x, (storeUnder strikes s old recent text w).1 = .ok (recent, some x) := by
  obtain ⟨bound, hbound, m, hm, hnumber⟩ := firstKept_ok hold recent
  have hboundFits : fitsColumn bound = true := by
    obtain rfl | rfl := hnumber
    · exact (hfits m hm).1
    · exact (hfits m hm).2
  have hcompact : ∃ t, w.chats.compact s.uid (extend s.summary text) bound w.clock = .ok t := by
    rw [Table.compact, hs]
    dsimp only
    rw [checkColumns, if_pos (by simp [htime, hboundFits])]
    exact ⟨_, rfl⟩
  obtain ⟨t, ht⟩ := hcompact
  obtain ⟨-, ⟨-, -, hnever⟩ | ⟨_, _, _, ⟨f, hf, -⟩ | ⟨-, x, hx, -⟩⟩⟩ := storeUnder_ends strikes s old recent text w
  · exact absurd ⟨hw _ _, hstrikes, ht⟩ (hnever bound t hbound)
  · cases (hw _ _).symm.trans hf
  · exact ⟨x, hx⟩

section
variable {strikes : Strikes} {policy : Policy} {s : Session} {w : World}

/-- A due compaction that goes through leaves the last messages, and has cut off the others. -/
theorem foldUnder_cut_of_ok (hkeep : 0 ≤ policy.keepRecent) (ht : w.chats.Sound) (hs : w.chats.session? s.uid = some s)
    (hdue : Due policy (w.chats.live s.id)) {kept : List Message} {x : Session}
    (h : (foldUnder strikes policy s (w.chats.live s.id) w).1 = .ok (kept, some x)) :
    kept = (w.chats.live s.id).rtake policy.keepRecent.toNat ∧ ∃ text, (Model.Client.complete .summary
      (promptFor ((w.chats.live s.id).rdrop policy.keepRecent.toNat)) w.model).1 = .ok text ∧
        (Text.strip text).isEmpty = false ∧
        Cuts policy s (w.chats.live s.id) text w.clock x w.chats
          (foldUnder strikes policy s (w.chats.live s.id) w).2.chats := by
  obtain ⟨e, hran, -⟩ | ⟨text, hreply, hblank, hran⟩ := foldUnder_asks strikes hkeep s hdue w
  · rw [hran] at h
    cases h
  · rw [hran] at h ⊢
    -- the store took nothing, or it took the text and the session could not be read, or could
    obtain ⟨-, ⟨-, hno, -⟩ | ⟨bound, hbound, hc, ⟨f, hf, cause, hcause⟩ | ⟨-, x', hx', hread⟩⟩⟩ :=
      storeUnder_ends strikes s _ _ text _
    · exact absurd h (hno kept x)
    · cases h.symm.trans hcause
    · cases h.symm.trans hx'
      have hcuts := cuts_of_compact ht hs hbound hc.compact
      obtain rfl : _ = x := Option.some.inj (hcuts.stored.symm.trans hread)
      exact ⟨rfl, text, hreply, hblank, hcuts⟩

/-- A due compaction with a text from the model goes through where the store does not fail. -/
theorem foldUnder_ok_of_reply (hkeep : 0 ≤ policy.keepRecent) (hs : w.chats.session? s.uid = some s)
    {messages : List Message} (hdue : Due policy messages) {text : String}
    (hreply : (Model.Client.complete .summary (promptFor (messages.rdrop policy.keepRecent.toNat)) w.model).1 = .ok text)
    (hblank : (Text.strip text).isEmpty = false) (hw : w.Steady) (hstrikes : ∀ st, strikes st = none)
    (htime : fitsColumn w.clock = true)
    (hfits : ∀ m ∈ messages, fitsColumn m.id = true ∧ fitsColumn (m.id + 1) = true) :
    ∃ x, (foldUnder strikes policy s messages w).1 = .ok (messages.rtake policy.keepRecent.toNat, some x) := by
  have hold : messages.rdrop policy.keepRecent.toNat ≠ [] := by
    have hlength : (messages.rdrop policy.keepRecent.toNat).length = messages.length - policy.keepRecent.toNat :=
      (List.length_take ..).trans (Nat.min_eq_left (Nat.sub_le ..))
    have hmore := hdue.2
    exact List.ne_nil_of_length_pos (by omega)
  have hparts : messages.rdrop policy.keepRecent.toNat ++ messages.rtake policy.keepRecent.toNat = messages :=
    List.take_append_drop _ _
  obtain ⟨e, -, hnone⟩ | ⟨text', -, -, hran⟩ := foldUnder_asks strikes hkeep s hdue w
  · cases hblank.symm.trans (hnone text hreply)
  · rw [hran]
    exact storeUnder_ok text' (hw.of_strikes rfl) hstrikes hs hold htime (by rwa [hparts])

end

/-- **A compaction of a session that was just loaded, with its messages just listed, cuts off all but the last messages**:
the model is asked just if there is more text than the threshold and more messages than are kept, and otherwise everything
stays; it is shown what is cut off, in order; and once it has gone through, that is gone, its text stands in the summary, and
nothing else has changed.  It goes through if the model has a text and the store does not fail. -/
theorem foldUnder_cuts (strikes : Strikes) (policy : Policy) (hkeep : 0 ≤ policy.keepRecent) {w₀ w w₁ : World}
    {uid : String} {s : Session} {messages : List Message} (ht : w₀.chats.Sound)
    (hload : World.findSession uid w₀ = (.ok (some s), w))
    (hlist : listing s.id w = (.ok messages, w₁)) :
    let ran := foldUnder strikes policy s messages w₁
    let old := messages.rdrop policy.keepRecent.toNat
    let recent := messages.rtake policy.keepRecent.toNat
    let reply := (Model.Client.complete .summary (promptFor old) w₁.model).1
    (¬Due policy messages → ran = (.ok (messages, some s), w₁)) ∧
    (Due policy messages →
      ran.2.model.requests = w₁.model.requests ∧
      ran.2.model.prompts = w₁.model.prompts ++
        [instruction ++ String.join (old.map fun m => m.role ++ ": " ++ m.content ++ "\n")] ∧
      (∀ kept x, ran.1 = .ok (kept, some x) → kept = recent ∧ ∃ text, reply = .ok text ∧
        (Text.strip text).isEmpty = false ∧ Cuts policy s messages text w₀.clock x w₀.chats ran.2.chats) ∧
      ∀ text, reply = .ok text → (Text.strip text).isEmpty = false → w₀.Steady → (∀ st, strikes st = none) →
        fitsColumn w₀.clock = true → (∀ m ∈ messages, fitsColumn m.id = true ∧ fitsColumn (m.id + 1) = true) →
          ∃ x, ran.1 = .ok (recent, some x)) := by
  obtain ⟨rfl, hfound⟩ : w = w₀.chatUsed ∧ w₀.chats.session? uid = some s := by
    have hends := World.findSession_ends uid w₀
    rw [Ends, hload] at hends
    exact ⟨hends.1, hends.2 s rfl⟩
  obtain ⟨rfl, rfl⟩ : w₁ = w₀.chatUsed.chatUsed ∧ messages = w₀.chats.live s.id := by
    have hends := Stage.listing_ends s.id w₀.chatUsed
    rw [Ends, hlist] at hends
    exact ⟨hends.1, hends.2 messages rfl⟩
  obtain ⟨-, rfl⟩ := Table.session?_some hfound
  intro ran old recent reply
  refine ⟨fun h => foldUnder_of_not_due strikes s h _, fun hdue => ?_⟩
  have hmodel := foldUnder_model strikes hkeep s hdue w₀.chatUsed.chatUsed
  rw [← promptFor_eq]
  refine ⟨by rw [hmodel]; rfl, by rw [hmodel]; rfl, fun kept x h => ?_, ?_⟩
  · exact foldUnder_cut_of_ok (w := w₀.chatUsed.chatUsed) hkeep ht hfound hdue h
  · intro text hreply hblank hw hstrikes htime hfits
    exact foldUnder_ok_of_reply (w := w₀.chatUsed.chatUsed) hkeep hfound hdue hreply hblank (hw.of_strikes rfl)
      hstrikes htime hfits

/-- Two sessions whose messages came in turns, and a model that answers. -/
def inTurns : World :=
  { World.fresh 7 (.fresh .empty ⟨fun _ _ => .ok [[]], 0⟩ 0) (.fresh (.always "") (.always " S ") (.always "")) with
    chats := ⟨[⟨1, "a", 1, defaultTitle, "old", 0, 0⟩, ⟨2, "b", 1, defaultTitle, "", 0, 0⟩],
      [⟨1, 1, userRole, "hello", "", 1, 0⟩, ⟨2, 2, userRole, "other", "", 1, 0⟩, ⟨3, 1, assistantRole, "yes", "", 0, 0⟩,
        ⟨4, 2, assistantRole, "no", "", 0, 0⟩, ⟨5, 1, userRole, "more", "", 1, 0⟩], 2, 5⟩ }

theorem foldUnder_cuts_inTurns :
    let s : Session := ⟨1, "a", 1, defaultTitle, "old", 0, 0⟩
    let x : Session := ⟨1, "a", 1, defaultTitle, "old\n\nS", 0, 7⟩
    let messages : List Message :=
      [⟨1, 1, userRole, "hello", "", 1, 0⟩, ⟨3, 1, assistantRole, "yes", "", 0, 0⟩, ⟨5, 1, userRole, "more", "", 1, 0⟩]
    let ran := foldUnder unstruck ⟨11, 1⟩ s messages inTurns.chatUsed.chatUsed
    (0 : Int) ≤ 1 ∧ inTurns.chats.Sound ∧ World.findSession "a" inTurns = (.ok (some s), inTurns.chatUsed) ∧
    listing s.id inTurns.chatUsed = (.ok messages, inTurns.chatUsed.chatUsed) ∧ Due ⟨11, 1⟩ messages ∧
    ran.1 = .ok ([⟨5, 1, userRole, "more", "", 1, 0⟩], some x) ∧
    ran.2.model.prompts = [instruction ++ "user: hello\nassistant: yes\n"] ∧
    ran.2.chats = inTurns.chats.cut x [⟨1, 1, userRole, "hello", "", 1, 0⟩, ⟨3, 1, assistantRole, "yes", "", 0, 0⟩] ∧
    ran.2.chats.messages = [⟨2, 2, userRole, "other", "", 1, 0⟩, ⟨4, 2, assistantRole, "no", "", 0, 0⟩,
      ⟨5, 1, userRole, "more", "", 1, 0⟩] := by
  intro s x messages ran
  have hsound : inTurns.chats.Sound := ⟨by decide, by decide, by decide, by decide, by decide⟩
  have hload : World.findSession "a" inTurns = (.ok (some s), inTurns.chatUsed) := rfl
  have hlist : listing s.id inTurns.chatUsed = (.ok messages, inTurns.chatUsed.chatUsed) := rfl
  have hdue : Due ⟨11, 1⟩ messages := ⟨by decide, by decide⟩
  have hran : ran.1 = .ok ([⟨5, 1, userRole, "more", "", 1, 0⟩], some x) := by decide +kernel
  obtain ⟨-, hprompts, hcuts, -⟩ := (foldUnder_cuts unstruck ⟨11, 1⟩ (by decide) hsound hload hlist).2 hdue
  obtain ⟨-, text, -, -, hcuts⟩ := hcuts _ _ hran
  have htables : ran.2.chats = inTurns.chats.cut x
      [⟨1, 1, userRole, "hello", "", 1, 0⟩, ⟨3, 1, assistantRole, "yes", "", 0, 0⟩] := hcuts.tables
  refine ⟨by decide, hsound, hload, hlist, hdue, hran, hprompts, htables, ?_⟩
  rw [htables]
  decide

end Compaction
end Chat
end NoteAgent
