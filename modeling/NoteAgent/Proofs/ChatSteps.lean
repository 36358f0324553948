import NoteAgent.Chat.Hall
import NoteAgent.Proofs.ChatStore
/-!
# ChatSteps — what the steps of a request for a turn come to

What a step can come to is said once (`Moves`), for any faults; nothing else here looks into the steps.  Taken without a
break they are what a turn begins with (`alone_follows`).
-/
namespace NoteAgent
namespace Chat

open Attempt (Ends Keeps)
open Compaction (Policy oldCount? firstKept extend promptFor)
open Table (Stored)

/-! ## The parts of a compaction -/

namespace Compaction

theorem extend_empty (new : String) : extend "" new = new := rfl

theorem extend_of_ne {old : String} (h : old ≠ "") (new : String) : extend old new = old ++ "\n\n" ++ new := by
  have hne : old.isEmpty = false := by simpa [String.isEmpty] using h
  rw [extend, hne, if_neg (by decide), Text.joinByBlankLine]

theorem oldCount?_pos {policy : Policy} {ms : List Message} {n : Nat} (h : oldCount? policy ms = some n) : 0 < n := by
  unfold oldCount? at h
  split at h
  · cases h
  · split at h
    · cases h
    · cases h
      omega

theorem fold_none {policy : Policy} {s : Session} {ms : List Message} (h : oldCount? policy ms = none) :
    fold policy s ms = .done (ms, some s) := by
  rw [fold, foldUnder, h]
  rfl

theorem fold_some {policy : Policy} {s : Session} {ms : List Message} {n : Nat} (h : oldCount? policy ms = some n) :
    fold policy s ms =
      summarise (ms.take n) >>= store s (ms.take n) (ms.drop n) := by
  rw [fold, foldUnder, h]
  rfl

/-- What asking for a summary and storing it keep, a compaction keeps. -/
theorem keeps_fold {R : World → World → Prop} [Std.Refl R] [Trans R R R]
    (hask : ∀ old, Keeps R (World.asking (Model.Client.complete .summary (promptFor old))))
    (hstore : ∀ uid summary bound, Keeps R (World.foldHistory uid summary bound)) (policy : Policy) (s : Session)
    (ms : List Message) : Keeps R (fold policy s ms) := by
  have hsummarise (old : List Message) : Keeps R (summarise old) := by
    refine (hask old).settle.bind fun reply => ?_
    cases reply with
    | error e => exact .fail _
    | ok text =>
      simp only
      split
      · exact .fail _
      · exact .done _
  have hstored (old recent : List Message) (text : String) : Keeps R (store s old recent text) := by
    refine (Keeps.ofExcept _).bind fun bound => (hstore s.uid (extend s.summary text) bound).settle.bind fun updated => ?_
    cases updated with
    | error e => exact .fail _
    | ok updated => exact .done _
  cases hn : oldCount? policy ms with
  | none =>
    rw [fold_none hn]
    exact .done _
  | some n =>
    rw [fold_some hn]
    exact (hsummarise _).bind fun text => hstored _ _ text

/-- **Whatever the model answers, it was shown the messages**, and a text that is taken for a summary has something in it. -/
theorem summarise_ends (old : List Message) (w : World) :
    Ends (summarise old) w fun r w' => w'.chats = w.chats ∧ w.Onward w' ∧
      promptFor old ∈ w'.model.prompts ∧ ∀ text, r = .ok text → text ≠ "" := by
  have hasked : ∀ (c : Model.Client) (p : Model.Purpose) (prompt : String),
      (c.complete p prompt).2.prompts = c.prompts ++ [prompt] := fun _ _ _ => rfl
  unfold Ends summarise
  rw [Attempt.settle_bind_run]
  generalize hr : (World.asking (Model.Client.complete .summary (promptFor old))) w = r
  have hw : r.2.chats = w.chats ∧ w.Onward r.2 ∧ promptFor old ∈ r.2.model.prompts := by
    rw [← hr]
    exact ⟨rfl, ⟨rfl, ⟨_, (hasked w.model _ _).symm⟩⟩, hasked w.model _ _ ▸ List.mem_append_right _ List.mem_cons_self⟩
  cases r.1 with
  | error e => exact ⟨hw.1, hw.2.1, hw.2.2, fun text h => by cases h⟩
  | ok text =>
    by_cases hblank : (Text.strip text).isEmpty = true
    · simp only [hblank, if_true]
      exact ⟨hw.1, hw.2.1, hw.2.2, fun text h => by cases h⟩
    · simp only [hblank]
      refine ⟨hw.1, hw.2.1, hw.2.2, fun x hx => ?_⟩
      cases hx
      rintro rfl
      exact hblank (by decide)

/-- **The bound of a compaction is the one of the messages it is given**, and the rest is the store's: the summary is
committed or nothing is, and where it is, only the reading of the session can still fail. -/
theorem storeUnder_ends (strikes : Strikes) (s : Session) (old recent : List Message) (text : String) (w : World) :
    Ends (storeUnder strikes s old recent text) w fun r w' => World.Beside w w' ∧
      ((w'.chats = w.chats ∧ (∀ kept s', r ≠ .ok (kept, some s')) ∧ ∀ bound t, firstKept old recent = .ok bound →
          ¬World.Commits strikes s.uid (extend s.summary text) bound w t) ∨
        ∃ bound, firstKept old recent = .ok bound ∧
          World.Commits strikes s.uid (extend s.summary text) bound w w'.chats ∧
          ((∃ f, w.rereadFault? = some f ∧ ∃ cause, r = .error (.summaryNotStored cause)) ∨
            w.rereadFault? = none ∧ ∃ s', r = .ok (recent, some s') ∧ w'.chats.session? s.uid = some s')) := by
  unfold storeUnder
  cases hb : firstKept old recent with
  | error e =>
    exact ⟨⟨rfl, rfl, rfl, rfl, rfl⟩, .inl ⟨rfl, (fun _ _ h => by cases h), fun bound t h => by cases h⟩⟩
  | ok bound =>
    have hfold := World.foldHistoryUnder_ends strikes s.uid (extend s.summary text) bound w
    unfold Ends at hfold ⊢
    rw [Attempt.bind_run_ok (Attempt.ofExcept_run _ _), Attempt.settle_bind_run]
    generalize World.foldHistoryUnder strikes s.uid (extend s.summary text) bound w = ran at hfold ⊢
    obtain ⟨r, w'⟩ := ran
    obtain ⟨hbeside, ⟨hsame, hno, hnever⟩ | ⟨hc, ⟨f, hf, e, rfl⟩ | ⟨hf, x, rfl, hx⟩⟩⟩ := hfold
    · have hnever' (bound' : Int) (t : Table) (h : (.ok bound : Except Failure Int) = .ok bound') :
          ¬World.Commits strikes s.uid (extend s.summary text) bound' w t := by
        cases h
        exact hnever t
      cases r with
      | error e => exact ⟨hbeside, .inl ⟨hsame, (fun _ _ h => by cases h), hnever'⟩⟩
      | ok updated =>
        refine ⟨hbeside, .inl ⟨hsame, fun kept s' h => ?_, hnever'⟩⟩
        cases h
        exact hno s' rfl
    · exact ⟨hbeside, .inr ⟨bound, rfl, hc, .inl ⟨f, hf, _, rfl⟩⟩⟩
    · exact ⟨hbeside, .inr ⟨bound, rfl, hc, .inr ⟨hf, x, rfl, hx⟩⟩⟩

theorem store_ends (s : Session) (old recent : List Message) (text : String) (w : World) :
    Ends (store s old recent text) w fun r w' => w.Onward w' ∧
      ((w'.chats = w.chats ∧ ∀ kept s', r ≠ .ok (kept, some s')) ∨
        Stored s old recent text w.chats w'.chats ∧
          (∀ kept s', r = .ok (kept, some s') → w'.chats.session? s.uid = some s') ∧
          (w.Steady → ∃ s', r = .ok (recent, some s'))) := by
  refine (storeUnder_ends unstruck s old recent text w).mono fun r w' h => ⟨h.1.onward, ?_⟩
  obtain ⟨hsame, hno, -⟩ | ⟨bound, hb, hc, ⟨f, hf, cause, rfl⟩ | ⟨-, x, rfl, hx⟩⟩ := h.2
  · exact .inl ⟨hsame, hno⟩
  · refine .inr ⟨⟨bound, w.clock, hb, hc.compact⟩, (fun _ _ h => by cases h), fun hw => ?_⟩
    rw [World.rereadFault?, hw] at hf
    cases hf
  · refine .inr ⟨⟨bound, w.clock, hb, hc.compact⟩, fun kept s' h => ?_, fun _ => ⟨x, rfl⟩⟩
    cases h
    exact hx

end Compaction

/-! ## Steps -/

namespace Stage

/-- What a step can come to. -/
inductive Moves (q : Request) (w w' : World) : Stage → Stage → Prop
  | loads {s : Session} (chats : w'.chats = w.chats) (found : w.chats.session? q.uid = some s)
    (own : s.owner = q.user) : Moves q w w' .waiting (.loaded s)
  | passes {s : Session} (chats : w'.chats = w.chats) : Moves q w w' (.loaded s) (.over none)
  | lists {s : Session} {n : Nat} (chats : w'.chats = w.chats)
    (count : oldCount? q.policy (w.chats.live s.id) = some n) :
    Moves q w w' (.loaded s) (.listed s ((w.chats.live s.id).take n) ((w.chats.live s.id).drop n))
  | summarises {s : Session} {old recent : List Message} {text : String} (chats : w'.chats = w.chats)
    (asked : promptFor old ∈ w'.model.prompts) (written : text ≠ "") :
    Moves q w w' (.listed s old recent) (.summarised s old recent text)
  | stores {s : Session} {old recent : List Message} {text : String}
    (stored : Stored s old recent text w.chats w'.chats) :
    Moves q w w' (.summarised s old recent text) (.over (some (old, text)))
  /-- The summary is stored, and a fault strikes when the session is read again. -/
  | loses {s : Session} {old recent : List Message} {text : String} (struck : ¬w.Steady)
    (stored : Stored s old recent text w.chats w'.chats) :
    Moves q w w' (.summarised s old recent text) .failed
  | fails {st : Stage} (chats : w'.chats = w.chats) (unfinished : ∀ folded, st ≠ .over folded) : Moves q w w' st .failed
  | rests {folded : Option (List Message × String)} (chats : w'.chats = w.chats) :
    Moves q w w' (.over folded) (.over folded)

/-- The session and the messages that a request is about to fold away. -/
def pending : Stage → Option (Session × List Message)
  | .listed s old _ => some (s, old)
  | .summarised s old _ _ => some (s, old)
  | _ => none

/-- What a request has folded, and into which text. -/
def folded : Stage → Option (List Message × String)
  | .over folded => folded
  | _ => none

theorem folded_eq_some {st : Stage} {f : List Message × String} : st.folded = some f ↔ st = .over (some f) := by
  cases st <;> simp [folded]

namespace Moves

variable {q : Request} {w w' : World} {st st' : Stage}

/-- The tables change only where a summary is stored. -/
theorem chats (h : Moves q w w' st st') : w'.chats = w.chats ∨ ∃ s old recent text,
    st = .summarised s old recent text ∧ (st' = .over (some (old, text)) ∨ st' = .failed) ∧
      Stored s old recent text w.chats w'.chats := by
  cases h with
  | loads hc => exact .inl hc
  | passes hc => exact .inl hc
  | lists hc => exact .inl hc
  | summarises hc => exact .inl hc
  | stores h => exact .inr ⟨_, _, _, _, rfl, .inl rfl, h⟩
  | loses _ h => exact .inr ⟨_, _, _, _, rfl, .inr rfl, h⟩
  | fails hc => exact .inl hc
  | rests hc => exact .inl hc

theorem pending (h : Moves q w w' st st') {s : Session} {old : List Message} (hp : st'.pending = some (s, old)) :
    st.pending = some (s, old) ∨ st = .loaded s ∧
      ∃ n, oldCount? q.policy (w.chats.live s.id) = some n ∧ old = (w.chats.live s.id).take n := by
  cases h with
  | lists _ hn =>
    cases hp
    exact .inr ⟨rfl, _, hn, rfl⟩
  | summarises =>
    cases hp
    exact .inl rfl
  | _ => cases hp

theorem folded (h : Moves q w w' st st') {old : List Message} {text : String} (hf : st'.folded = some (old, text)) :
    st.folded = some (old, text) ∧ w'.chats = w.chats ∨ ∃ s recent, st = .summarised s old recent text ∧
      Stored s old recent text w.chats w'.chats := by
  cases h with
  | stores h =>
    cases hf
    exact .inr ⟨_, _, rfl, h⟩
  | rests hc => exact .inl ⟨hf, hc⟩
  | _ => cases hf

theorem loaded {s : Session} (h : Moves q w w' st (.loaded s)) : st = .waiting ∧ w.chats.session? q.uid = some s := by
  cases h with
  | loads _ hfound => exact ⟨rfl, hfound⟩

end Moves

/-! ## What each step comes to -/

theorem ownSession_ends (user : Int) (uid : String) (w : World) :
    Ends (Http.ownSession user uid) w fun r w' => w' = w.chatUsed ∧
      ∀ s, r = .ok s → w.chats.session? uid = some s ∧ s.owner = user := by
  refine (World.findSession_ends uid w).bind ?_ fun e w' h => ⟨h.1, fun s hs => by cases hs⟩
  rintro found w' ⟨rfl, hfound⟩
  cases found with
  | none => exact ⟨rfl, fun s hs => by cases hs⟩
  | some s =>
    by_cases ho : s.owner = user
    · simp only [Ends, ho, beq_self_eq_true, if_true]
      refine ⟨rfl, fun x hx => ?_⟩
      cases hx
      exact ⟨hfound s rfl, ho⟩
    · have hne : (s.owner == user) = false := by simpa using ho
      simp only [Ends, hne, Bool.false_eq_true, if_false]
      exact ⟨rfl, fun x hx => by cases hx⟩

theorem listing_ends (session : Int) (w : World) :
    Ends (listing session) w fun r w' => w' = w.chatUsed ∧
      ∀ ms, r = .ok ms → ms = w.chats.live session := by
  refine (World.messagesOf_ends session w).bind ?_ fun e w' h => ⟨h.1, fun ms hms => by cases hms⟩
  rintro listed w' ⟨rfl, hlisted⟩
  cases listed with
  | none => exact ⟨rfl, fun ms hms => by cases hms⟩
  | some listed =>
    refine ⟨rfl, fun ms hms => ?_⟩
    cases hms
    exact hlisted _ rfl

/-- A summary that is not stored, or stored and not read again, ends the request. -/
theorem Moves.of_store {q : Request} {s : Session} {old recent : List Message} {text : String} {w w' : World}
    {r : Except Failure (List Message × Option Session)}
    (h : (w'.chats = w.chats ∧ ∀ kept s', r ≠ .ok (kept, some s')) ∨
      Stored s old recent text w.chats w'.chats ∧ (∀ kept s', r = .ok (kept, some s') → w'.chats.session? s.uid = some s') ∧
        (w.Steady → ∃ s', r = .ok (recent, some s'))) (hr : ∀ kept s', r ≠ .ok (kept, some s')) :
    Moves q w w' (.summarised s old recent text) .failed := by
  obtain ⟨hsame, -⟩ | ⟨hstored, -, hsteady⟩ := h
  · exact .fails hsame fun _ h => by cases h
  · refine .loses (fun hw => ?_) hstored
    obtain ⟨s', hs'⟩ := hsteady hw
    exact hr recent s' hs'

theorem next_ends (q : Request) (w : World) : ∀ st : Stage,
    Ends (st.next q) w fun r w' => w.Onward w' ∧ Moves q w w' st (reached r)
  | .waiting => by
    refine (ownSession_ends q.user q.uid w).bind ?_ ?_
    · rintro s w' ⟨rfl, hs⟩
      exact ⟨(World.beside_chatUsed w).onward, .loads rfl (hs s rfl).1 (hs s rfl).2⟩
    · rintro e w' ⟨rfl, -⟩
      exact ⟨(World.beside_chatUsed w).onward, .fails rfl fun _ h => by cases h⟩
  | .loaded s => by
    refine (listing_ends s.id w).bind ?_ ?_
    · rintro ms w' ⟨rfl, hms⟩
      have hms := hms ms rfl
      subst hms
      cases hn : oldCount? q.policy (w.chats.live s.id) with
      | none => exact ⟨(World.beside_chatUsed w).onward, .passes rfl⟩
      | some n => exact ⟨(World.beside_chatUsed w).onward, .lists rfl hn⟩
    · rintro e w' ⟨rfl, -⟩
      exact ⟨(World.beside_chatUsed w).onward, .fails rfl fun _ h => by cases h⟩
  | .listed s old recent => by
    refine (Compaction.summarise_ends old w).bind ?_ ?_
    · rintro text w' ⟨hchats, honward, hasked, htext⟩
      exact ⟨honward, .summarises hchats hasked (htext text rfl)⟩
    · rintro e w' ⟨hchats, honward, -⟩
      exact ⟨honward, .fails hchats fun _ h => by cases h⟩
  | .summarised s old recent text => by
    refine (Compaction.store_ends s old recent text w).bind ?_ ?_
    · rintro ⟨kept, updated⟩ w' ⟨honward, hchats⟩
      cases updated with
      | none => exact ⟨honward, .of_store hchats fun _ _ h => by cases h⟩
      | some s' =>
        refine ⟨honward, ?_⟩
        obtain ⟨-, hno⟩ | ⟨hstored, -⟩ := hchats
        · exact absurd rfl (hno kept s')
        · exact .stores hstored
    · rintro e w' ⟨honward, hchats⟩
      exact ⟨honward, .of_store hchats fun _ _ h => by cases h⟩
  | .over folded => ⟨.refl w, .rests rfl⟩
  | .failed => ⟨.refl w, .fails rfl fun _ h => by cases h⟩

/-- **What a step of a request comes to**, for any faults and any replies. -/
theorem advance_moves (q : Request) (st : Stage) (w : World) :
    Moves q w (st.advance q w).2 st (st.advance q w).1 := (next_ends q w st).2

theorem advance_onward (q : Request) (st : Stage) (w : World) : w.Onward (st.advance q w).2 := (next_ends q w st).1

end Stage

/-! ## Without a break -/

namespace Request

variable {q : Request} {w w' : World}

theorem step_ok (st : Stage) {st' : Stage} (h : st.next q w = (.ok st', w')) : q.step (st, w) = (st', w') := by
  rw [step, Stage.advance, h]
  rfl

theorem step_error (st : Stage) {e : Failure} (h : st.next q w = (.error e, w')) : q.step (st, w) = (.failed, w') := by
  rw [step, Stage.advance, h]
  rfl

/-- A request comes to the world that a compaction comes to, and it is over just if the compaction has an answer. -/
def Follows (p : Stage × World) (r : Except Failure (List Message × Option Session) × World) : Prop :=
  p.2 = r.2 ∧ ((∃ folded, p.1 = .over folded) ↔ ∃ kept s, r.1 = .ok (kept, some s))

theorem follows_over (folded : Option (List Message × String)) (kept : List Message) (s : Session) (w : World) :
    Follows (.over folded, w) (.ok (kept, some s), w) := ⟨rfl, fun _ => ⟨kept, s, rfl⟩, fun _ => ⟨folded, rfl⟩⟩

theorem follows_failed {r : Except Failure (List Message × Option Session)} (h : ∀ kept s, r ≠ .ok (kept, some s))
    (w : World) : Follows (.failed, w) (r, w) :=
  ⟨rfl, fun ⟨_, he⟩ => (by cases he), fun ⟨kept, s, he⟩ => absurd he (h kept s)⟩

theorem follows_error (e : Failure) (w : World) : Follows (.failed, w) (.error e, w) :=
  follows_failed (fun _ _ h => by cases h) w

theorem follows_summarised (q : Request) (s : Session) (old recent : List Message) (text : String) (w : World) :
    Follows (q.step (.summarised s old recent text, w)) (Compaction.store s old recent text w) := by
  rcases h : Compaction.store s old recent text w with ⟨_ | ⟨kept, updated⟩, w'⟩
  · rw [step_error (.summarised s old recent text) (Attempt.bind_run_error h)]
    exact follows_error _ w'
  · have hnext : Stage.next q (.summarised s old recent text) w = _ := Attempt.bind_run_ok h
    cases updated with
    | none =>
      rw [step_ok _ hnext]
      exact follows_failed (fun _ _ h => by cases h) w'
    | some s' =>
      rw [step_ok _ hnext]
      exact follows_over _ kept s' w'

/-- **The steps without a break are what a turn begins with.** -/
theorem alone_follows (q : Request) (w : World) : Follows (q.alone w) (q.begun w) := by
  rw [alone, begun]
  rcases hload : Http.ownSession q.user q.uid w with ⟨_ | s, w₁⟩
  · rw [step_error .waiting (Attempt.bind_run_error hload), Attempt.bind_run_error hload]
    exact follows_error _ w₁
  rw [step_ok .waiting (Attempt.bind_run_ok hload), Attempt.bind_run_ok hload]
  rcases hlist : listing s.id w₁ with ⟨_ | ms, w₂⟩
  · rw [step_error (.loaded s) (Attempt.bind_run_error hlist), Attempt.bind_run_error hlist]
    exact follows_error _ w₂
  have hnext : Stage.next q (.loaded s) w₁ = _ := Attempt.bind_run_ok hlist
  rw [Attempt.bind_run_ok hlist]
  cases hn : oldCount? q.policy ms with
  | none =>
    simp only [hn] at hnext
    rw [step_ok _ hnext, Compaction.fold_none hn]
    exact follows_over none ms s w₂
  | some n =>
    simp only [hn] at hnext
    rw [step_ok _ hnext, Compaction.fold_some hn]
    rcases hsum : Compaction.summarise (ms.take n) w₂ with ⟨_ | text, w₃⟩
    · rw [step_error (.listed s _ _) (Attempt.bind_run_error hsum), Attempt.bind_run_error hsum]
      exact follows_error _ w₃
    · rw [step_ok (.listed s _ _) (Attempt.bind_run_ok hsum), Attempt.bind_run_ok hsum]
      exact follows_summarised q s _ _ text w₃

end Request

/-- A session without messages, and a model that answers every message and summarises in three words, the second of which
is blank. -/
def newSession : World :=
  { World.fresh 5 (.fresh ⟨[], [], fun _ _ => none, fun _ => none, fun _ _ => none⟩ ⟨fun _ _ => .ok [[]], 0⟩ 0)
      (.fresh (.always "yes") ⟨[.text "first", .text " ", .text "last"], fun _ => .failed "down", 0⟩ (.always "Chat")) with
    chats := ⟨[⟨1, "s", 1, defaultTitle, "", 0, 0⟩], [], 1, 0⟩ }

end Chat
end NoteAgent
