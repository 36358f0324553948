import Mathlib.Data.List.Infix
import NoteAgent.Machine
import NoteAgent.Proofs.ChatOverlap
/-!
# ChatRace — when two requests that overlap keep both summaries

A compaction adds its text to the summary of the session that its request loaded, and stores the whole.  What another
request stored in between is overwritten.  For two requests of one kind the loss is exact (`keeps_iff_heeds`): every deleted
message is still accounted for by the summary if and only if, whenever one request has folded its messages while the other
has loaded the session and not yet listed the messages, what the other goes on to store has the first one's text in it.
Before the loading it has, since the other loads it; after the listing it need not, since the other folds the same messages.
So nothing is lost if no request stores its summary between these two steps of the other (`keeps_of_apart`).
-/
namespace NoteAgent
namespace Chat

open Compaction (oldCount? extend promptFor)
open Table (Stored)

theorem contains_extend (old new : String) : Text.contains (extend old new) new = true := by
  by_cases h : old = ""
  · rw [h, Compaction.extend_empty, Text.contains_iff]
  · rw [Compaction.extend_of_ne h]
    exact Text.contains_join_right old new

theorem contains_extend_of_contains {old text : String} (h : Text.contains old text = true) (new : String) :
    Text.contains (extend old new) text = true := by
  by_cases hold : old = ""
  · rw [hold, Text.contains_iff] at h
    rw [Text.contains_iff, show text.toList = [] from List.infix_nil.1 h]
    exact List.nil_infix
  · rw [Compaction.extend_of_ne hold]
    exact Text.contains_join_left h new

namespace Hall

/-! ## Two requests that overlap -/

/-- The summary of the session that requests are made for. -/
def summary (q : Request) (h : Hall) : String := ((h.world.chats.session? q.uid).map (·.summary)).getD ""

/-- Two requests `a` and `b` overlap in some way and are both over in the end, neither having failed.  Messages are stored
in their session only when one of them is over, since a request stores none before. -/
structure Overlap (q : Request) (w : World) (s : Session) (a b : Nat) (es : List Happening) : Prop where
  sound : w.chats.Sound
  found : w.chats.session? q.uid = some s
  two : ∀ i, .step i ∈ es → i = a ∨ i = b
  posts : ∀ pre role content toolName post, es = pre ++ .post s.id role content toolName :: post →
    ∃ i folded, (i = a ∨ i = b) ∧ ((alike q w).run pre).stages i = .over folded
  ends : ∀ i, i = a ∨ i = b → ∃ folded, ((alike q w).run es).stages i = .over folded

/-- The message has been folded into a text, by a prompt that showed it, and the text is still in the summary. -/
def InSummary (q : Request) (a b : Nat) (h : Hall) (m : Message) : Prop :=
  ∃ i ∈ [a, b], ∃ f ∈ (h.stages i).folded, m ∈ f.1 ∧ promptFor f.1 ∈ h.world.model.prompts ∧
    Text.contains (summary q h) f.2 = true

instance (q : Request) (a b : Nat) (h : Hall) (m : Message) : Decidable (InSummary q a b h m) :=
  inferInstanceAs (Decidable (∃ _ ∈ _, _))

/-- **No summary is lost**: every message that was in the session at some time and is not there in the end is in the
summary. -/
def Keeps (q : Request) (w : World) (s : Session) (a b : Nat) (es : List Happening) : Prop :=
  ∀ pre ∈ es.inits, ∀ m ∈ ((alike q w).run pre).world.chats.live s.id,
    m ∉ ((alike q w).run es).world.chats.messages → InSummary q a b ((alike q w).run es) m

/-- Whether a request that has only loaded its session, and is at the stage `final` in the end, stores what has the text in
it of another that is over. -/
def heeds (loaded final other : Stage) : Bool :=
  match loaded, final, other with
  | .loaded x, .over (some (_, text')), .over (some (_, text)) => Text.contains (extend x.summary text') text
  | _, _, _ => true

/-- Whenever one request is over and the other has only loaded its session, the other one heeds it. -/
def Heeds (q : Request) (w : World) (a b : Nat) (es : List Happening) : Prop :=
  ∀ pre ∈ es.inits, ∀ i ∈ [a, b], ∀ j ∈ [a, b], i ≠ j →
    heeds (((alike q w).run pre).stages j) (((alike q w).run es).stages j) (((alike q w).run pre).stages i) = true

/-- No request stores its summary while the other has loaded the session and not yet listed the messages. -/
def Apart (q : Request) (w : World) (a b : Nat) (es : List Happening) : Prop :=
  ∀ pre e post, es = pre ++ e :: post → ∀ i j x folded, (i = a ∨ i = b) → (j = a ∨ j = b) → i ≠ j →
    ((alike q w).run pre).stages j = .loaded x → ((alike q w).run (pre ++ [e])).stages i = .over (some folded) →
      ((alike q w).run pre).stages i = .over (some folded)

instance (q : Request) (w : World) (s : Session) (a b : Nat) (es : List Happening) : Decidable (Keeps q w s a b es) :=
  inferInstanceAs (Decidable (∀ _ ∈ _, _))

instance (q : Request) (w : World) (a b : Nat) (es : List Happening) : Decidable (Heeds q w a b es) :=
  inferInstanceAs (Decidable (∀ _ ∈ _, _))

/-- A stage after which nothing is left to do is the last. -/
theorem stages_runFrom_of_last {qs : Nat → Request} {i : Nat} {st : Stage} (hst : ∀ q w, st.advance q w = (st, w))
    {h : Hall} (hi : h.stages i = st) (w : World) (es : List Happening) :
    ((machine qs w).runFrom h es).stages i = st := by
  refine (machine qs w).runFrom_keeps (P := fun h => h.stages i = st) (fun h e hi => ?_) hi es
  cases e with
  | step j =>
    by_cases hj : i = j
    · subst hj
      simp [machine, after, hi, hst]
    · exact ((after_step qs h j).2 i hj).trans hi
  | post => exact hi
  | wait => exact hi

section
variable {q : Request} {w : World} {s : Session} {a b : Nat} {es : List Happening}

theorem heeds_intro (h : ∀ {pre post : List Happening} {i j : Nat} {x : Session} {old old' : List Message}
    {text text' : String}, es = pre ++ post → (i = a ∨ i = b) → (j = a ∨ j = b) → i ≠ j →
      ((alike q w).run pre).stages i = .over (some (old, text)) → ((alike q w).run pre).stages j = .loaded x →
      ((alike q w).run es).stages j = .over (some (old', text')) → Text.contains (extend x.summary text') text = true) :
    Heeds q w a b es := by
  intro pre hpre i hi j hj hij
  obtain ⟨post, hes⟩ := (List.mem_inits _ _).1 hpre
  unfold heeds
  split
  · rename_i hloaded hend hover
    exact h hes.symm (List.mem_pair.1 hi) (List.mem_pair.1 hj) hij hover hloaded hend
  · rfl

namespace Overlap

theorem sees (ho : Overlap q w s a b es) (pre : List Happening) : Sees (fun _ => q) ((alike q w).run pre) :=
  sees_run ho.sound pre

theorem session (ho : Overlap q w s a b es) (pre : List Happening) :
    ∃ x, ((alike q w).run pre).world.chats.session? q.uid = some x ∧ x.id = s.id :=
  ((sees_start ho.sound).runFrom w pre).2.chats.session? (ho.sees pre).sound ho.found

theorem id_eq (ho : Overlap q w s a b es) (pre : List Happening) {x : Session}
    (hx : Named ((alike q w).run pre).world.chats q.uid x) : x.id = s.id := by
  obtain ⟨y, hy, hid⟩ := ho.session pre
  rw [← hx.id_eq (ho.sees pre).sound hy, hid]

theorem not_failed (ho : Overlap q w s a b es) {pre post : List Happening} (hes : es = pre ++ post) {i : Nat}
    (hi : i = a ∨ i = b) : ((alike q w).run pre).stages i ≠ .failed := by
  intro hfailed
  obtain ⟨folded, hover⟩ := ho.ends i hi
  rw [hes, Machine.run_append, stages_runFrom_of_last (fun _ _ => rfl) hfailed w post] at hover
  cases hover

theorem stays {pre post : List Happening} {i : Nat} {folded : Option (List Message × String)}
    (hi : ((alike q w).run pre).stages i = .over folded) : ((alike q w).run (pre ++ post)).stages i = .over folded := by
  rw [Machine.run_append]
  exact stages_runFrom_of_last (fun _ _ => rfl) hi w post

/-- What can happen next: one of the two requests moves, or all stages and the summary stay, and so do the messages of the
session unless a request is over. -/
theorem next (ho : Overlap q w s a b es) {pre post : List Happening} {e : Happening} (hes : es = pre ++ e :: post) :
    (∃ k, (k = a ∨ k = b) ∧
      Stage.Moves q ((alike q w).run pre).world ((alike q w).run (pre ++ [e])).world (((alike q w).run pre).stages k)
        (((alike q w).run (pre ++ [e])).stages k) ∧
      ∀ j, j ≠ k → ((alike q w).run (pre ++ [e])).stages j = ((alike q w).run pre).stages j) ∨
    ((alike q w).run (pre ++ [e])).stages = ((alike q w).run pre).stages ∧
      summary q ((alike q w).run (pre ++ [e])) = summary q ((alike q w).run pre) ∧
      ((∃ i folded, (i = a ∨ i = b) ∧ ((alike q w).run pre).stages i = .over folded) ∨
        ((alike q w).run (pre ++ [e])).world.chats.live s.id = ((alike q w).run pre).world.chats.live s.id) := by
  rw [Machine.run_concat, machine_after]
  cases e with
  | step k =>
    obtain ⟨hmoves, hothers⟩ := after_step (fun _ => q) ((alike q w).run pre) k
    exact .inl ⟨k, ho.two k (hes ▸ List.mem_append_right _ List.mem_cons_self), hmoves, hothers⟩
  | wait clock => exact .inr ⟨rfl, rfl, .inr rfl⟩
  | post session role content toolName =>
    have hgrows := (after_post (fun _ => q) ((alike q w).run pre) session role content toolName).1
    refine .inr ⟨rfl, ?_, ?_⟩
    · obtain ⟨x, hx, -⟩ := ho.session pre
      obtain ⟨x', hx', -, hsummary⟩ := hgrows.session? hx
      rw [summary, summary, hx, hx']
      exact hsummary
    · by_cases hs : session = s.id
      · subst hs
        exact .inl (ho.posts pre role content toolName post hes)
      · exact .inr (hgrows.live_of_ne hs)

/-- **Until a request is over, both fold the same messages**, the ones that were there at the start. -/
theorem fresh (ho : Overlap q w s a b es) : ∀ pre post, es = pre ++ post →
    (∀ i folded, (i = a ∨ i = b) → ((alike q w).run pre).stages i ≠ .over folded) →
    ((alike q w).run pre).world.chats.live s.id = w.chats.live s.id ∧
      ∀ i x old, (i = a ∨ i = b) → (((alike q w).run pre).stages i).pending = some (x, old) →
        ∃ n, oldCount? q.policy (w.chats.live s.id) = some n ∧ old = (w.chats.live s.id).take n := by
  refine beginnings_induction (fun _ => ⟨rfl, fun i x old _ hp => by cases hp⟩) fun pre e post hes ih hnone => ?_
  have hes' : es = (pre ++ [e]) ++ post := by rw [hes, List.append_assoc]; rfl
  have hnone' : ∀ i folded, (i = a ∨ i = b) → ((alike q w).run pre).stages i ≠ .over folded :=
    fun i folded hi h => hnone i folded hi (stays h)
  -- nobody is over, so this happening stores neither a summary nor a message of the session
  obtain ⟨hlive, hpending⟩ := ih hnone'
  obtain ⟨k, hk, hmoves, hothers⟩ | ⟨hstages, -, hposted⟩ := ho.next hes
  · have hchats : ((alike q w).run (pre ++ [e])).world.chats = ((alike q w).run pre).world.chats := by
      obtain hsame | ⟨_, _, _, _, -, hover | hfailed, -⟩ := hmoves.chats
      · exact hsame
      · exact absurd hover (hnone k _ hk)
      · exact absurd hfailed (ho.not_failed hes' hk)
    refine ⟨by rw [hchats, hlive], fun i x old hi hp => ?_⟩
    by_cases hik : i = k
    · subst hik
      obtain hbefore | ⟨hloaded, n, hn, rfl⟩ := hmoves.pending hp
      · exact hpending i x old hi hbefore
      · have hsees := (ho.sees pre).stages i
        rw [hloaded] at hsees
        rw [ho.id_eq pre hsees, hlive] at hn ⊢
        exact ⟨n, hn, rfl⟩
    · rw [hothers i hik] at hp
      exact hpending i x old hi hp
  · rw [hstages]
    refine ⟨?_, hpending⟩
    obtain ⟨i, folded, hi, hover⟩ | hsame := hposted
    · exact absurd hover (hnone' i folded hi)
    · rw [hsame, hlive]

theorem summary_stored (ho : Overlap q w s a b es) (pre : List Happening) {h' : Hall} {x : Session}
    {old recent : List Message} {text : String} (hx : Named ((alike q w).run pre).world.chats q.uid x)
    (hstored : Stored x old recent text ((alike q w).run pre).world.chats h'.world.chats) :
    summary q h' = extend x.summary text := by
  obtain ⟨y, hy, -⟩ := ho.session pre
  obtain ⟨x', hx', -, hsummary⟩ := hstored.session? (hx.1.symm ▸ hy)
  rw [hx.1] at hx'
  rw [summary, hx']
  exact hsummary

/-- As long as both have messages pending, these are the same. -/
theorem pending_eq (ho : Overlap q w s a b es) {pre post : List Happening} (hes : es = pre ++ post) {i j : Nat}
    {x y : Session} {old old' : List Message} (hi : i = a ∨ i = b) (hj : j = a ∨ j = b) (hij : i ≠ j)
    (hpi : (((alike q w).run pre).stages i).pending = some (x, old))
    (hpj : (((alike q w).run pre).stages j).pending = some (y, old')) :
    old' = old := by
  have hnone : ∀ l folded, (l = a ∨ l = b) → ((alike q w).run pre).stages l ≠ .over folded := by
    intro l folded hl hover
    obtain hli | hlj : l = i ∨ l = j := by omega
    · rw [← hli, hover] at hpi
      cases hpi
    · rw [← hlj, hover] at hpj
      cases hpj
  -- neither is over, so both listings are of what was there at the start
  obtain ⟨-, hfresh⟩ := ho.fresh pre post hes hnone
  obtain ⟨n, hn, rfl⟩ := hfresh i x old hi hpi
  obtain ⟨n', hn', rfl⟩ := hfresh j y old' hj hpj
  cases hn.symm.trans hn'
  rfl

/-- What is accounted for at some beginning of the run: what either has folded stands in the summary under the text of one
of them, and what is yet to be stored will leave it there. -/
structure Accounts (q : Request) (w : World) (a b : Nat) (es pre : List Happening) : Prop where
  covered : ∀ i old text, (i = a ∨ i = b) → ((alike q w).run pre).stages i = .over (some (old, text)) →
    ∃ j text', (j = a ∨ j = b) ∧ ((alike q w).run pre).stages j = .over (some (old, text')) ∧
      Text.contains (summary q ((alike q w).run pre)) text' = true
  heeded : ∀ i j old text x old', (i = a ∨ i = b) → (j = a ∨ j = b) → i ≠ j →
    ((alike q w).run pre).stages i = .over (some (old, text)) →
    (((alike q w).run pre).stages j).pending = some (x, old') →
    old' = old ∨ ∀ old'' text'', ((alike q w).run es).stages j = .over (some (old'', text'')) →
      Text.contains (extend x.summary text'') text = true

theorem Accounts.same {pre : List Happening} {e : Happening} (h : Accounts q w a b es pre)
    (hstages : ((alike q w).run (pre ++ [e])).stages = ((alike q w).run pre).stages)
    (hsummary : summary q ((alike q w).run (pre ++ [e])) = summary q ((alike q w).run pre)) :
    Accounts q w a b es (pre ++ [e]) := by
  constructor
  · rw [hstages, hsummary]
    exact h.covered
  · rw [hstages]
    exact h.heeded

theorem summary_of_same {h h' : Hall} (hc : h'.world.chats = h.world.chats) : summary q h' = summary q h := by
  rw [summary, summary, hc]

namespace Accounts

variable {pre post : List Happening} {e : Happening} {k : Nat}

/-- What stands in the summary before a step of one of the two still does, or the step stores a text that makes up for it. -/
theorem covered_next (h : Accounts q w a b es pre) (ho : Overlap q w s a b es) (hes : es = (pre ++ [e]) ++ post)
    (hk : k = a ∨ k = b)
    (hmoves : Stage.Moves q ((alike q w).run pre).world ((alike q w).run (pre ++ [e])).world (((alike q w).run pre).stages k)
      (((alike q w).run (pre ++ [e])).stages k))
    (hothers : ∀ j, j ≠ k → ((alike q w).run (pre ++ [e])).stages j = ((alike q w).run pre).stages j) {i : Nat}
    {old : List Message} {text : String} (hi : i = a ∨ i = b)
    (hover : ((alike q w).run (pre ++ [e])).stages i = .over (some (old, text))) :
    ∃ j text', (j = a ∨ j = b) ∧ ((alike q w).run (pre ++ [e])).stages j = .over (some (old, text')) ∧
      Text.contains (summary q ((alike q w).run (pre ++ [e]))) text' = true := by
  have hsees := (ho.sees pre).stages k
  have hstays : ((alike q w).run pre).stages i = .over (some (old, text)) →
      ((alike q w).run (pre ++ [e])).world.chats = ((alike q w).run pre).world.chats → ∃ j text', (j = a ∨ j = b) ∧
        ((alike q w).run (pre ++ [e])).stages j = .over (some (old, text')) ∧
          Text.contains (summary q ((alike q w).run (pre ++ [e]))) text' = true := by
    intro hbefore hsame
    obtain ⟨j, text', hj, hjover, hcontains⟩ := h.covered i old text hi hbefore
    exact ⟨j, text', hj, stays hjover, by rw [summary_of_same hsame]; exact hcontains⟩
  by_cases hik : i = k
  · subst hik
    obtain ⟨hbefore, hsame⟩ | ⟨x, recent, hst, hstored⟩ := hmoves.folded (Stage.folded_eq_some.2 hover)
    · exact hstays (Stage.folded_eq_some.1 hbefore) hsame
    · rw [hst] at hsees
      refine ⟨i, text, hi, hover, ?_⟩
      rw [ho.summary_stored pre hsees.1 hstored]
      exact contains_extend _ _
  · rw [hothers i hik] at hover
    obtain hsame | ⟨x, old', recent, text', hst, hend, hstored⟩ := hmoves.chats
    · exact hstays hover hsame
    · have hend := hend.resolve_right (ho.not_failed hes hk)
      have hpending : (((alike q w).run pre).stages k).pending = some (x, old') := by rw [hst]; rfl
      rw [hst] at hsees
      have hsummary := ho.summary_stored pre hsees.1 hstored
      obtain rfl | hheeded := h.heeded i k old text x old' hi hk hik hover hpending
      · exact ⟨k, text', hk, hend, by rw [hsummary]; exact contains_extend _ _⟩
      · exact ⟨i, text, hi, stays hover, by rw [hsummary]; exact hheeded old' text' (hes ▸ stays hend)⟩

/-- Whoever lists the messages when the other one is over heeds it, and whoever has listed them before folds the same. -/
theorem heeded_next (h : Accounts q w a b es pre) (ho : Overlap q w s a b es) (hheeds : Heeds q w a b es)
    (hes : es = pre ++ e :: post)
    (hmoves : Stage.Moves q ((alike q w).run pre).world ((alike q w).run (pre ++ [e])).world (((alike q w).run pre).stages k)
      (((alike q w).run (pre ++ [e])).stages k))
    (hothers : ∀ j, j ≠ k → ((alike q w).run (pre ++ [e])).stages j = ((alike q w).run pre).stages j)
    (hk : k = a ∨ k = b) {i j : Nat} {x : Session} {old old' : List Message} {text : String}
    (hi : i = a ∨ i = b) (hj : j = a ∨ j = b) (hij : i ≠ j)
    (hover : ((alike q w).run (pre ++ [e])).stages i = .over (some (old, text)))
    (hpending : (((alike q w).run (pre ++ [e])).stages j).pending = some (x, old')) :
    old' = old ∨ ∀ old'' text'', ((alike q w).run es).stages j = .over (some (old'', text'')) →
      Text.contains (extend x.summary text'') text = true := by
  by_cases hjk : j = k
  · subst hjk
    rw [hothers i hij] at hover
    obtain hbefore | ⟨hloaded, -⟩ := hmoves.pending hpending
    · exact h.heeded i j old text x old' hi hj hij hover hbefore
    · refine .inr fun old'' text'' hend => ?_
      have hheeded := hheeds pre ((List.mem_inits _ _).2 ⟨e :: post, hes.symm⟩) i (List.mem_pair.2 hi) j
        (List.mem_pair.2 hj) hij
      rwa [hover, hloaded, hend] at hheeded
  · have hik : i = k := by omega
    subst hik
    rw [hothers j hjk] at hpending
    obtain ⟨hbefore, -⟩ | ⟨y, recent, hst, -⟩ := hmoves.folded (Stage.folded_eq_some.2 hover)
    · exact h.heeded i j old text x old' hi hj hij (Stage.folded_eq_some.1 hbefore) hpending
    · exact .inl (ho.pending_eq hes hi hj hij (by rw [hst]; rfl) hpending)

end Accounts

/-- **If what goes on to be stored heeds the other request, everything stays accounted for.** -/
theorem accounts (ho : Overlap q w s a b es) (hheeds : Heeds q w a b es) : ∀ pre post, es = pre ++ post →
    Accounts q w a b es pre := by
  refine beginnings_induction ⟨(fun i old text _ h => by cases h), fun i j old text x old' _ _ _ h => by cases h⟩
    fun pre e post hes ih => ?_
  have hes' : es = (pre ++ [e]) ++ post := by rw [hes, List.append_assoc]; rfl
  obtain ⟨k, hk, hmoves, hothers⟩ | ⟨hstages, hsummary, -⟩ := ho.next hes
  · constructor
    · exact fun i old text hi hover => ih.covered_next ho hes' hk hmoves hothers hi hover
    · exact fun i j old text x old' hi hj hij hover hpending =>
        ih.heeded_next ho hheeds hes hmoves hothers hk hi hj hij hover hpending
  · exact ih.same hstages hsummary

theorem folded_of_gone (ho : Overlap q w s a b es) {pre post : List Happening} (hes : es = pre ++ post) {m : Message}
    (hm : m ∈ ((alike q w).run pre).world.chats.messages) (hgone : m ∉ ((alike q w).run es).world.chats.messages) :
    ∃ i old text, (i = a ∨ i = b) ∧ ((alike q w).run es).stages i = .over (some (old, text)) ∧ m ∈ old := by
  obtain ⟨mid, e, rest, hsplit, hthere, hnot⟩ :=
    exists_ceasing (P := fun es => m ∈ ((alike q w).run es).world.chats.messages) post pre hm (hes ▸ hgone)
  rw [← hes] at hsplit
  have hsplit' : es = (mid ++ [e]) ++ rest := by rw [hsplit, List.append_assoc]; rfl
  have hafter : (alike q w).run (mid ++ [e]) = after (fun _ => q) ((alike q w).run mid) e := Machine.run_concat _ _ _
  obtain ⟨i, x, old, recent, text, rfl, hst, -, hold⟩ := (ho.sees mid).deletes hthere (hafter ▸ hnot)
  have hi := ho.two i (hsplit ▸ List.mem_append_right _ List.mem_cons_self)
  have hmoves := (after_step (fun _ => q) ((alike q w).run mid) i).1
  rw [hst, ← hafter] at hmoves
  obtain hsame | ⟨x', old', recent', text', hst', hend, -⟩ := hmoves.chats
  · exact absurd (hsame ▸ hthere) hnot
  · cases hst'
    exact ⟨i, old, text, hi, hsplit' ▸ stays (hend.resolve_right (ho.not_failed hsplit' hi)), hold⟩

/-- What a request is about to fold, or has folded, was in the session at some time before. -/
theorem shown (ho : Overlap q w s a b es) : ∀ pre post, es = pre ++ post → ∀ i old,
    ((∃ x, (((alike q w).run pre).stages i).pending = some (x, old)) ∨
      ∃ text, ((alike q w).run pre).stages i = .over (some (old, text))) →
    ∀ m ∈ old, ∃ pre' post', es = pre' ++ post' ∧ m ∈ ((alike q w).run pre').world.chats.live s.id := by
  refine beginnings_induction (fun i old h => ?_) fun pre e post hes ih i old h => ?_
  · obtain ⟨x, h⟩ | ⟨text, h⟩ := h
    · cases h
    · cases h
  · obtain ⟨k, hk, hmoves, hothers⟩ | ⟨hstages, -, -⟩ := ho.next hes
    · by_cases hik : i = k
      · subst hik
        obtain ⟨x, h⟩ | ⟨text, h⟩ := h
        · obtain hbefore | ⟨hloaded, n, -, rfl⟩ := hmoves.pending h
          · exact ih i old (.inl ⟨x, hbefore⟩)
          · have hsees := (ho.sees pre).stages i
            rw [hloaded] at hsees
            rw [ho.id_eq pre hsees]
            exact fun m hm => ⟨pre, e :: post, hes, List.mem_of_mem_take hm⟩
        · obtain ⟨hbefore, -⟩ | ⟨x, recent, hst, -⟩ := hmoves.folded (Stage.folded_eq_some.2 h)
          · exact ih i old (.inr ⟨text, Stage.folded_eq_some.1 hbefore⟩)
          · exact ih i old (.inl ⟨x, by rw [hst]; rfl⟩)
      · rw [hothers i hik] at h
        exact ih i old h
    · rw [hstages] at h
      exact ih i old h

/-- What a request can still come to that had loaded the session `x` when the messages `gone` were no longer there: it
folds other messages, and overwrites the summary. -/
def Overwrites (x : Session) (gone : List Message) (summary : String) : Stage → Prop
  | .waiting => False
  | .loaded y => y = x
  | .listed y old _ => y = x ∧ ∀ m ∈ old, m ∉ gone
  | .summarised y old _ _ => y = x ∧ ∀ m ∈ old, m ∉ gone
  | .over (some (old, text)) => summary = extend x.summary text ∧ ∀ m ∈ old, m ∉ gone
  | .over none => True
  | .failed => True

theorem overwrites (ho : Overlap q w s a b es) {pre : List Happening} {i j : Nat} {x : Session} {old : List Message}
    {text : String} (hi : i = a ∨ i = b) (hj : j = a ∨ j = b) (hij : i ≠ j)
    (hover : ((alike q w).run pre).stages i = .over (some (old, text)))
    (hloaded : ((alike q w).run pre).stages j = .loaded x)
    {post : List Happening} (hes : es = pre ++ post) : ∀ mid rest, post = mid ++ rest →
      Overwrites x old (summary q ((alike q w).run (pre ++ mid))) (((alike q w).run (pre ++ mid)).stages j) := by
  refine beginnings_induction ?_ fun mid e rest hpost ih => ?_
  · rw [List.append_nil, hloaded]
    rfl
  rw [← List.append_assoc]
  have hsplit : es = (pre ++ mid) ++ e :: rest := by rw [hes, hpost, List.append_assoc]
  have hover : ((alike q w).run (pre ++ mid)).stages i = .over (some (old, text)) := stays hover
  have hsees := (ho.sees (pre ++ mid)).stages
  obtain ⟨k, hk, hmoves, hothers⟩ | ⟨hstages, hsummary, -⟩ := ho.next hsplit
  · by_cases hjk : j = k
    · subst hjk
      have hseesj := hsees j
      generalize ((alike q w).run ((pre ++ mid) ++ [e])).stages j = st' at hmoves ⊢
      generalize hst : ((alike q w).run (pre ++ mid)).stages j = st at hmoves ih hseesj
      cases hmoves with
      | loads => cases ih
      | passes => trivial
      | lists =>
        -- what `i` folded was gone before this listing, and stays away
        have hgone := hsees i
        rw [hover] at hgone
        refine ⟨ih, fun m hm => fun hold => ?_⟩
        exact (hgone.2.2 m hold).1 (Table.mem_live.1 (List.mem_of_mem_take hm)).1
      | summarises => exact ih
      | stores hstored =>
        obtain ⟨rfl, hold⟩ := ih
        exact ⟨ho.summary_stored (pre ++ mid) hseesj.1 hstored, hold⟩
      | loses => trivial
      | fails => trivial
      | rests hc =>
        rw [summary_of_same hc]
        exact ih
    · have hik : i = k := by omega
      subst hik
      rw [hothers j hjk]
      rw [hover] at hmoves
      obtain hsame | ⟨_, _, _, _, hst, -⟩ := hmoves.chats
      · rw [summary_of_same hsame]
        exact ih
      · cases hst
  · rw [hstages, hsummary]
    exact ih

/-- **If no summary is lost, each request heeds the other**: what the other had folded before is in the summary only under
its own text. -/
theorem heeds_of_keeps (ho : Overlap q w s a b es) (hkeeps : Keeps q w s a b es) {pre post : List Happening}
    (hes : es = pre ++ post) {i j : Nat} {x : Session} {old old' : List Message} {text text' : String}
    (hi : i = a ∨ i = b) (hj : j = a ∨ j = b) (hij : i ≠ j)
    (hover : ((alike q w).run pre).stages i = .over (some (old, text)))
    (hloaded : ((alike q w).run pre).stages j = .loaded x)
    (hend : ((alike q w).run es).stages j = .over (some (old', text'))) :
    Text.contains (extend x.summary text') text = true := by
  have hiend : ((alike q w).run es).stages i = .over (some (old, text)) := hes ▸ stays hover
  have hsees := (ho.sees es).stages i
  rw [hiend] at hsees
  obtain ⟨-, hne, hgone⟩ := hsees
  obtain ⟨m, hm⟩ := List.exists_mem_of_ne_nil old hne
  obtain ⟨pre', post', hes', hthere⟩ := ho.shown es [] (List.append_nil es).symm i old (.inr ⟨text, hiend⟩) m hm
  obtain ⟨l, hl, ⟨old'', text''⟩, hf, hmem, -, hcontains⟩ :=
    hkeeps pre' ((List.mem_inits _ _).2 ⟨post', hes'.symm⟩) m hthere (hgone m hm).1
  have hlover := Stage.folded_eq_some.1 hf
  have hover' := ho.overwrites hi hj hij hover hloaded hes post [] (List.append_nil post).symm
  rw [← hes, hend] at hover'
  obtain ⟨hsummary, hold⟩ := hover'
  obtain rfl | rfl : l = j ∨ l = i := by
    have := List.mem_pair.1 hl
    omega
  · cases hend.symm.trans hlover
    exact absurd hm (hold m hmem)
  · cases hiend.symm.trans hlover
    rwa [hsummary] at hcontains

theorem keeps_of_heeds (ho : Overlap q w s a b es) (hheeds : Heeds q w a b es) : Keeps q w s a b es := by
  intro pre hpre m hthere hgone
  obtain ⟨post, hes⟩ := (List.mem_inits _ _).1 hpre
  obtain ⟨i, old, text, hi, hover, hold⟩ := ho.folded_of_gone hes.symm (Table.mem_live.1 hthere).1 hgone
  obtain ⟨j, text', hj, hjover, hcontains⟩ :=
    (ho.accounts hheeds es [] (List.append_nil es).symm).covered i old text hi hover
  have hsees := (ho.sees es).stages j
  rw [hjover] at hsees
  exact ⟨j, List.mem_pair.2 hj, (old, text'), Stage.folded_eq_some.2 hjover, hold, hsees.1, hcontains⟩

/-- As long as one request has folded nothing, the text of the other stays in the summary. -/
theorem contains_of_alone (ho : Overlap q w s a b es) : ∀ pre post, es = pre ++ post → ∀ i j old text,
    (i = a ∨ i = b) → (j = a ∨ j = b) → i ≠ j → ((alike q w).run pre).stages i = .over (some (old, text)) →
      (((alike q w).run pre).stages j).folded = none → Text.contains (summary q ((alike q w).run pre)) text = true := by
  refine beginnings_induction (fun i j old text _ _ _ h => by cases h) fun pre e post hes ih i j old text hi hj hij
    hover hnone => ?_
  have hes' : es = (pre ++ [e]) ++ post := by rw [hes, List.append_assoc]; rfl
  obtain ⟨k, hk, hmoves, hothers⟩ | ⟨hstages, hsummary, -⟩ := ho.next hes
  · by_cases hik : i = k
    · subst hik
      rw [hothers j hij.symm] at hnone
      obtain ⟨hbefore, hsame⟩ | ⟨x, recent, hst, hstored⟩ := hmoves.folded (Stage.folded_eq_some.2 hover)
      · rw [summary_of_same hsame]
        exact ih i j old text hi hj hij (Stage.folded_eq_some.1 hbefore) hnone
      · have hsees := (ho.sees pre).stages i
        rw [hst] at hsees
        rw [ho.summary_stored pre hsees.1 hstored]
        exact contains_extend _ _
    · have hjk : j = k := by omega
      subst hjk
      rw [hothers i hik] at hover
      obtain hsame | ⟨_, _, _, _, -, hend, -⟩ := hmoves.chats
      · rw [summary_of_same hsame]
        refine ih i j old text hi hj hij hover ?_
        cases hbefore : (((alike q w).run pre).stages j).folded with
        | none => rfl
        | some folded =>
          have hstays : ((alike q w).run (pre ++ [e])).stages j = .over (some folded) :=
            stays (Stage.folded_eq_some.1 hbefore)
          rw [hstays] at hnone
          cases hnone
      · rw [hend.resolve_right (ho.not_failed hes' hk)] at hnone
        cases hnone
  · rw [hstages] at hover hnone
    rw [hsummary]
    exact ih i j old text hi hj hij hover hnone

/-- Where the requests keep apart, what one loads has the text in it of the other that is over. -/
theorem contains_of_apart (ho : Overlap q w s a b es) (hapart : Apart q w a b es) : ∀ pre post, es = pre ++ post →
    ∀ i j old text x, (i = a ∨ i = b) → (j = a ∨ j = b) → i ≠ j →
      ((alike q w).run pre).stages i = .over (some (old, text)) →
      ((alike q w).run pre).stages j = .loaded x → Text.contains x.summary text = true := by
  refine beginnings_induction (fun i j old text x _ _ _ h => by cases h) fun pre e post hes ih i j old text x hi hj hij
    hover hloaded => ?_
  obtain ⟨k, hk, hmoves, hothers⟩ | ⟨hstages, -, -⟩ := ho.next hes
  · by_cases hjk : j = k
    · subst hjk
      rw [hothers i hij] at hover
      rw [hloaded] at hmoves
      obtain ⟨hwaiting, hfound⟩ := hmoves.loaded
      have hsummary : summary q ((alike q w).run pre) = x.summary := by rw [summary, hfound]; rfl
      rw [← hsummary]
      exact ho.contains_of_alone pre (e :: post) hes i j old text hi hj hij hover (by rw [hwaiting]; rfl)
    · rw [hothers j hjk] at hloaded
      exact ih i j old text x hi hj hij (hapart pre e post hes i j x _ hi hj hij hloaded hover) hloaded
  · rw [hstages] at hover hloaded
    exact ih i j old text x hi hj hij hover hloaded

/-- **Requests that keep apart lose no summary**: the one that lists the messages later has loaded what the other stored,
or both have listed the same. -/
theorem keeps_of_apart (ho : Overlap q w s a b es) (hapart : Apart q w a b es) : Keeps q w s a b es := by
  refine ho.keeps_of_heeds (heeds_intro fun hes hi hj hij hover hloaded _ => ?_)
  exact contains_extend_of_contains (ho.contains_of_apart hapart _ _ hes _ _ _ _ _ hi hj hij hover hloaded) _

end Overlap

/-- **Two requests that overlap keep both summaries just if each heeds the other**: a message that was deleted can be without
a text in the summary only if one request stored its summary when the other had loaded the session and not yet listed the
messages, and the other then stored a summary that leaves the first one's text out. -/
theorem keeps_iff_heeds (ho : Overlap q w s a b es) : Keeps q w s a b es ↔ Heeds q w a b es := by
  refine ⟨fun hkeeps => heeds_intro fun hes hi hj hij hover hloaded hend => ?_, ho.keeps_of_heeds⟩
  exact ho.heeds_of_keeps hkeeps hes hi hj hij hover hloaded hend

end

/-! ## A summary that is lost, and one that is not -/

/-- A session of two messages, and a model that summarises in two words. -/
def shortTalk : World :=
  { newSession with
    chats := ⟨[⟨1, "s", 1, defaultTitle, "", 0, 0⟩],
      [⟨1, 1, userRole, "hello", "", 1, 0⟩, ⟨2, 1, assistantRole, "yes", "", 0, 0⟩], 1, 2⟩
    model := .fresh (.always "yes") ⟨[.text "first", .text "second"], fun _ => .failed "down", 0⟩ (.always "Chat") }

/-- Whenever there is something, all but one message are folded away. -/
def keepOne : Request := ⟨1, "s", ⟨0, 1⟩⟩

def more : Happening := .post 1 userRole "more" ""

/-- One request loads the session, the other is made and stores its summary and then its message, and the first goes on. -/
def race : List Happening :=
  [.step 1, .step 0, .step 0, .step 0, .step 0] ++ more :: [.step 1, .step 1, .step 1]

/-- The same, but that the one request loads the session when the other has stored its summary. -/
def turnByTurn : List Happening :=
  [.step 0, .step 0, .step 0, .step 0] ++ more :: [.step 1, .step 1, .step 1, .step 1]

/-- The two requests overlap if there is one message in between, when one of them is over. -/
theorem overlap_of_one_post {first rest : List Happening} (hfirst : ∀ e ∈ first, ∃ i, e = .step i ∧ (i = 0 ∨ i = 1))
    (hrest : ∀ e ∈ rest, ∃ i, e = .step i ∧ (i = 0 ∨ i = 1))
    (hover : ∃ folded, ((alike keepOne shortTalk).run first).stages 0 = .over folded)
    (hends : ∀ i, i = 0 ∨ i = 1 →
      ∃ folded, ((alike keepOne shortTalk).run (first ++ more :: rest)).stages i = .over folded) :
    Overlap keepOne shortTalk ⟨1, "s", 1, defaultTitle, "", 0, 0⟩ 0 1 (first ++ more :: rest) := by
  refine ⟨⟨by decide, by decide, by decide, by decide, by decide⟩, by decide, fun i hi => ?_, ?_, hends⟩
  · rcases List.mem_append.1 hi with hi | hi
    · obtain ⟨j, hj, hone⟩ := hfirst _ hi
      cases hj
      exact hone
    · rcases List.mem_cons.1 hi with hi | hi
      · cases hi
      · obtain ⟨j, hj, hone⟩ := hrest _ hi
        cases hj
        exact hone
  · intro pre role content toolName post hsplit
    have hnot : ∀ es : List Happening, (∀ e ∈ es, ∃ i, e = .step i ∧ (i = 0 ∨ i = 1)) →
        .post 1 role content toolName ∉ es := by
      intro es hes hmem
      obtain ⟨i, hi, -⟩ := hes _ hmem
      cases hi
    obtain ⟨rfl, -⟩ := (List.append_cons_inj_of_notMem (hnot first hfirst) (hnot rest hrest)).1 hsplit
    obtain ⟨folded, hover⟩ := hover
    exact ⟨0, folded, .inl rfl, hover⟩

/-- **Two summaries that overlap can lose one**: the text for the first message is no longer in the summary. -/
theorem race_loses_summary :
    let s : Session := ⟨1, "s", 1, defaultTitle, "", 0, 0⟩
    Overlap keepOne shortTalk s 0 1 race ∧ summary keepOne ((alike keepOne shortTalk).run race) = "second" ∧
      ¬Keeps keepOne shortTalk s 0 1 race := by
  refine ⟨overlap_of_one_post (by simp) (by simp) ?_ ?_, by decide +kernel, by decide +kernel⟩
  · exact ⟨some ([⟨1, 1, userRole, "hello", "", 1, 0⟩], "first"), by decide +kernel⟩
  · rintro i (rfl | rfl)
    · exact ⟨some ([⟨1, 1, userRole, "hello", "", 1, 0⟩], "first"), by decide +kernel⟩
    · exact ⟨some ([⟨2, 1, assistantRole, "yes", "", 0, 0⟩], "second"), by decide +kernel⟩

theorem keeps_iff_heeds_turnByTurn :
    let s : Session := ⟨1, "s", 1, defaultTitle, "", 0, 0⟩
    Overlap keepOne shortTalk s 0 1 turnByTurn ∧ Heeds keepOne shortTalk 0 1 turnByTurn ∧
      Keeps keepOne shortTalk s 0 1 turnByTurn ∧
      summary keepOne ((alike keepOne shortTalk).run turnByTurn) = "first\n\nsecond" := by
  intro s
  have hends : ∀ i, i = 0 ∨ i = 1 → ∃ folded, ((alike keepOne shortTalk).run turnByTurn).stages i = .over folded := by
    rintro i (rfl | rfl)
    · exact ⟨some ([⟨1, 1, userRole, "hello", "", 1, 0⟩], "first"), by decide +kernel⟩
    · exact ⟨some ([⟨2, 1, assistantRole, "yes", "", 0, 0⟩], "second"), by decide +kernel⟩
  have hover : Overlap keepOne shortTalk s 0 1 turnByTurn :=
    overlap_of_one_post (by simp) (by simp)
      ⟨some ([⟨1, 1, userRole, "hello", "", 1, 0⟩], "first"), by decide +kernel⟩ hends
  have hheeds : Heeds keepOne shortTalk 0 1 turnByTurn := by decide +kernel
  exact ⟨hover, hheeds, (keeps_iff_heeds hover).2 hheeds, by decide +kernel⟩

end Hall
end Chat
end NoteAgent
