import Mathlib.Data.List.Infix
import NoteAgent.Proofs.TitleSteps
/-!
# TitleRace — when a title that was asked for stays

Turns of one session, the jobs that they leave behind and requests for other titles are all under way at once, and the
store is used for other things between their steps.  A turn decides by the session as it was loaded whether a title is
to be found; the title is stored when the model has answered, whatever the session is called by then.  The loss is exact
(`stands_iff_heeds`): a title that was asked for stays if and only if what a job is about to store over it is the title
already, where the job is of a turn that had loaded the session before any request for a title was granted, or while the
session had the default title.  A turn that loads the session otherwise sees that it has a title.  If nobody asks for the
default title, only the turns are left that had loaded the session before a request was granted, and nothing is lost if
there are none (`stands_of_unvisited`).
-/
namespace NoteAgent
namespace Chat
namespace Titling

open World (Even SameTitle)

/-- A request for a title has been granted. -/
def Renamed (p : Scene) : Prop := ∃ j title, p.renames j = .renamed title

/-- Nothing strikes the store, and nothing but the turns and the requests gives the session a title or removes it. -/
structure Race (q : Requests) (w : World) (es : List Happening) : Prop where
  steady : w.Steady
  clock : fitsColumn w.clock = true
  clocks : ∀ u, .use u ∈ es → ∀ now, u.clock? = some now → fitsColumn now = true
  uses : ∀ u, .use u ∈ es → u.LeavesTitle q.uid

/-- **Once a request for a title has been granted, only another such request changes the title.** -/
def Stands (q : Requests) (w : World) (es : List Happening) : Prop :=
  ∀ pre e post, es = pre ++ e :: post → Renamed ((machine q w).run pre) → (∀ j, e ≠ .rename j) →
    ((machine q w).run (pre ++ [e])).world.title? q.uid = ((machine q w).run pre).world.title? q.uid

/-- The turn had loaded the session before any request for a title was granted. -/
def Early (q : Requests) (w : World) (pre : List Happening) (i : Nat) : Prop :=
  ∃ first rest, pre = first ++ rest ∧ ¬Renamed ((machine q w).run first) ∧ ((machine q w).run first).turns i ≠ .waiting

/-- The turn had loaded the session by a moment when no request for a title had been granted or it had the default one. -/
def Untitled (q : Requests) (w : World) (pre : List Happening) (i : Nat) : Prop :=
  ∃ first rest, pre = first ++ rest ∧
    (Renamed ((machine q w).run first) → ((machine q w).run first).world.title? q.uid = some defaultTitle) ∧
    ((machine q w).run first).turns i ≠ .waiting

/-- Once a request for a title has been granted, what the job of a turn `of` these stores is the title already. -/
def Heeds (q : Requests) (w : World) (es : List Happening) (of : List Happening → Nat → Prop) : Prop :=
  ∀ pre i post job title, es = pre ++ .turn i :: post → Renamed ((machine q w).run pre) → of pre i →
    ((machine q w).run pre).turns i = .replied job title → ((machine q w).run pre).world.title? q.uid = some title

/-- Nobody asks for the default title. -/
def Requests.AskOther (q : Requests) : Prop :=
  ∀ j title, Renaming.wanted (q.title j).2 = .ok title → title ≠ defaultTitle

variable {q : Requests} {w : World} {es : List Happening} {p p' : Scene}

/-! ## What can come of a happening -/

/-- What a stage holds on to is of the session. -/
def Fits (uid : String) : Naming → Prop
  | .waiting => True
  | .loaded s => s.uid = uid
  | .left job => job.session = uid
  | .replied job _ => job.session = uid
  | .over => True

theorem fits_next {uid : String} {w w' : World} {st st' : Naming} (h : Naming.Moves uid w w' st st')
    (hst : Fits uid st) : Fits uid st' := by
  cases h with
  | loads _ found => exact (Table.session?_some found).2
  | leaves => exact hst
  | replies => exact hst
  | stores => trivial
  | ends => trivial

/-- Nothing strikes the store, every turn is about the session, and a title that was granted is of a session that is
there. -/
structure Sound (q : Requests) (p : Scene) : Prop where
  steady : p.world.Steady
  clock : fitsColumn p.world.clock = true
  fits : ∀ i, Fits q.uid (p.turns i)
  named : Renamed p → ∃ title, p.world.title? q.uid = some title

theorem Sound.session_eq (h : Sound q p) {i : Nat} {job : Job} {title : String} (hi : p.turns i = .replied job title) :
    job.session = q.uid := by
  have hfits := h.fits i
  rwa [hi] at hfits

/-- Once a request for a title has been granted, the session is there to keep its title. -/
theorem Sound.title_eq (h : Sound q p) (hrenamed : Renamed p) (hsame : SameTitle q.uid p.world p'.world) :
    p'.world.title? q.uid = p.world.title? q.uid := by
  obtain ⟨old, hold⟩ := h.named hrenamed
  rw [hsame old hold, hold]

inductive Turn (q : Requests) (p p' : Scene) : Happening → Prop
  | turn {i : Nat} (moves : Naming.Moves q.uid p.world p'.world (p.turns i) (p'.turns i))
    (others : ∀ k, k ≠ i → p'.turns k = p.turns k) (renames : p'.renames = p.renames) : Turn q p p' (.turn i)
  | rename {j : Nat} (moves : Renaming.Moves q.uid (q.title j).2 p.world p'.world (p.renames j) (p'.renames j))
    (others : ∀ k, k ≠ j → p'.renames k = p.renames k) (turns : p'.turns = p.turns) : Turn q p p' (.rename j)
  | use {u : Use} (title : SameTitle q.uid p.world p'.world) (turns : p'.turns = p.turns)
    (renames : p'.renames = p.renames) : Turn q p p' (.use u)

theorem Sound.turn (h : Sound q p) {e : Happening} (he : ∀ u, e = .use u → u.LeavesTitle q.uid) :
    Turn q p (after q p e) e := by
  cases e with
  | turn i =>
    have hi : (after q p (.turn i)).turns i = _ := Function.update_self _ _ _
    refine .turn ?_ (fun k hk => Function.update_of_ne hk _ _) rfl
    rw [hi]
    exact (Naming.next_ends h.steady h.clock _ _ _ _).2
  | rename j =>
    have hj : (after q p (.rename j)).renames j = _ := Function.update_self _ _ _
    refine .rename ?_ (fun k hk => Function.update_of_ne hk _ _) rfl
    rw [hj]
    exact (Renaming.next_ends h.steady h.clock _ _ _ _).2
  | use u => exact .use ((u.spares_perform q.uid p.world).title (he u rfl)) rfl rfl

/-- What a happening does to the title. -/
inductive Titles (q : Requests) (p p' : Scene) : Happening → Prop
  | leaves {e : Happening} (title : SameTitle q.uid p.world p'.world) (renamed : Renamed p' → Renamed p) :
    Titles q p p' e
  | stores {i : Nat} {job : Job} {title : String} (replied : p.turns i = .replied job title)
    (stored : p'.world.title? job.session = (p.world.title? job.session).map fun _ => title)
    (renamed : Renamed p' → Renamed p) : Titles q p p' (.turn i)
  | grants {j : Nat} {title : String} (wanted : Renaming.wanted (q.title j).2 = .ok title)
    (granted : p'.world.title? q.uid = some title) (turns : p'.turns = p.turns) : Titles q p p' (.rename j)

theorem renamed_of_others {j : Nat} (hothers : ∀ k, k ≠ j → p'.renames k = p.renames k)
    (hj : ∀ title, p'.renames j ≠ .renamed title) (h : Renamed p') : Renamed p := by
  obtain ⟨k, title, hk⟩ := h
  by_cases hkj : k = j
  · exact absurd (hkj ▸ hk) (hj title)
  · exact ⟨k, title, hothers k hkj ▸ hk⟩

theorem Turn.titles {e : Happening} (h : Turn q p p' e) : Titles q p p' e := by
  cases h with
  | use title _ hrenames => exact .leaves title fun ⟨j, title, hj⟩ => ⟨j, title, hrenames ▸ hj⟩
  | @turn i moves _ hrenames =>
    have hback : Renamed p' → Renamed p := fun ⟨j, title, hj⟩ => ⟨j, title, hrenames ▸ hj⟩
    generalize hst : p.turns i = st at moves
    generalize p'.turns i = st' at moves
    cases moves with
    | loads chats => exact .leaves (.of_chats chats) hback
    | leaves chats => exact .leaves (.of_chats chats) hback
    | replies chats => exact .leaves (.of_chats chats) hback
    | stores stored => exact .stores hst stored hback
    | ends chats => exact .leaves (.of_chats chats) hback
  | @rename j moves hothers hturns =>
    generalize hst : p.renames j = st at moves
    generalize hst' : p'.renames j = st' at moves
    cases moves with
    | finds chats => exact .leaves (.of_chats chats) (renamed_of_others hothers fun _ h => by cases hst'.symm.trans h)
    | renames wanted stored => exact .grants wanted stored hturns
    | fails same => exact .leaves (.of_eq same) (renamed_of_others hothers fun _ h => by cases hst'.symm.trans h)
    | @rests given chats => exact .leaves (.of_chats chats) fun _ => ⟨j, given, hst⟩

theorem Turn.stored {i : Nat} {job : Job} {title : String} (h : Turn q p p' (.turn i))
    (hreplied : p.turns i = .replied job title) :
    p'.world.title? job.session = (p.world.title? job.session).map fun _ => title := by
  cases h with
  | turn moves =>
    rw [hreplied] at moves
    generalize p'.turns i = st at moves
    cases moves with
    | stores stored => exact stored
    | ends _ unanswered => exact absurd rfl (unanswered job title)

theorem Sound.after (h : Sound q p) {e : Happening} (he : ∀ u, e = .use u → u.LeavesTitle q.uid)
    (hnow : ∀ u now, e = .use u → u.clock? = some now → fitsColumn now = true) : Sound q (after q p e) := by
  have hturn := h.turn he
  have heven : (Titling.after q p e).world.Steady ∧ fitsColumn (Titling.after q p e).world.clock = true := by
    cases e with
    | turn i =>
      have heven := (Naming.next_ends h.steady h.clock (q.turn i).1 q.uid (q.turn i).2 (p.turns i)).1
      exact ⟨h.steady.of_strikes heven.strikes, (congrArg fitsColumn heven.clock).trans h.clock⟩
    | rename j =>
      have heven := (Renaming.next_ends h.steady h.clock (q.title j).1 q.uid (q.title j).2 (p.renames j)).1
      exact ⟨h.steady.of_strikes heven.strikes, (congrArg fitsColumn heven.clock).trans h.clock⟩
    | use u =>
      refine ⟨h.steady.of_strikes (u.perform_ends p.world).strikes, ?_⟩
      change fitsColumn (u.perform p.world).2.clock = true
      rw [(u.spares_perform q.uid p.world).clock]
      cases hclock : u.clock? with
      | none => exact h.clock
      | some now => exact hnow u now rfl hclock
  refine ⟨heven.1, heven.2, fun i => ?_, fun hrenamed => ?_⟩
  · cases hturn with
    | @turn k moves hothers _ =>
      by_cases hik : i = k
      · subst hik
        exact fits_next moves (h.fits i)
      · rw [hothers i hik]
        exact h.fits i
    | rename _ _ hturns => exact hturns ▸ h.fits i
    | use _ hturns => exact hturns ▸ h.fits i
  · cases hturn.titles with
    | leaves title hback =>
      obtain ⟨old, hold⟩ := h.named (hback hrenamed)
      exact ⟨old, title old hold⟩
    | @stores i job title replied stored hback =>
      obtain ⟨old, hold⟩ := h.named (hback hrenamed)
      rw [h.session_eq replied, hold] at stored
      exact ⟨title, stored⟩
    | grants _ granted => exact ⟨_, granted⟩

theorem sound_run (h : Race q w es) : ∀ pre post, es = pre ++ post → Sound q ((machine q w).run pre) := by
  refine beginnings_induction ⟨h.steady, h.clock, fun _ => trivial, fun ⟨_, _, hj⟩ => by cases hj⟩ ?_
  intro pre e post hes ih
  rw [Machine.run_concat]
  have hmem : e ∈ es := hes ▸ List.mem_append_right pre List.mem_cons_self
  exact ih.after (fun u hu => h.uses u (hu ▸ hmem)) fun u now hu => h.clocks u (hu ▸ hmem) now

theorem Race.turn (h : Race q w es) {pre post : List Happening} {e : Happening} (hes : es = pre ++ e :: post) :
    Turn q ((machine q w).run pre) ((machine q w).run (pre ++ [e])) e := by
  have hmem : e ∈ es := hes ▸ List.mem_append_right pre List.mem_cons_self
  rw [Machine.run_concat]
  exact (sound_run h pre _ hes).turn fun u hu => h.uses u (hu ▸ hmem)

/-! ## Turns that load the session with its title -/

/-- The turn has no job and will leave none behind. -/
def Calm : Naming → Prop
  | .waiting => True
  | .loaded s => s.title ≠ defaultTitle
  | .left _ => False
  | .replied _ _ => False
  | .over => True

/-- **A turn that loads a session with another title than the default one leaves no job behind.** -/
theorem Calm.next {uid : String} {w w' : World} {st st' : Naming} (h : Naming.Moves uid w w' st st') (hst : Calm st)
    (htitle : st' ≠ .waiting → w'.title? uid ≠ some defaultTitle) : Calm st' := by
  cases h with
  | loads chats found =>
    intro hdefault
    refine htitle Naming.noConfusion ?_
    rw [World.title?, chats, found]
    exact congrArg some hdefault
  | leaves _ untitled => exact hst untitled
  | replies => exact hst
  | stores => trivial
  | ends => trivial

theorem Untitled.append {pre : List Happening} {i : Nat} (h : Untitled q w pre i) (post : List Happening) :
    Untitled q w (pre ++ post) i := by
  obtain ⟨first, rest, rfl, htitle, hi⟩ := h
  exact ⟨first, rest ++ post, List.append_assoc _ _ _, htitle, hi⟩

/-- Once a request has been granted, only turns that had loaded the session while it was untitled have jobs. -/
theorem Race.calm (h : Race q w es) : ∀ pre post, es = pre ++ post → Renamed ((machine q w).run pre) →
    ∀ i, ¬Untitled q w pre i → Calm (((machine q w).run pre).turns i) := by
  refine beginnings_induction (fun ⟨_, _, hj⟩ => by cases hj) fun pre e post hes ih _ i hnot => ?_
  have hbefore : ¬Untitled q w pre i := fun hpre => hnot (hpre.append [e])
  have hcalm : Calm (((machine q w).run pre).turns i) := by
    by_cases hrenamed : Renamed ((machine q w).run pre)
    · exact ih hrenamed i hbefore
    · -- no request was granted until now, so whoever had loaded the session did it while it was untitled
      have hwaiting : ((machine q w).run pre).turns i = .waiting := by
        by_contra hi
        exact hbefore ⟨pre, [], (List.append_nil pre).symm, fun hyes => absurd hyes hrenamed, hi⟩
      rw [hwaiting]
      trivial
  cases h.turn hes with
  | @turn k moves hothers _ =>
    by_cases hik : i = k
    · subst hik
      exact hcalm.next moves fun hi hdefault =>
        hnot ⟨pre ++ [.turn i], [], (List.append_nil _).symm, fun _ => hdefault, hi⟩
    · rw [hothers i hik]
      exact hcalm
  | rename _ _ hturns => exact hturns ▸ hcalm
  | use _ hturns => exact hturns ▸ hcalm

/-! ## When titles stay -/

/-- Where what the job of a turn stores is the title already, should the turn have loaded the session while it was
untitled, the title stays. -/
theorem Race.title_eq (h : Race q w es) {pre post : List Happening} {e : Happening} (hes : es = pre ++ e :: post)
    (hrenamed : Renamed ((machine q w).run pre)) (he : ∀ j, e ≠ .rename j)
    (hheeds : ∀ i job title, e = .turn i → Untitled q w pre i → ((machine q w).run pre).turns i = .replied job title →
      ((machine q w).run pre).world.title? q.uid = some title) :
    ((machine q w).run (pre ++ [e])).world.title? q.uid = ((machine q w).run pre).world.title? q.uid := by
  have hsound := sound_run h pre _ hes
  cases (h.turn hes).titles with
  | leaves title => exact hsound.title_eq hrenamed title
  | @stores i job title replied stored =>
    have huntitled : Untitled q w pre i := by
      by_contra hnot
      have hcalm := h.calm pre _ hes hrenamed i hnot
      rw [replied] at hcalm
      exact hcalm
    have htitle := hheeds i job title rfl huntitled replied
    rw [hsound.session_eq replied, htitle] at stored
    rw [stored, htitle]
    rfl
  | grants => exact absurd rfl (he _)

theorem Race.stands_of_heeds (h : Race q w es) (hheeds : Heeds q w es (Untitled q w)) : Stands q w es := by
  intro pre e post hes hrenamed he
  refine h.title_eq hes hrenamed he fun i job title hi huntitled hreplied => ?_
  cases hi
  exact hheeds pre i post job title hes hrenamed huntitled hreplied

theorem Race.heeds_of_stands (h : Race q w es) (hstands : Stands q w es) (of : List Happening → Nat → Prop) :
    Heeds q w es of := by
  intro pre i post job title hes hrenamed _ hreplied
  have hsound := sound_run h pre _ hes
  obtain ⟨old, hold⟩ := hsound.named hrenamed
  have hstored := (h.turn hes).stored hreplied
  rw [hsound.session_eq hreplied, hold] at hstored
  rw [← hstands pre (.turn i) post hes hrenamed fun j hj => by cases hj]
  exact hstored

/-- The session is under another title than the default one at every moment at which a request has been granted. -/
def Titled (q : Requests) (w : World) (pre : List Happening) : Prop :=
  ∀ first rest, pre = first ++ rest → Renamed ((machine q w).run first) →
    ((machine q w).run first).world.title? q.uid ≠ some defaultTitle

theorem Untitled.early {pre : List Happening} {i : Nat} (h : Untitled q w pre i) (hpre : Titled q w pre) :
    Early q w pre i := by
  obtain ⟨first, rest, hsplit, htitle, hi⟩ := h
  exact ⟨first, rest, hsplit, fun hrenamed => hpre first rest hsplit hrenamed (htitle hrenamed), hi⟩

theorem Race.titled_next (h : Race q w es) (hother : q.AskOther) (hheeds : Heeds q w es (Early q w))
    {pre post : List Happening} {e : Happening} (hes : es = pre ++ e :: post) (hpre : Titled q w pre)
    (hrenamed : Renamed ((machine q w).run (pre ++ [e]))) :
    ((machine q w).run (pre ++ [e])).world.title? q.uid ≠ some defaultTitle := by
  have hlast := hpre pre [] (List.append_nil pre).symm
  cases (h.turn hes).titles with
  | grants wanted granted =>
    intro hdefault
    exact hother _ _ wanted (Option.some.inj (granted.symm.trans hdefault))
  | leaves title hback =>
    rw [(sound_run h pre _ hes).title_eq (hback hrenamed) title]
    exact hlast (hback hrenamed)
  | @stores i job title _ _ hback =>
    have hbefore := hback hrenamed
    rw [h.title_eq hes hbefore (fun j hj => by cases hj) fun i job title hi huntitled hreplied => ?_]
    · exact hlast hbefore
    · cases hi
      exact hheeds pre i post job title hes hbefore (huntitled.early hpre) hreplied

/-- If nobody asks for the default title and the jobs of early turns heed the title, the session never goes back to the
default one. -/
theorem Race.titled (h : Race q w es) (hother : q.AskOther) (hheeds : Heeds q w es (Early q w)) :
    ∀ pre post, es = pre ++ post → Titled q w pre := by
  refine beginnings_induction (fun first rest hnil => ?_) fun pre e post hes ih first rest hsplit hrenamed => ?_
  · obtain ⟨rfl, -⟩ := List.append_eq_nil_iff.1 hnil.symm
    exact fun ⟨_, _, hj⟩ => by cases hj
  · obtain rfl | ⟨rest', e', rfl⟩ := List.eq_nil_or_concat' rest
    · rw [List.append_nil] at hsplit
      subst hsplit
      exact h.titled_next hother hheeds hes ih hrenamed
    · rw [← List.append_assoc] at hsplit
      exact ih first rest' (List.append_inj' hsplit rfl).1 hrenamed

theorem Race.stands_of_early (h : Race q w es) (hother : q.AskOther) (hheeds : Heeds q w es (Early q w)) :
    Stands q w es :=
  h.stands_of_heeds fun pre i post job title hes hrenamed huntitled =>
    hheeds pre i post job title hes hrenamed (huntitled.early (h.titled hother hheeds pre _ hes))

/-- **A title that was asked for stays just if whatever a job stores over it is the same**: a title can be lost only to
the job of a turn that had loaded the session before any request was granted, or under the default title that somebody
asked for; if nobody asks for that one, only to the former. -/
theorem stands_iff_heeds (h : Race q w es) : (Stands q w es ↔ Heeds q w es (Untitled q w)) ∧
    (q.AskOther → (Stands q w es ↔ Heeds q w es (Early q w))) :=
  ⟨⟨fun hstands => h.heeds_of_stands hstands _, h.stands_of_heeds⟩,
    fun hother => ⟨fun hstands => h.heeds_of_stands hstands _, h.stands_of_early hother⟩⟩

/-- A user asks for the default title, and a turn that loads the session afterwards names it all the same. -/
example :
    let regret : Requests := ⟨"s", fun _ => (1, "hello"), fun _ => (1, Json.pieces defaultTitle)⟩
    let m := machine regret newSession
    (m.run [.rename 0, .rename 0]).renames 0 = .renamed defaultTitle ∧
      (m.run [.rename 0, .rename 0, .turn 0, .turn 0, .turn 0, .turn 0]).world.title? "s" = some "Chat" := by
  decide +kernel

theorem heeds_of_unvisited (hnone : ∀ pre post, es = pre ++ post → ¬Renamed ((machine q w).run pre) →
    ∀ i, ((machine q w).run pre).turns i = .waiting) : Heeds q w es (Early q w) := by
  rintro pre i post job title hes - ⟨first, rest, rfl, hno, hi⟩
  exact absurd (hnone first _ (hes.trans (List.append_assoc _ _ _)) hno i) hi

/-- **A title that was asked for stays if no turn had loaded the session before**, and nobody asks for the default one. -/
theorem stands_of_unvisited (h : Race q w es) (hother : q.AskOther)
    (hnone : ∀ pre post, es = pre ++ post → ¬Renamed ((machine q w).run pre) →
      ∀ i, ((machine q w).run pre).turns i = .waiting) : Stands q w es :=
  h.stands_of_early hother (heeds_of_unvisited hnone)

/-! ## A title that is lost, and one that is not -/

/-- In a session of one user every turn says hello and every request asks for the title Mine. -/
def greetings : Requests := ⟨"s", fun _ => (1, "hello"), fun _ => (1, Json.pieces "Mine")⟩

theorem race_greetings {es : List Happening} (hes : ∀ u, .use u ∉ es) : Race greetings newSession es where
  steady _ _ := rfl
  clock := by decide
  clocks u hu := absurd hu (hes u)
  uses u hu := absurd hu (hes u)

theorem askOther_greetings : greetings.AskOther := by
  intro j title h
  have hwanted : Renaming.wanted (Json.pieces "Mine") = .ok "Mine" := by decide +kernel
  cases hwanted.symm.trans h
  decide

/-- The turn loads the session, finds it without messages and leaves a job behind; the request is granted; then the
model answers the job. -/
def answeredLate : List Happening := [.turn 0, .turn 0, .rename 0, .rename 0, .turn 0, .turn 0]

/-- **A title that was asked for can be lost** to one that the model finds later. -/
theorem answeredLate_loses_title :
    Race greetings newSession answeredLate ∧
      ((machine greetings newSession).run (answeredLate.take 4)).renames 0 = .renamed "Mine" ∧
      ((machine greetings newSession).run (answeredLate.take 4)).world.title? "s" = some "Mine" ∧
      ((machine greetings newSession).run answeredLate).world.title? "s" = some "Chat" ∧
      ¬Stands greetings newSession answeredLate := by
  have hgranted : ((machine greetings newSession).run (answeredLate.take 5)).renames 0 = .renamed "Mine" := by
    decide +kernel
  have hbefore : ((machine greetings newSession).run (answeredLate.take 5)).world.title? "s" = some "Mine" := by
    decide +kernel
  have hafter : ((machine greetings newSession).run answeredLate).world.title? "s" = some "Chat" := by decide +kernel
  refine ⟨race_greetings fun u hu => ?_, by decide +kernel, by decide +kernel, hafter, fun hstands => ?_⟩
  · simp [answeredLate] at hu
  · have hkept := hstands (answeredLate.take 5) (.turn 0) [] rfl ⟨0, "Mine", hgranted⟩ fun j hj => by cases hj
    exact absurd (hafter.symm.trans (hkept.trans hbefore)) (by decide)

/-- The request is granted before the turn loads the session. -/
def askedFirst : List Happening := [.rename 0, .rename 0, .turn 0, .turn 0, .turn 0]

theorem stands_iff_heeds_askedFirst :
    Race greetings newSession askedFirst ∧ Stands greetings newSession askedFirst ∧
      ((machine greetings newSession).run askedFirst).turns 0 = .over ∧
      ((machine greetings newSession).run askedFirst).world.title? "s" = some "Mine" := by
  have h : Race greetings newSession askedFirst := race_greetings fun u hu => by simp [askedFirst] at hu
  have hunvisited : Heeds greetings newSession askedFirst (Early greetings newSession) := by
    refine heeds_of_unvisited fun pre post hes hno i => ?_
    have hpre : pre ∈ askedFirst.inits := (List.mem_inits _ _).2 ⟨post, hes.symm⟩
    simp only [askedFirst, List.inits, List.map_cons, List.map_nil, List.mem_cons, List.not_mem_nil, or_false] at hpre
    obtain rfl | rfl | rfl | rfl | rfl | rfl := hpre
    · rfl
    · rfl
    all_goals exact absurd ⟨0, "Mine", by decide +kernel⟩ hno
  exact ⟨h, ((stands_iff_heeds h).2 askOther_greetings).2 hunvisited, by decide +kernel, by decide +kernel⟩

end Titling
end Chat
end NoteAgent
