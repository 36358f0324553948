import NoteAgent.Proofs.WatchedCalls
/-!
# CollectionShelf — the collections that an index makes

An index asks for a user's collection until it has seen that it is there, makes it if it is not, and remembers it then.  Over
a client that keeps its collections (`Client.Shelves`), whichever of its calls fail, what the index remembers is there.  So a
collection is there whenever it is used, it is made once at most, and a use that broke off before leaves it to the next one
to ask again (`Use.collections_made_once`).
-/
namespace NoteAgent
namespace Vector

open Attempt (Ends Keeps)
open Client (Sends)
open Watched (watching)

/-- A call that uses a collection: any but asking for it and making it. -/
def Call.uses : Call → Bool
  | .has _ | .create _ _ => false
  | _ => true

variable {σ : Type}

namespace Sent

/-- The call uses the collection. -/
def Uses (name : String) (c : Sent σ) : Prop := c.call.uses ∧ c.call.collection = name

/-- The call made the collection. -/
def makes (name : String) (c : Sent σ) : Bool :=
  match c.call with
  | .create n _ => n == name && c.answered
  | _ => false

theorem Uses.makes {name : String} {c : Sent σ} (h : c.Uses name) (n : String) : c.makes n = false := by
  obtain ⟨call, s, answered⟩ := c
  cases call with
  | create m dimension => exact nomatch h.1
  | _ => rfl

theorem collection_of_makes {name : String} {c : Sent σ} (h : c.makes name) : c.call.collection = name := by
  obtain ⟨call, s, answered⟩ := c
  cases call with
  | create n dimension =>
    rw [makes, Bool.and_eq_true, beq_iff_eq] at h
    exact h.1
  | _ => cases h

end Sent

/-- A client that keeps its collections: asked for one it fails or is right, one that it has made is there, and none goes
away.  Any call may fail, and others may come with it. -/
structure Client.Shelves (σ : Type) [Client σ] where
  There : String → σ → Prop
  found : ∀ {name : String} {s : σ}, (Client.has name s).1 = .ok true → There name (Client.has name s).2
  missed : ∀ {name : String} {s : σ}, (Client.has name s).1 = .ok false → ¬There name s
  made : ∀ {name : String} {dimension : Int} {s : σ},
    (Client.create name dimension s).1 = .ok () → There name (Client.create name dimension s).2
  stays : ∀ {α : Type} {call : Call} {t : Attempt σ α} {s : σ}, Sends call t → ∀ name, There name s → There name (t s).2

/-! ## The course of a use -/

/-- What an index sends to see to a collection that it does not know, and whether it goes on then. -/
inductive Check (name : String) : Bool → List (Sent σ) → Prop
  | unasked (s : σ) : Check name false [⟨.has name, s, false⟩]
  | found (s : σ) : Check name true [⟨.has name, s, true⟩]
  | unmade (s s' : σ) (dimension : Int) : Check name false [⟨.has name, s, true⟩, ⟨.create name dimension, s', false⟩]
  | made (s s' : σ) (dimension : Int) : Check name true [⟨.has name, s, true⟩, ⟨.create name dimension, s', true⟩]

namespace Check

variable {name : String} {ok : Bool} {checks : List (Sent σ)}

theorem uses (h : Check name ok checks) : ∀ c ∈ checks, c.call.uses = false := by
  cases h <;> simp [Call.uses]

theorem collection (h : Check name ok checks) : ∀ c ∈ checks, c.call.collection = name := by
  cases h <;> simp [Call.collection]

theorem asks (h : Check name ok checks) : ∃ c rest, checks = c :: rest ∧ c.call = .has name := by
  cases h <;> exact ⟨_, _, rfl, rfl⟩

/-- The use goes on where the collection was made. -/
theorem of_makes (h : Check name ok checks) : ∀ c ∈ checks, c.makes name → ok := by
  cases h <;> simp [Sent.makes]

/-- A check makes the collection once at most, and no other. -/
theorem makes_le (h : Check name ok checks) (n : String) : checks.countP (·.makes n) ≤ if n = name then 1 else 0 := by
  have hname : (name == n) = decide (n = name) := by
    rw [Bool.eq_iff_iff, beq_iff_eq, decide_eq_true_iff, eq_comm]
  cases h <;> simp [Sent.makes, hname]

end Check

/-- The course of a use for a collection: whether it can be answered, what the index knew and what it knows afterwards, and
the calls sent.  What is learnt is learnt from a check; with a check that fails the use ends. -/
inductive Course (name : String) : Bool → List String → List String → List (Sent σ) → Prop
  | unsent {known : List String} : Course name false known known []
  | known {ok : Bool} {known : List String} {work : List (Sent σ)} (h : name ∈ known) (hwork : ∀ c ∈ work, c.Uses name) :
    Course name ok known known work
  | learnt {ok : Bool} {known : List String} {checks work : List (Sent σ)} (h : name ∉ known) (hcheck : Check name true checks)
    (hwork : ∀ c ∈ work, c.Uses name) : Course name ok known (name :: known) (checks ++ work)
  | unlearnt {known : List String} {checks : List (Sent σ)} (h : name ∉ known) (hcheck : Check name false checks) :
    Course name false known known checks

namespace Course

variable {name : String} {ok : Bool} {known known' : List String} {sent : List (Sent σ)}

/-- A use that can be answered has learnt of the collection. -/
theorem knows (h : Course name true known known' sent) : name ∈ known' := by
  cases h with
  | known h => exact h
  | learnt => exact List.mem_cons_self

/-- Once the collection is seen to, the rest of the use may only use it, and may fail. -/
theorem goOn (h : Course name true known known' sent) {work : List (Sent σ)} (hwork : ∀ c ∈ work, c.Uses name) :
    Course name ok known known' (sent ++ work) := by
  have happend {before : List (Sent σ)} (hb : ∀ c ∈ before, c.Uses name) : ∀ c ∈ before ++ work, c.Uses name :=
    List.forall_mem_append.2 ⟨hb, hwork⟩
  cases h with
  | known h hb => exact .known h (happend hb)
  | learnt h hcheck hb =>
    rw [List.append_assoc]
    exact .learnt h hcheck (happend hb)

theorem subset (h : Course name ok known known' sent) : ∀ n ∈ known', n ∈ known ∨ n = name := by
  intro n hn
  cases h with
  | learnt => exact (List.mem_cons.1 hn).symm
  | unsent | known | unlearnt => exact .inl hn

/-- A use for a collection that the index does not know sends nothing, or asks for it first. -/
theorem asks (h : Course name ok known known' sent) (hknown : name ∉ known) :
    sent = [] ∨ ∃ c rest, sent = c :: rest ∧ c.call = .has name := by
  cases h with
  | unsent => exact .inl rfl
  | known h => exact absurd h hknown
  | learnt _ hcheck =>
    obtain ⟨c, rest, rfl, hcall⟩ := hcheck.asks
    exact .inr ⟨c, rest ++ _, rfl, hcall⟩
  | unlearnt _ hcheck => exact .inr hcheck.asks

theorem collection (h : Course name ok known known' sent) : ∀ c ∈ sent, c.call.collection = name := by
  cases h with
  | unsent => exact List.forall_mem_nil _
  | known _ hwork => exact fun c hc => (hwork c hc).2
  | learnt _ hcheck hwork => exact List.forall_mem_append.2 ⟨hcheck.collection, fun c hc => (hwork c hc).2⟩
  | unlearnt _ hcheck => exact hcheck.collection

/-- A use makes the collection once at most, and no other. -/
theorem makes_le (h : Course name ok known known' sent) (n : String) :
    sent.countP (·.makes n) ≤ if n = name then 1 else 0 := by
  have hnone {work : List (Sent σ)} (hwork : ∀ c ∈ work, c.Uses name) : work.countP (·.makes n) = 0 :=
    List.countP_eq_zero.2 fun c hc => by simp [(hwork c hc).makes n]
  cases h with
  | unsent => exact Nat.zero_le _
  | known _ hwork => exact (hnone hwork).le.trans (Nat.zero_le _)
  | learnt _ hcheck hwork =>
    rw [List.countP_append, hnone hwork]
    exact hcheck.makes_le n
  | unlearnt _ hcheck => exact hcheck.makes_le n

end Course

/-! ## Over a client that keeps its collections -/

namespace Client.Shelves

variable [Client σ] (C : Client.Shelves σ)

/-- Calls were made: no collection went away, and the calls were noted. -/
structure Called (sent : List (Sent σ)) (w w' : IndexOver (Watched σ)) : Prop where
  known : w'.known = w.known
  record : w'.service.record = w.service.record ++ sent
  stays : ∀ n, C.There n w.service.service → C.There n w'.service.service

/-- A collection was used, and was there each time if it was there at first. -/
def Worked (name : String) (w w' : IndexOver (Watched σ)) : Prop :=
  ∃ work, C.Called work w w' ∧ (∀ c ∈ work, c.Uses name) ∧
    (C.There name w.service.service → ∀ c ∈ work, C.There name c.before)

/-- A use for a collection took its course: the collection was there each time that it was used, it is there if it is
known, and if it was made it had not been there. -/
structure Tended (name : String) (ok : Bool) (w w' : IndexOver (Watched σ)) : Prop where
  stays : ∀ n, C.There n w.service.service → C.There n w'.service.service
  known : name ∈ w'.known → C.There name w'.service.service
  record : ∃ sent, w'.service.record = w.service.record ++ sent ∧ Course name ok w.known w'.known sent ∧
    (∀ c ∈ sent, c.call.uses → C.There name c.before) ∧
    (∀ c ∈ sent, c.makes name → ¬C.There name w.service.service ∧ C.There name w'.service.service)

variable {C} {name : String} {w w' w'' : IndexOver (Watched σ)}

theorem Called.trans {sent sent' : List (Sent σ)} (h : C.Called sent w w') (h' : C.Called sent' w' w'') :
    C.Called (sent ++ sent') w w'' where
  known := h'.known.trans h.known
  record := by rw [h'.record, h.record, List.append_assoc]
  stays n hn := h'.stays n (h.stays n hn)

theorem Called.none (hknown : w'.known = w.known) (hservice : w'.service = w.service) : C.Called [] w w' :=
  ⟨hknown, (by rw [hservice, List.append_nil]), fun _ hn => hservice ▸ hn⟩

theorem Worked.still (hknown : w'.known = w.known) (hservice : w'.service = w.service) : C.Worked name w w' :=
  ⟨[], .none hknown hservice, List.forall_mem_nil _, fun _ => List.forall_mem_nil _⟩

theorem Worked.trans : C.Worked name w w' → C.Worked name w' w'' → C.Worked name w w'' := by
  rintro ⟨work, hcalled, huses, hthere⟩ ⟨work', hcalled', huses', hthere'⟩
  refine ⟨work ++ work', hcalled.trans hcalled', List.forall_mem_append.2 ⟨huses, huses'⟩, fun hn => ?_⟩
  exact List.forall_mem_append.2 ⟨hthere hn, hthere' (hcalled.stays _ hn)⟩

instance : Std.Refl (C.Worked name) := ⟨fun _ => .still rfl rfl⟩
instance : Trans (C.Worked name) (C.Worked name) (C.Worked name) := ⟨Worked.trans⟩

/-- The lock and the embedder have no part in it. -/
theorem Tended.congr {ok : Bool} {v v' : IndexOver (Watched σ)} (h : C.Tended name ok w w') (hknown : v.known = w.known)
    (hservice : v.service = w.service) (hknown' : v'.known = w'.known) (hservice' : v'.service = w'.service) :
    C.Tended name ok v v' := by
  obtain ⟨hstays, hthere, hrecord⟩ := h
  constructor
  · rwa [hservice, hservice']
  · rwa [hknown', hservice']
  · rwa [hknown, hservice, hknown', hservice']

/-- A use of which the service saw nothing. -/
theorem Tended.unsent (hknown : w'.known = w.known) (hservice : w'.service = w.service)
    (hw : name ∈ w.known → C.There name w.service.service) : C.Tended name false w w' := by
  refine ⟨fun n hn => hservice ▸ hn, fun h => ?_, [], (by rw [hservice, List.append_nil]), hknown ▸ .unsent,
    List.forall_mem_nil _, List.forall_mem_nil _⟩
  rw [hservice]
  exact hw (hknown ▸ h)

theorem Tended.learnt {checks : List (Sent σ)} (hcheck : Check name true checks) (hnew : name ∉ w.known)
    (h : C.Called checks w w') (hthere : C.There name w'.service.service)
    (hmissed : ∀ c ∈ checks, c.makes name → ¬C.There name w.service.service) :
    C.Tended name true w { w' with known := name :: w'.known } := by
  refine ⟨h.stays, fun _ => hthere, checks, h.record, ?_, fun c hc hu => ?_, fun c hc hm => ⟨hmissed c hc hm, hthere⟩⟩
  · rw [h.known, ← List.append_nil checks]
    exact .learnt hnew hcheck (List.forall_mem_nil _)
  · rw [hcheck.uses c hc] at hu
    cases hu

theorem Tended.unlearnt {checks : List (Sent σ)} (hcheck : Check name false checks) (hnew : name ∉ w.known)
    (h : C.Called checks w w') : C.Tended name false w w' := by
  refine ⟨h.stays, fun hn => absurd (h.known ▸ hn) hnew, checks, h.record, ?_, fun c hc hu => ?_, fun c hc hm => ?_⟩
  · rw [h.known]
    exact .unlearnt hnew hcheck
  · rw [hcheck.uses c hc] at hu
    cases hu
  · cases hcheck.of_makes c hc hm

/-- Once the collection is seen to, the rest of the use may use it, and may fail. -/
theorem Tended.goOn (h : C.Tended name true w w') (h' : C.Worked name w' w'') (ok : Bool) : C.Tended name ok w w'' := by
  obtain ⟨sent, hrecord, hcourse, hthere, hmade⟩ := h.record
  obtain ⟨work, hcalled, huses, hthere'⟩ := h'
  have hname : C.There name w'.service.service := h.known hcourse.knows
  refine ⟨fun n hn => hcalled.stays n (h.stays n hn), fun _ => hcalled.stays _ hname, sent ++ work, ?_, ?_, ?_, ?_⟩
  · rw [hcalled.record, hrecord, List.append_assoc]
  · rw [hcalled.known]
    exact hcourse.goOn huses
  · exact List.forall_mem_append.2 ⟨hthere, fun c hc _ => hthere' hname c hc⟩
  · refine List.forall_mem_append.2 ⟨fun c hc hm => ⟨(hmade c hc hm).1, hcalled.stays _ hname⟩, fun c hc hm => ?_⟩
    rw [(huses c hc).makes] at hm
    cases hm

end Client.Shelves

namespace Index

open Client.Shelves (Tended Worked)

variable [Client σ] {C : Client.Shelves σ} {name : String} {user : Int}

theorem called {α : Type} {call : Call} {t : Attempt σ α} (ht : Sends call t) (w : IndexOver (Watched σ)) :
    Ends (calling (watching call t)) w fun r w' => C.Called [⟨call, w.service.service, r.isOk⟩] w w' :=
  ⟨rfl, rfl, fun n hn => C.stays ht n hn⟩

theorem worked_calling {α : Type} {call : Call} {t : Attempt σ α} (ht : Sends call t) (hcall : call.uses) :
    Keeps (C.Worked call.collection) (calling (watching call t)) := fun w => by
  refine ⟨_, called ht w, fun c hc => ?_, fun hn c hc => ?_⟩
  · rw [List.mem_singleton.1 hc]
    exact ⟨hcall, rfl⟩
  · rw [List.mem_singleton.1 hc]
    exact hn

theorem worked_embed (text : String) : Keeps (C.Worked name) (embed text) := fun _ => .still rfl rfl

/-- **Once it is answered that a collection is there, it is**, and the index knows of it. -/
theorem collection_tended (w : IndexOver (Watched σ))
    (hw : collectionOf user ∈ w.known → C.There (collectionOf user) w.service.service) :
    Ends (collection user) w fun r w' => C.Tended (collectionOf user) r.isOk w w' := by
  unfold collection
  refine Ends.look ?_
  by_cases hknown : collectionOf user ∈ w.known
  · rw [List.contains_iff_mem.2 hknown]
    exact ⟨fun _ h => h, hw, [], (List.append_nil _).symm, .known hknown (List.forall_mem_nil _),
      List.forall_mem_nil _, List.forall_mem_nil _⟩
  rw [List.contains_eq_mem, decide_eq_false hknown]
  -- the name is learnt after the last call of the check, so each call that fails leaves it unlearnt
  have hasked : Ends (calling (Client.has (collectionOf user))) w fun r w₁ =>
      C.Called [⟨.has (collectionOf user), w.service.service, r.isOk⟩] w w₁ ∧
      (r = .ok true → C.There (collectionOf user) w₁.service.service) ∧
      (r = .ok false → ¬C.There (collectionOf user) w.service.service) := ⟨called (.has _) w, C.found, C.missed⟩
  refine hasked.bind (fun there w₁ ⟨hcalled, hfound, hmissed⟩ => ?_) fun f w₁ ⟨hcalled, _, _⟩ =>
    .unlearnt (.unasked _) hknown hcalled
  cases there with
  | true => exact .learnt (.found _) hknown hcalled (hfound rfl) (by simp [Sent.makes])
  | false =>
    refine Ends.look ?_
    have hmaking : Ends (calling (Client.create (collectionOf user) w₁.dimension)) w₁ fun r w₂ =>
        C.Called [⟨.create (collectionOf user) w₁.dimension, w₁.service.service, r.isOk⟩] w₁ w₂ ∧
        (r = .ok () → C.There (collectionOf user) w₂.service.service) := ⟨called (.create _ _) w₁, C.made⟩
    refine hmaking.bind (fun _ w₂ ⟨h, hmade⟩ => ?_) fun f w₂ ⟨h, _⟩ => .unlearnt (.unmade _ _ _) hknown (hcalled.trans h)
    exact .learnt (.made _ _ _) hknown (hcalled.trans h) (hmade rfl) fun _ _ _ => hmissed rfl

section
variable {w : IndexOver (Watched σ)} (hw : collectionOf user ∈ w.known → C.There (collectionOf user) w.service.service)

include hw in
/-- Once the user's collection is seen to, what only works on it may follow. -/
theorem inCollection_tended {α : Type} {next : String → Attempt (IndexOver (Watched σ)) α} (side : Lock.Side)
    (hn : Keeps (C.Worked (collectionOf user)) (next (collectionOf user))) :
    Ends (holding side (collection user >>= next)) w fun r w' => C.Tended (collectionOf user) r.isOk w w' := by
  let locked := { w with lock := w.lock.enter side }
  have hseen : Ends (collection user) locked fun r w' =>
      C.Tended (collectionOf user) r.isOk locked w' ∧ ∀ name, r = .ok name → name = collectionOf user :=
    ⟨collection_tended locked hw, collection_answers user locked⟩
  have hrun : Ends (collection user >>= next) locked fun r w' => C.Tended (collectionOf user) r.isOk locked w' := by
    refine hseen.bind (fun name w' ⟨h, hname⟩ => ?_) fun f w' h => h.1
    rw [hname name rfl]
    exact h.goOn (hn w') _
  exact Tended.congr hrun rfl rfl rfl rfl

include hw in
theorem upsert_tended (id content : String) (more : List (String × String)) :
    Ends (upsert user id content more) w fun r w' => C.Tended (collectionOf user) r.isOk w w' := by
  refine Ends.bind (P := fun _ v => v.known = w.known ∧ v.service = w.service) ⟨rfl, rfl⟩ (fun vs v ⟨hknown, hservice⟩ => ?_)
    fun f v ⟨hknown, hservice⟩ => .unsent hknown hservice hw
  cases vs with
  | nil => exact .unsent hknown hservice hw
  | cons e _ =>
    refine (inCollection_tended (w := v) (by rwa [hknown, hservice]) .write ?_).mono fun r v' h =>
      h.congr hknown.symm hservice.symm rfl rfl
    exact (worked_calling (.upsert _ _) rfl).bind fun _ => worked_calling (.flush _) rfl

include hw in
theorem delete_tended (id : String) :
    Ends (delete user id) w fun r w' => C.Tended (collectionOf user) r.isOk w w' :=
  inCollection_tended hw .write ((worked_calling (.delete _ _) rfl).bind fun _ => worked_calling (.flush _) rfl)

include hw in
theorem search_tended (query : String) (k : Int) (tag : Option String) :
    Ends (search user query k tag) w fun r w' => C.Tended (collectionOf user) r.isOk w w' := by
  refine Ends.bind (inCollection_tended hw .read ?_) (fun hits w' h => h.goOn (.still rfl rfl) _) fun f w' h => h
  refine (worked_calling (.stats _) rfl).bind fun stats => (Keeps.ofExcept _).bind fun count => ?_
  split
  · exact .done _
  · refine (worked_embed _).bind fun queries => Keeps.bind (keeps_firstAccepted (fun limit => ?_) _ _) fun answer => ?_
    · exact worked_calling (.search _ queries limit _) rfl
    · cases answer with
      | ok hits => exact .done _
      | error last => exact .fail _

end

end Index

namespace Use

variable [Client σ] (C : Client.Shelves σ)

theorem run_tended (x : Use) {w : IndexOver (Watched σ)}
    (hw : collectionOf x.user ∈ w.known → C.There (collectionOf x.user) w.service.service) :
    Ends x.run w fun r w' => C.Tended (collectionOf x.user) r.isOk w w' := by
  cases x with
  | upsert user id content more => exact (Index.upsert_tended hw id content more).bind (fun _ _ h => h) fun _ _ h => h
  | delete user id => exact (Index.delete_tended hw id).bind (fun _ _ h => h) fun _ _ h => h
  | search user query k tag => exact (Index.search_tended hw query k tag).bind (fun _ _ h => h) fun _ _ h => h

/-- What the index remembers is there. -/
def Remembers (i : IndexOver σ) : Prop := ∀ n ∈ i.known, C.There n i.service

/-- What one use does over an index that remembers only what is there. -/
structure Step (x : Use) (i : IndexOver σ) : Prop where
  course : Course (collectionOf x.user) (x.run i).1.isOk i.known (x.run i).2.known (sent i x)
  remembers : Remembers C (x.run i).2
  stays : ∀ n, C.There n i.service → C.There n (x.run i).2.service
  there : ∀ c ∈ sent i x, c.call.uses → C.There c.call.collection c.before
  missed : ∀ n, ∀ c ∈ sent i x, c.makes n → ¬C.There n i.service ∧ C.There n (x.run i).2.service

variable {C}

/-- **A use of an index that remembers only what is there** uses a collection only where it is, and leaves an index that
remembers only what is there. -/
theorem step (x : Use) {i : IndexOver σ} (hi : Remembers C i) : Step C x i := by
  obtain ⟨hstays, hknown, sent, hrecord, hcourse, hthere, hmade⟩ := run_tended C x (w := i.watch) (hi _)
  have hrun : x.run i = ((x.run i.watch).1, (x.run i.watch).2.unwatched) := run_watched x i.watch
  have hsent : Use.sent i x = sent := hrecord
  rw [← hsent] at hcourse hthere hmade
  constructor
  · rw [hrun]
    exact hcourse
  · intro n hn
    rw [hrun] at hn ⊢
    obtain h | rfl := hcourse.subset n hn
    · exact hstays n (hi n h)
    · exact hknown hn
  · rw [hrun]
    exact hstays
  · intro c hc hu
    rw [hcourse.collection c hc]
    exact hthere c hc hu
  · intro n c hc hm
    have hn : n = collectionOf x.user := (Sent.collection_of_makes hm).symm.trans (hcourse.collection c hc)
    rw [hrun]
    subst hn
    exact hmade c hc hm

/-! ### Runs -/

theorem remembers_after {i : IndexOver σ} (hi : Remembers C i) : ∀ xs : List Use, Remembers C (after i xs)
  | [] => hi
  | x :: xs => remembers_after (step x hi).remembers xs

theorem there_of_uses {i : IndexOver σ} (hi : Remembers C i) : ∀ xs : List Use, ∀ c ∈ record i xs, c.call.uses →
    C.There c.call.collection c.before
  | [] => List.forall_mem_nil _
  | x :: xs => List.forall_mem_append.2 ⟨(step x hi).there, there_of_uses (step x hi).remembers xs⟩

/-- A collection that is there is not made, and one that is not is made once at most. -/
theorem makes_le {i : IndexOver σ} (hi : Remembers C i) (name : String) : ∀ xs : List Use,
    (record i xs).countP (·.makes name) ≤ 1 ∧
    (C.There name i.service → (record i xs).countP (·.makes name) = 0)
  | [] => ⟨Nat.zero_le _, fun _ => rfl⟩
  | x :: xs => by
    have hstep := step x hi
    obtain ⟨hle, hnone⟩ := makes_le hstep.remembers name xs
    have hone : (sent i x).countP (·.makes name) ≤ 1 := (hstep.course.makes_le name).trans (by split <;> omega)
    rw [record, List.countP_append]
    -- what is made now is there for all uses that follow; what is there already is missed by no check
    by_cases hmade : ∃ c ∈ sent i x, c.makes name
    · obtain ⟨c, hc, hm⟩ := hmade
      obtain ⟨hmissed, hthere⟩ := hstep.missed name c hc hm
      rw [hnone hthere]
      exact ⟨hone, fun h => absurd h hmissed⟩
    · have hzero : (sent i x).countP (·.makes name) = 0 := List.countP_eq_zero.2 fun c hc hm => hmade ⟨c, hc, hm⟩
      rw [hzero, Nat.zero_add]
      exact ⟨hle, fun h => hnone (hstep.stays name h)⟩

/-- The uses for others do not make an index remember the collection of a user. -/
theorem forgotten_after {user : Int} {i : IndexOver σ} (hi : Remembers C i) (hnew : collectionOf user ∉ i.known) :
    ∀ {xs : List Use}, (∀ x ∈ xs, x.user ≠ user) → collectionOf user ∉ (after i xs).known
  | [], _ => hnew
  | x :: xs, hothers => by
    have hstep := step x hi
    refine forgotten_after hstep.remembers (fun hn => ?_) fun y hy => hothers y (List.mem_cons_of_mem _ hy)
    obtain h | h := hstep.course.subset _ hn
    · exact hnew h
    · exact hothers x List.mem_cons_self (collectionOf_injective h).symm

/-- **Collections are there before they are used, and are made once.**  Over a client that keeps its collections, whichever
calls fail, and for every run of uses of an index that remembers only what is there: each call that uses a collection finds
it there; no collection is made twice; the index remembers only what is there, and learns of a collection only by a check
that was answered (`Course`), so a use that broke off before leaves it unremembered and the next use for that user asks
for it again, if it sends anything. -/
theorem collections_made_once (i : IndexOver σ) (hi : Remembers C i) (xs : List Use) :
    (∀ c ∈ record i xs, c.call.uses → C.There c.call.collection c.before) ∧
    (∀ name, (record i xs).countP (·.makes name) ≤ 1) ∧
    ∀ pre x post, xs = pre ++ x :: post →
      Course (collectionOf x.user) (x.run (after i pre)).1.isOk (after i pre).known (after i (pre ++ [x])).known
        (sent (after i pre) x) ∧
      Remembers C (after i (pre ++ [x])) ∧
      (collectionOf x.user ∉ (after i (pre ++ [x])).known → ∀ between y rest, post = between ++ y :: rest →
        (∀ z ∈ between, z.user ≠ x.user) → y.user = x.user →
        sent (after i (pre ++ x :: between)) y = [] ∨
        ∃ c calls, sent (after i (pre ++ x :: between)) y = c :: calls ∧ c.call = .has (collectionOf x.user)) := by
  refine ⟨there_of_uses hi xs, fun name => (makes_le hi name xs).1, fun pre x post _ => ?_⟩
  have hpre : Remembers C (after i pre) := remembers_after hi pre
  have hafter : after i (pre ++ [x]) = (x.run (after i pre)).2 := after_append i pre [x]
  have hstep := step x hpre
  rw [hafter]
  refine ⟨hstep.course, hstep.remembers, fun hnew between y rest _ hothers huser => ?_⟩
  have hbetween : after i (pre ++ x :: between) = after (x.run (after i pre)).2 between := after_append i pre (x :: between)
  rw [hbetween, ← huser]
  have hforgotten := forgotten_after hstep.remembers hnew hothers
  rw [← huser] at hforgotten
  exact (step y (remembers_after hstep.remembers between)).course.asks hforgotten

end Use

/-! ## The service in memory -/

namespace Service

/-- No collection went away. -/
def Holds (s s' : Service) : Prop := ∀ name, s.holds name → s'.holds name

instance : Std.Refl Holds := ⟨fun _ _ h => h⟩
instance : Trans Holds Holds Holds := ⟨fun h h' name hn => h' name (h name hn)⟩

theorem keepsHeld_send (call : Call) : Keeps Holds (send call) := fun s name h => by rwa [holds, send_collections]

theorem holds_setRows (s : Service) (name : String) (rs : List Row) (n : String) :
    (s.setRows name rs).holds n = (n == name || s.holds n) := by
  rw [holds, setRows, Json.lookup_put]
  by_cases h : name = n
  · simp [h]
  · simp [h, Ne.symm h, holds]

theorem keepsHeld_setRows (name : String) (f : Service → List Row) :
    Keeps Holds (Attempt.change fun s => s.setRows name (f s)) := fun s n h => by
  rw [Attempt.change_run, holds_setRows, h, Bool.or_true]

theorem keepsHeld {α : Type} {call : Call} {t : Attempt Service α} (ht : Sends call t) : Keeps Holds t := by
  cases ht with
  | has => exact keeps_has _ (keepsHeld_send _)
  | create => exact (keepsHeld_send _).bind fun _ => keepsHeld_setRows _ _
  | upsert => exact (keepsHeld_send _).bind fun _ => keepsHeld_setRows _ _
  | delete => exact (keepsHeld_send _).bind fun _ => keepsHeld_setRows _ _
  | flush => exact keeps_flush _ (keepsHeld_send _)
  | stats => exact keeps_stats _ (keepsHeld_send _)
  | search => exact keeps_search _ _ _ _ (keepsHeld_send _)

/-- The service in memory keeps its collections, whatever it refuses. -/
def shelves : Client.Shelves Service where
  There name s := s.holds name
  found {name s} h := by
    have hends : Ends (has name) s fun r s' => r = .ok true → s'.holds name :=
      Ends.bind (P := fun _ _ => True) trivial (fun _ s' _ h => Except.ok.inj h) fun _ _ _ h => nomatch h
    exact hends h
  missed {name s} h hn := by
    have hthere : (has name s).2.holds name := keepsHeld (.has name) s name hn
    rw [has_false h] at hthere
    cases hthere
  made {name dimension s} h := by
    have hends : Ends (create name dimension) s fun r s' => r = .ok () → s'.holds name :=
      Ends.bind (P := fun _ _ => True) trivial (fun _ s' _ _ => (by simp [holds_setRows])) fun _ _ _ h => nomatch h
    exact hends h
  stays ht name hn := keepsHeld ht _ name hn

end Service

namespace Use

/-- An index over a service that refuses its first and its third call. -/
def refusedTwice : Index :=
  .fresh ⟨[], [], ⟨fun n _ => if n = 0 ∨ n = 2 then some (.refused "later") else none, fun _ => none, fun _ _ => none⟩⟩
    ⟨fun _ _ => .ok [[]], 0⟩ 1

/-- The first use fails as it asks for the collection, the second as it makes it. -/
def fourUses : List Use := [.upsert 1 "a" "one" [], .delete 1 "a", .upsert 1 "a" "one" [], .delete 1 "a"]

theorem collections_made_once_refusedTwice :
    Remembers Service.shelves refusedTwice ∧
    (record refusedTwice fourUses).map (·.answered) = [false, true, false, true, true, true, true, true, true] ∧
    (∀ c ∈ record refusedTwice fourUses, c.call.uses → c.before.holds c.call.collection) ∧
    (record refusedTwice fourUses).countP (·.makes (collectionOf 1)) ≤ 1 ∧
    ∃ c calls, sent (after refusedTwice [.upsert 1 "a" "one" []]) (.delete 1 "a") = c :: calls ∧
      c.call = .has (collectionOf 1) := by
  have hnone : Remembers Service.shelves refusedTwice := fun _ h => nomatch h
  obtain ⟨hthere, hmade, hcourses⟩ := collections_made_once refusedTwice hnone fourUses
  obtain ⟨-, -, hagain⟩ := hcourses [] (.upsert 1 "a" "one" []) _ rfl
  have hsent : (sent (after refusedTwice [.upsert 1 "a" "one" []]) (.delete 1 "a")).map (·.answered) = [true, false] := by
    decide +kernel
  refine ⟨hnone, by decide +kernel, hthere, hmade _, ?_⟩
  refine (hagain (by decide +kernel) [] (.delete 1 "a") _ rfl (List.forall_mem_nil _) rfl).resolve_left fun h => ?_
  have hempty : sent (after refusedTwice [.upsert 1 "a" "one" []]) (.delete 1 "a") = [] := h
  rw [hempty] at hsent
  cases hsent

end Use

end Vector
end NoteAgent
