import NoteAgent.Proofs.ListTraversal
import NoteAgent.Proofs.TwoRuns
/-!
# StepDown — how a search comes down to a limit that is not refused

A search asks with the smaller of what is wanted and what there is, and goes down by one as long as the service refuses.
The first reply that is no refusal ends it: an answer gives its hits, one for each item and in order, and any other failure
is passed on.  Only if the limit of one is refused too does the search itself fail, with the text of that refusal
(`StepsDown`).  This holds over any service, from any state of it, and the lock is as it was in the end (`search_stepsDown`).
-/
namespace NoteAgent
namespace Vector

open Attempt (Keeps)

/-! ## Replies -/

/-- The fields of a hit's entity: none where there is nothing under that name. -/
inductive EntityOf (fields : List (String × Json)) : List (String × Json) → Prop
  | record {entity : List (String × Json)} (h : Json.lookup "entity" fields = some (.record entity)) :
    EntityOf fields entity
  | nothing (h : ∀ v, Json.lookup "entity" fields = some v → v.isNothing = true) : EntityOf fields []

/-- A well-formed hit as the service gives it, and the hit that it stands for: the id is the hit's own before the entity's,
the content the entity's before the hit's own, and the score a distance before a score. -/
inductive Decodes : Json → Hit → Prop
  | hit {fields entity : List (String × Json)} {score : Float} (inner : EntityOf fields entity)
    (scored : (((Json.lookup "distance" fields).or (Json.lookup "score" fields)).getD (.real 0)).toReal = .ok score) :
    Decodes (.record fields) ⟨Json.shown (((Json.lookup "id" fields).or (Json.lookup "id" entity)).getD (.text "")),
      ((Json.lookup "content" entity).or (Json.lookup "content" fields)).getD (.text ""), score⟩

/-- A reply gives these hits: none if it is empty, and those of its first list, in order, if that is one of well-formed
hits. -/
inductive Gives : Json → List Hit → Prop
  | empty {reply : Json} (h : reply.isNothing = true) : Gives reply []
  | list {items more : List Json} {hits : List Hit} (h : List.Forall₂ Decodes items hits) :
    Gives (.list (.list items :: more)) hits

theorem EntityOf.fieldsOrNone {fields entity : List (String × Json)} (h : EntityOf fields entity) :
    ((Json.lookup "entity" fields).getD .null).fieldsOrNone = .ok entity := by
  cases h with
  | record h =>
    rw [h, Option.getD_some, Json.Value.fieldsOrNone]
    cases entity <;> rfl
  | nothing h =>
    cases hfound : Json.lookup "entity" fields with
    | none => rfl
    | some v => exact if_pos (h v hfound)

theorem EntityOf.of_fieldsOrNone {fields entity : List (String × Json)}
    (h : ((Json.lookup "entity" fields).getD .null).fieldsOrNone = .ok entity) : EntityOf fields entity := by
  unfold Json.Value.fieldsOrNone at h
  split at h
  · rename_i hnothing
    cases h
    refine .nothing fun v hv => ?_
    rwa [hv] at hnothing
  · split at h
    · rename_i hrecord
      cases h
      cases hfound : Json.lookup "entity" fields with
      | none =>
        rw [hfound] at hrecord
        cases hrecord
      | some v =>
        rw [hfound] at hrecord
        exact .record (hfound.trans (congrArg some hrecord))
    · cases h

/-- **The hits that can be read are the well-formed ones.** -/
theorem readHit_iff {h : Json} {hit : Hit} : readHit h = .ok hit ↔ Decodes h hit := by
  constructor
  · intro hread
    unfold readHit at hread
    split at hread
    · rename_i fields
      cases hentity : ((Json.lookup "entity" fields).getD .null).fieldsOrNone with
      | error e => rw [hentity] at hread; cases hread
      | ok entity =>
        cases hscore : (((Json.lookup "distance" fields).or (Json.lookup "score" fields)).getD (.real 0)).toReal with
        | error e => rw [hentity, hscore] at hread; cases hread
        | ok score =>
          rw [hentity, hscore] at hread
          cases hread
          exact .hit (.of_fieldsOrNone hentity) hscore
    · cases hread
  · rintro ⟨inner, scored⟩
    simp only [readHit, inner.fieldsOrNone, scored]
    rfl

theorem Gives.read {reply : Json} {hits : List Hit} (h : Gives reply hits) :
    ∃ v, firstAnswer reply = .ok (some v) ∧ readHits v = .ok hits := by
  cases h with
  | empty h => exact ⟨.list [], if_pos h, rfl⟩
  | @list items more hits h => exact ⟨.list items, rfl, mapM_eq_ok.2 (h.imp fun _ _ => readHit_iff.2)⟩

/-! ## Queries -/

/-- A query to a service: its limit, and what came of it. -/
structure Query where
  limit : Nat
  answer : Except Failure Json

/-- The service refused the query. -/
def Query.Refused (q : Query) : Prop := ∃ text, q.answer = .error (.refused text)

/-- A reply with well-formed hits, a refusal, or another failure, which is not the search's own. -/
inductive Proper : Except Failure Json → Prop
  | gives {reply : Json} {hits : List Hit} (h : Gives reply hits) : Proper (.ok reply)
  | fails {e : Failure} (h : ∀ collection last, e ≠ .searchFailed collection last) : Proper (.error e)

variable {σ : Type}

/-- The queries are put to the service one after the other, and lead it from the first state to the last. -/
inductive Asks (ask : Nat → Attempt σ Json) : σ → List Query → σ → Prop
  | none (s : σ) : Asks ask s [] s
  | next {limit : Nat} {answer : Except Failure Json} {asked : List Query} {s s' s'' : σ}
    (first : ask limit s = (answer, s')) (rest : Asks ask s' asked s'') : Asks ask s (⟨limit, answer⟩ :: asked) s''

/-- Whatever limits the service is asked with from a state on, each reply is a proper one. -/
def AnswersProperly (ask : Nat → Attempt σ Json) (s : σ) : Prop :=
  ∀ asked s', Asks ask s asked s' → ∀ q ∈ asked, Proper q.answer

theorem AnswersProperly.first {ask : Nat → Attempt σ Json} {s s' : σ} {limit : Nat} {answer : Except Failure Json}
    (h : AnswersProperly ask s) (first : ask limit s = (answer, s')) : Proper answer :=
  h _ _ (.next first (.none s')) _ List.mem_cons_self

theorem AnswersProperly.next {ask : Nat → Attempt σ Json} {s s' : σ} {limit : Nat} {answer : Except Failure Json}
    (h : AnswersProperly ask s) (first : ask limit s = (answer, s')) : AnswersProperly ask s' := fun _ _ hasked q hq =>
  h _ _ (.next first hasked) q (List.mem_cons_of_mem _ hq)

/-- Queries that were refused with these texts, the first with a limit and each other with one less than the one before. -/
def refusals : Nat → List String → List Query
  | _, [] => []
  | limit, text :: texts => ⟨limit, .error (.refused text)⟩ :: refusals (limit - 1) texts

/-- How a search for a collection goes down from the limit `top`, by what it asks and what it comes to. -/
inductive StepsDown (name : String) (top : Nat) : List Query → Except Failure (List Hit) → Prop
  /-- A reply after some refusals. -/
  | accepted (texts : List String) {reply : Json} {hits : List Hit} (early : texts.length < top)
    (given : Gives reply hits) :
    StepsDown name top (refusals top texts ++ [⟨top - texts.length, .ok reply⟩]) (.ok hits)
  /-- Another failure after some refusals. -/
  | failed (texts : List String) {e : Failure} (early : texts.length < top) (other : ∀ text, e ≠ .refused text) :
    StepsDown name top (refusals top texts ++ [⟨top - texts.length, .error e⟩]) (.error e)
  /-- Refusals of every limit down to one, which was refused with `last`. -/
  | exhausted (texts : List String) {last : String} (all : texts.length + 1 = top) :
    StepsDown name top (refusals top texts ++ [⟨1, .error (.refused last)⟩]) (.error (.searchFailed name (some last)))

section
variable {name : String} {top : Nat} {asked : List Query} {result : Except Failure (List Hit)}

theorem StepsDown.cons (h : StepsDown name top asked result) (text : String) :
    StepsDown name (top + 1) (⟨top + 1, .error (.refused text)⟩ :: asked) result := by
  cases h with
  | accepted texts early given =>
    rw [← Nat.add_sub_add_right top 1 texts.length]
    exact .accepted (text :: texts) (Nat.succ_lt_succ early) given
  | failed texts early other =>
    rw [← Nat.add_sub_add_right top 1 texts.length]
    exact .failed (text :: texts) (Nat.succ_lt_succ early) other
  | exhausted texts all => exact .exhausted (text :: texts) (by rw [List.length_cons, all])

theorem length_refusals (limit : Nat) (texts : List String) : (refusals limit texts).length = texts.length := by
  induction texts generalizing limit with
  | nil => rfl
  | cons text texts ih => rw [refusals, List.length_cons, ih, List.length_cons]

theorem refused_refusals (limit : Nat) (texts : List String) : ∀ q ∈ refusals limit texts, q.Refused := by
  induction texts generalizing limit with
  | nil => exact List.forall_mem_nil _
  | cons text texts ih => exact List.forall_mem_cons.2 ⟨⟨text, rfl⟩, ih _⟩

theorem limits_refusals (limit : Nat) (texts : List String) :
    (refusals limit texts).map (·.limit) = (List.range texts.length).map (limit - ·) := by
  induction texts generalizing limit with
  | nil => rfl
  | cons text texts ih =>
    rw [refusals, List.map_cons, ih, List.length_cons, List.range_succ_eq_map, List.map_cons, List.map_map]
    congr 2
    funext i
    simp only [Function.comp_apply]
    omega

/-- The limits that are asked with go down by one from `top`, none left out and none asked with twice. -/
theorem StepsDown.limits (h : StepsDown name top asked result) :
    asked.map (·.limit) = (List.range asked.length).map (top - ·) := by
  have hlast (texts : List String) (answer : Except Failure Json) :
      (refusals top texts ++ [Query.mk (top - texts.length) answer]).map (·.limit) =
        (List.range (refusals top texts ++ [Query.mk (top - texts.length) answer]).length).map (top - ·) := by
    rw [List.map_append, limits_refusals, List.length_append, length_refusals, List.length_singleton, List.range_succ,
      List.map_append]
    rfl
  cases h with
  | accepted => exact hlast _ _
  | failed => exact hlast _ _
  | exhausted texts all =>
    have hone : 1 = top - texts.length := by omega
    rw [hone]
    exact hlast _ _

/-- **A search fails of its own just if every limit down to one is refused.** -/
theorem StepsDown.fails_iff (h : StepsDown name top asked result) (proper : ∀ q ∈ asked, Proper q.answer) :
    (∃ collection last, result = .error (.searchFailed collection last)) ↔
      asked.length = top ∧ ∀ q ∈ asked, q.Refused := by
  have hends {q : Query} {qs : List Query} : q ∈ qs ++ [q] := List.mem_append_right _ List.mem_cons_self
  cases h with
  | accepted =>
    refine ⟨fun ⟨_, _, he⟩ => (by cases he), fun ⟨_, hall⟩ => ?_⟩
    obtain ⟨text, htext⟩ := hall _ hends
    cases htext
  | failed _ early other =>
    constructor
    · rintro ⟨collection, last, he⟩
      cases he
      cases proper _ hends with
      | fails hnot => exact absurd rfl (hnot collection last)
    · rintro ⟨-, hall⟩
      obtain ⟨text, htext⟩ := hall _ hends
      cases htext
      exact absurd rfl (other text)
  | exhausted texts all =>
    refine ⟨fun _ => ⟨?_, fun q hq => ?_⟩, fun _ => ⟨name, some _, rfl⟩⟩
    · rw [List.length_append, length_refusals, List.length_singleton, all]
    · rcases List.mem_append.1 hq with hq | hq
      · exact refused_refusals _ _ q hq
      · exact ⟨_, by rw [List.mem_singleton.1 hq]⟩

end

/-! ## Searching -/

namespace Index

/-- What a search for a collection comes to once a limit is accepted, or none is. -/
def settled (name : String) : Except Failure (Except (Option String) Json) → Except Failure (List Hit)
  | .ok (.ok hits) => readHits hits
  | .ok (.error last) => .error (.searchFailed name last)
  | .error e => .error e

theorem limits_succ (m : Nat) :
    (List.range (m + 1)).reverse.map (· + 1) = (m + 1) :: (List.range m).reverse.map (· + 1) := by
  rw [List.range_succ, List.reverse_append, List.map_append]
  rfl

theorem firstAccepted_first {ask : Nat → Attempt σ Json} {limit : Nat} {i : IndexOver σ} {answer : Except Failure Json}
    {s' : σ} (first : ask limit i.service = (answer, s')) (last : Option String) (limits : List Nat) :
    firstAccepted (fun limit => calling (ask limit)) last (limit :: limits) i =
      match answer with
      | .ok results => firstAccepted.firstAnswerOf last results { i with service := s' }
      | .error (.refused text) =>
        firstAccepted (fun limit => calling (ask limit)) (some text) limits { i with service := s' }
      | .error f => (.error f, { i with service := s' }) := by
  have hrun : calling (ask limit) i = (answer, { i with service := s' }) := by
    rw [calling, Attempt.on_run, first]
  rw [firstAccepted, Attempt.settle_bind_run, hrun]
  cases answer with
  | ok results => rfl
  | error e => cases e <;> rfl

/-- What comes of a limit, if it is known what comes of the smaller ones after a refusal. -/
theorem stepsDown_first (name : String) {ask : Nat → Attempt σ Json} {m : Nat} {limits : List Nat} {i : IndexOver σ}
    (proper : AnswersProperly ask i.service) (last : Option String)
    (rest : ∀ text s', ask (m + 1) i.service = (.error (.refused text), s') → ∃ asked s'' r, Asks ask s' asked s'' ∧
      firstAccepted (fun limit => calling (ask limit)) (some text) limits { i with service := s' } =
        (r, { i with service := s'' }) ∧
      StepsDown name (m + 1) (⟨m + 1, .error (.refused text)⟩ :: asked) (settled name r)) :
    ∃ asked s' r, Asks ask i.service asked s' ∧
      firstAccepted (fun limit => calling (ask limit)) last ((m + 1) :: limits) i = (r, { i with service := s' }) ∧
        StepsDown name (m + 1) asked (settled name r) := by
  rcases first : ask (m + 1) i.service with ⟨answer, s'⟩
  rw [firstAccepted_first first]
  have hproper := proper.first first
  cases answer with
  | ok reply =>
    obtain ⟨given⟩ | - := hproper
    rename_i hits
    obtain ⟨v, hfirst, hread⟩ := given.read
    refine ⟨_, s', .ok (.ok v), .next first (.none s'), ?_, ?_⟩
    · dsimp only
      rw [firstAccepted.firstAnswerOf, hfirst]
      rfl
    · rw [settled, hread]
      exact .accepted [] (Nat.succ_pos m) given
  | error e =>
    by_cases hrefused : ∃ text, e = .refused text
    · obtain ⟨text, rfl⟩ := hrefused
      obtain ⟨asked, s'', r, hasked, hrun, hsteps⟩ := rest text s' first
      exact ⟨_, s'', r, .next first hasked, hrun, hsteps⟩
    · refine ⟨_, s', .error e, .next first (.none s'), ?_, ?_⟩
      · cases e
        case refused text => exact absurd ⟨text, rfl⟩ hrefused
        all_goals rfl
      · exact .failed [] (Nat.succ_pos m) fun text he => hrefused ⟨text, he⟩

/-- **Limits that go down to one are asked with until one is not refused.**  The induction is on the first of them. -/
theorem firstAccepted_stepsDown (name : String) {ask : Nat → Attempt σ Json} (m : Nat) (last : Option String)
    (i : IndexOver σ) (proper : AnswersProperly ask i.service) : ∃ asked s' r, Asks ask i.service asked s' ∧
      firstAccepted (fun limit => calling (ask limit)) last ((List.range (m + 1)).reverse.map (· + 1)) i =
        (r, { i with service := s' }) ∧ StepsDown name (m + 1) asked (settled name r) := by
  induction m generalizing last i with
  | zero =>
    refine stepsDown_first name proper last fun text s' first => ?_
    exact ⟨[], s', .ok (.error (some text)), .none s', rfl, .exhausted [] rfl⟩
  | succ m ih =>
    rw [limits_succ]
    refine stepsDown_first name proper last fun text s' first => ?_
    obtain ⟨asked, s'', r, hasked, hrun, hsteps⟩ := ih (some text) { i with service := s' } (proper.next first)
    exact ⟨asked, s'', r, hasked, hrun, hsteps.cons text⟩

variable [Client σ]

/-- What the service reports as the number of rows of the user's collection, which is made if it is not there. -/
def rowCount (user : Int) : Attempt (IndexOver σ) Int := do
  let name ← collection user
  .ofExcept (countOf (← calling (Client.stats name)))

/-- The part of a search that follows the counting of rows. -/
def hitsAmong (name query : String) (k : Int) (tag : Option String) (count : Int) : Attempt (IndexOver σ) Json := do
  match limits k count with
  | [] => return .list []
  | tries =>
    let queries ← embed query
    match ← firstAccepted (fun limit => calling (Client.search name queries limit (tagFilter tag))) none tries with
    | .ok hits => return hits
    | .error last => .fail (.searchFailed name last)

variable {user : Int} {query : String} {k n : Int} {tag : Option String} {i j : IndexOver σ}

/-- Where rows can be counted, a search is what follows the counting, with the lock given back. -/
theorem search_counted (counted : rowCount user { i with lock := i.lock.enter .read } = (.ok n, j)) :
    search user query k tag i =
      let ran := hitsAmong (collectionOf user) query k tag n j
      (ran.1 >>= readHits, { ran.2 with lock := ran.2.lock.leave .read }) := by
  obtain ⟨name, j₁, hname, hcounted⟩ := Attempt.bind_ok counted
  obtain rfl := collection_answers user _ name (congrArg Prod.fst hname)
  obtain ⟨stats, j₂, hstats, hcount⟩ := Attempt.bind_ok hcounted
  have hbody : (collection user >>= fun name => calling (Client.stats name) >>= fun stats =>
      Attempt.ofExcept (countOf stats) >>= fun count => hitsAmong name query k tag count)
        { i with lock := i.lock.enter .read } = hitsAmong (collectionOf user) query k tag n j := by
    rw [Attempt.bind_run_ok hname, Attempt.bind_run_ok hstats, Attempt.bind_run_ok hcount]
  have hraw : rawHits user query k tag i = ((hitsAmong (collectionOf user) query k tag n j).1,
      { (hitsAmong (collectionOf user) query k tag n j).2 with
        lock := (hitsAmong (collectionOf user) query k tag n j).2.lock.leave .read }) := by
    rw [← hbody]
    rfl
  dsimp only
  rw [search]
  cases hran : (hitsAmong (collectionOf user) query k tag n j).1 with
  | error e =>
    rw [hran] at hraw
    rw [Attempt.bind_run_error hraw]
    rfl
  | ok hits =>
    rw [hran] at hraw
    rw [Attempt.bind_run_ok hraw]
    rfl

theorem hitsAmong_none (h : limits k n = []) (name : String) :
    hitsAmong name query k tag n j = (.ok (.list []), j) := by
  rw [hitsAmong, h]
  rfl

/-- The lock is as it was. -/
def SameLock (i i' : IndexOver σ) : Prop := i'.lock = i.lock

omit [Client σ] in
theorem sameLock_trans {i i' i'' : IndexOver σ} (h : SameLock i i') (h' : SameLock i' i'') : SameLock i i'' := h'.trans h

instance : Std.Refl (SameLock (σ := σ)) := ⟨fun _ => rfl⟩
instance : Trans (SameLock (σ := σ)) (SameLock (σ := σ)) (SameLock (σ := σ)) := ⟨sameLock_trans⟩

omit [Client σ] in
theorem sameLock_calling {α : Type} (t : Attempt σ α) : Keeps SameLock (calling t) := fun _ => rfl

theorem sameLock_collection (user : Int) : Keeps (SameLock (σ := σ)) (collection user) :=
  keeps_collection_of (sameLock_calling _) (fun _ => sameLock_calling _) fun _ => rfl

/-- **A search gives its side of the lock back**, wherever it ends. -/
theorem sameLock_search (user : Int) (query : String) (k : Int) (tag : Option String) :
    Keeps (SameLock (σ := σ)) (search user query k tag) := by
  refine keeps_search_of query k tag (fun t ht i => ?_) (sameLock_collection user) (sameLock_calling _) (fun _ _ => rfl)
    fun _ _ _ => sameLock_calling _
  have hinside : (t { i with lock := i.lock.enter .read }).2.lock = i.lock.enter .read := ht _
  change (t { i with lock := i.lock.enter .read }).2.lock.leave .read = i.lock
  rw [hinside]
  rfl

/-! ### Step by step -/

theorem lock_counted (counted : rowCount user { i with lock := i.lock.enter .read } = (.ok n, j)) :
    j.lock.leave .read = i.lock := by
  have hcount : Keeps (SameLock (σ := σ)) (rowCount user) :=
    (sameLock_collection user).bind fun _ => (sameLock_calling _).bind fun _ => .ofExcept _
  have hlock : j.lock = i.lock.enter .read := hcount.run counted
  rw [hlock]
  rfl

theorem search_none (counted : rowCount user { i with lock := i.lock.enter .read } = (.ok n, j)) (h : min k n ≤ 0) :
    search user query k tag i = (.ok [], { j with lock := i.lock }) := by
  have hlimits : limits k n = [] := by
    rw [limits, Int.toNat_of_nonpos h]
    rfl
  rw [search_counted counted, hitsAmong_none hlimits]
  dsimp only
  rw [lock_counted counted]
  rfl

/-- Where there are rows to find, the query is embedded, and then the limits are gone down. -/
theorem search_some (tag : Option String)
    (counted : rowCount user { i with lock := i.lock.enter .read } = (.ok n, j)) (h : 0 < min k n)
    (answer : Except Failure (List Embedding)) (embedded : j.embedder.embed j.embedder.asked query = answer) :
    let next : IndexOver σ := { j with embedder := j.embedder.next }
    search user query k tag i = match answer with
      | .error e => (.error e, { next with lock := i.lock })
      | .ok queries =>
        let ran := firstAccepted (fun limit => calling (Client.search (collectionOf user) queries limit (tagFilter tag)))
          none (limits k n) next
        (settled (collectionOf user) ran.1, { ran.2 with lock := ran.2.lock.leave .read }) := by
  have hlock := lock_counted counted
  have hne : limits k n ≠ [] := by
    obtain ⟨m, hm⟩ : ∃ m, (min k n).toNat = m + 1 := ⟨(min k n).toNat - 1, by omega⟩
    rw [limits, hm, limits_succ]
    exact List.cons_ne_nil _ _
  have hembed : embed query j = (answer, { j with embedder := j.embedder.next }) := by rw [← embedded]; rfl
  have hhits : (hitsAmong (collectionOf user) query k tag n : Attempt (IndexOver σ) Json) = embed query >>= fun queries =>
      firstAccepted (fun limit => calling (Client.search (collectionOf user) queries limit (tagFilter tag))) none
        (limits k n) >>= fun accepted => match accepted with
          | .ok hits => .done hits
          | .error last => .fail (.searchFailed (collectionOf user) last) := by
    unfold hitsAmong
    split
    · rename_i hnone
      exact absurd hnone hne
    · rfl
  rw [search_counted counted, hhits]
  dsimp only
  cases answer with
  | error e =>
    rw [Attempt.bind_run_error hembed]
    dsimp only
    rw [hlock]
    rfl
  | ok queries =>
    rw [Attempt.bind_run_ok hembed]
    dsimp only
    rw [Attempt.bind_run]
    generalize (firstAccepted (fun limit => calling (Client.search (collectionOf user) queries limit (tagFilter tag))) none
      (limits k n) : Attempt (IndexOver σ) _) { j with embedder := j.embedder.next } = ran
    obtain ⟨_ | _ | hits, j'⟩ := ran <;> rfl

/-- **A search goes down by one from the smaller of what is wanted and what there is**, until a limit is not refused; the
hits are those of that reply, any other failure ends it, and it fails of its own just if one was refused too.  With nothing
to be found nothing is embedded or asked.  The lock is as it was in the end. -/
theorem search_stepsDown (query : String) (k : Int) (tag : Option String)
    (counted : rowCount user { i with lock := i.lock.enter .read } = (.ok n, j))
    (proper : ∀ queries, AnswersProperly
      (fun limit => Client.search (collectionOf user) queries limit (tagFilter tag)) j.service) :
    (search user query k tag i).2.lock = i.lock ∧
    (min k n ≤ 0 → search user query k tag i = (.ok [], { j with lock := i.lock })) ∧
    (0 < min k n →
      (∀ e, j.embedder.embed j.embedder.asked query = .error e →
        search user query k tag i = (.error e, { j with embedder := j.embedder.next, lock := i.lock })) ∧
      ∀ queries, j.embedder.embed j.embedder.asked query = .ok queries → ∃ asked s' result,
        Asks (fun limit => Client.search (collectionOf user) queries limit (tagFilter tag)) j.service asked s' ∧
        search user query k tag i =
          (result, { j with service := s', embedder := j.embedder.next, lock := i.lock }) ∧
        StepsDown (collectionOf user) (min k n).toNat asked result ∧
        asked.map (·.limit) = (List.range asked.length).map ((min k n).toNat - ·) ∧
        ((∃ collection last, result = .error (.searchFailed collection last)) ↔
          asked.length = (min k n).toNat ∧ ∀ q ∈ asked, q.Refused)) := by
  refine ⟨sameLock_search user query k tag i, search_none counted, fun hrows => ⟨fun e he => ?_, ?_⟩⟩
  · exact search_some tag counted hrows _ he
  · intro queries hqueries
    obtain ⟨m, hm⟩ : ∃ m, (min k n).toNat = m + 1 := ⟨(min k n).toNat - 1, by omega⟩
    obtain ⟨asked, s', r, hasked, hran, hsteps⟩ := firstAccepted_stepsDown (collectionOf user) m none
      { j with embedder := j.embedder.next } (proper queries)
    have hsearch := search_some tag counted hrows _ hqueries
    dsimp only at hsearch
    rw [limits, hm, hran] at hsearch
    dsimp only at hsearch
    rw [lock_counted counted] at hsearch
    rw [hm]
    exact ⟨asked, s', _, hasked, hsearch, hsteps, hsteps.limits, hsteps.fails_iff (proper queries asked s' hasked)⟩

/-- A service that reports three rows, refuses every limit but one, and then finds this. -/
def fussy (found : Json) : Index :=
  .fresh ⟨[], [], fun _ call => match call with
      | .search _ limit _ => if limit = 1 then none else some (.refused ("no " ++ toString limit))
      | _ => none, fun _ => some (.record [("row_count", .int 3)]), fun _ _ => some found⟩ ⟨fun _ _ => .ok [[]], 0⟩ 4

/-- A reply with one hit, that has its content in its entity. -/
def oneHit : Json :=
  .list [.list [.record [("id", .text "n1"), ("distance", .real 0), ("entity", .record [("content", .text "one")])]]]

theorem gives_oneHit : Gives oneHit [⟨"n1", .text "one", 0⟩] := by
  refine .list (.cons ?_ .nil)
  exact readHit_iff.1 rfl

theorem search_fussy {found : Json} (name filter : String) (queries : List Embedding) (limit : Nat) {s : Service}
    (hs : s.conduct = (fussy found).service.conduct) : (Service.search name queries limit filter s).1 =
      if limit = 1 then .ok found else .error (.refused ("no " ++ toString limit)) := by
  have hrefuse : s.conduct.refuse s.log.length (.search name limit filter) =
      if limit = 1 then none else some (.refused ("no " ++ toString limit)) := by rw [hs]; rfl
  have hfound (n : Nat) : s.conduct.hits n limit = some found := by rw [hs]; rfl
  rw [Service.search, Attempt.bind_run, Service.send, hrefuse]
  by_cases hone : limit = 1
  · rw [if_pos hone, if_pos hone]
    simp only [Attempt.bind_run, Attempt.look_run, hfound, Attempt.done_run]
  · rw [if_neg hone, if_neg hone]

theorem answersProperly_fussy (name filter : String) (queries : List Embedding) {s : Service}
    (hs : s.conduct = (fussy oneHit).service.conduct) :
    AnswersProperly (fun limit => Client.search name queries limit filter) s := by
  intro asked s' hasked
  induction hasked with
  | none => exact List.forall_mem_nil _
  | @next limit answer asked s s₁ s₂ first _ ih =>
    have hunwritten : Service.Unwritten s s₁ :=
      (Service.keeps_search name queries limit filter (Service.unwritten_send _)).run first
    refine List.forall_mem_cons.2 ⟨?_, ih (hunwritten.conduct.trans hs)⟩
    have hfirst : answer = (Service.search name queries limit filter s).1 := (congrArg Prod.fst first).symm
    rw [hfirst, search_fussy name filter queries limit hs]
    split
    · exact .gives gives_oneHit
    · exact .fails fun _ _ h => by cases h

/-- Of three rows five are wanted: the limits three and two are refused, and one gives the hit. -/
theorem search_stepsDown_fussy : ∃ j : Index,
    rowCount 1 { fussy oneHit with lock := (fussy oneHit).lock.enter .read } = (.ok 3, j) ∧
    (∀ queries, AnswersProperly
      (fun limit => Client.search (collectionOf 1) queries limit (tagFilter none)) j.service) ∧
    0 < min (5 : Int) 3 ∧ j.embedder.embed j.embedder.asked "one" = .ok [[]] ∧
    ∃ asked s', Asks (fun limit => Client.search (collectionOf 1) [[]] limit (tagFilter none)) j.service asked s' ∧
      search 1 "one" 5 none (fussy oneHit) = (.ok [⟨"n1", .text "one", 0⟩],
        { j with service := s', embedder := j.embedder.next, lock := .free }) ∧
      StepsDown (collectionOf 1) 3 asked (.ok [⟨"n1", .text "one", 0⟩]) ∧
      s'.log.filterMap (fun | .search _ limit _ => some limit | _ => none) = [3, 2, 1] := by
  have counted : rowCount 1 { fussy oneHit with lock := (fussy oneHit).lock.enter .read } = (.ok 3, _) := rfl
  have proper := fun queries => answersProperly_fussy (collectionOf 1) (tagFilter none) queries
    (s := (rowCount 1 { fussy oneHit with lock := (fussy oneHit).lock.enter .read }).2.service) rfl
  refine ⟨_, counted, proper, by decide, rfl, ?_⟩
  obtain ⟨-, -, hsome⟩ := search_stepsDown "one" 5 none counted proper
  obtain ⟨asked, s', result, hasked, hsearch, hsteps, -, -⟩ := (hsome (by decide)).2 [[]] rfl
  have hresult : (search 1 "one" 5 none (fussy oneHit)).1 = .ok [⟨"n1", .text "one", 0⟩] := rfl
  have hlog : (search 1 "one" 5 none (fussy oneHit)).2.service.log.filterMap
      (fun | .search _ limit _ => some limit | _ => none) = [3, 2, 1] := rfl
  rw [hsearch] at hresult hlog
  obtain rfl : result = .ok [⟨"n1", .text "one", 0⟩] := hresult
  exact ⟨asked, s', hasked, hsearch, hsteps, hlog⟩

end Index
end Vector
end NoteAgent
