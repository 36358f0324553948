import NoteAgent.Proofs.IndexRows
import NoteAgent.Proofs.ListTraversal
/-!
# SearchHits — what a search can show

Where the service answers with its own ranking, each hit of a search is a document of the user's collection, shown under its
id with its content (`search_shows`), whatever limits are refused before one is not.
-/
namespace NoteAgent
namespace Vector

open Attempt (Ends)

/-! ## Ranking -/

theorem mem_of_scored {query : Embedding} : ∀ {rs : List Row} {scores : List (Float × Row)},
    scored query rs = .ok scores → ∀ x ∈ scores, x.2 ∈ rs
  | [], _, h, x, hx => by
    cases h
    cases hx
  | r :: rs, scores, h, x, hx => by
    rw [scored] at h
    cases hscore : score query r with
    | error e => rw [hscore] at h; cases h
    | ok n =>
      cases hrest : scored query rs with
      | error e => rw [hscore, hrest] at h; cases h
      | ok more =>
        rw [hscore, hrest] at h
        cases h
        rcases List.mem_cons.1 hx with rfl | hx
        · exact List.mem_cons_self
        · exact List.mem_cons_of_mem _ (mem_of_scored hrest x hx)

/-- Ranking shows rows that are there. -/
theorem mem_of_ranked {query : Embedding} {rs : List Row} {best : List (Float × Row)} (h : ranked query rs = .ok best) :
    ∀ x ∈ best, x.2 ∈ rs := by
  unfold ranked at h
  cases hscored : scored query rs with
  | error e => rw [hscored] at h; cases h
  | ok scores =>
    rw [hscored] at h
    cases h
    exact fun x hx => mem_of_scored hscored x ((List.mergeSort_perm _ _).mem_iff.1 hx)

theorem mem_of_admitted {filter : String} {rs : List Row} {r : Row} (h : r ∈ admitted filter rs) : r ∈ rs := by
  unfold admitted at h
  split at h
  · exact h
  · exact (List.mem_filter.1 h).1

/-! ## Hits -/

/-- The hits of a search are documents of the list. -/
def HitsOf (ds : List Document) (hits : Json) : Prop :=
  ∃ best : List (Float × Row), hits = .list (best.map hit) ∧ ∀ x ∈ best, x.2.document ∈ ds

/-- The hit is the document. -/
def Hit.Shows (h : Hit) (d : Document) : Prop := h.id = d.id ∧ h.content = .text d.content

theorem shows_of_readHit {x : Float × Row} {h : Hit} (hread : readHit (hit x) = .ok h) : h.Shows x.2.document := by
  cases hread
  exact ⟨rfl, rfl⟩

theorem HitsOf.shows {ds : List Document} {v : Json} (hv : HitsOf ds v) {hits : List Hit} (hread : readHits v = .ok hits) :
    ∀ h ∈ hits, ∃ d ∈ ds, h.Shows d := by
  obtain ⟨best, rfl, hbest⟩ := hv
  intro h hh
  obtain ⟨v, hv, hreadHit⟩ := exists_of_mapM hread h hh
  obtain ⟨x, hx, rfl⟩ := List.mem_map.1 hv
  exact ⟨x.2.document, hbest x hx, shows_of_readHit hreadHit⟩

/-! ## Searching -/

namespace Service

/-- The service answers a search with rows of the collection. -/
theorem search_hits {s : Service} (hs : ∀ n limit, s.conduct.hits n limit = none) (name : String)
    (queries : List Embedding) (limit : Nat) (filter : String) :
    Ends (search name queries limit filter) s fun r _ => ∀ v, r = .ok v →
      ∃ hits, v = .list [hits] ∧ HitsOf ((s.rows name).map Row.document) hits := by
  have hsent : Ends (send (.search name limit filter)) s fun _ s' => Unwritten s s' := unwritten_send _ s
  refine hsent.bind (fun n s' h => Ends.look ?_) fun _ _ _ _ he => by cases he
  rw [h.conduct, hs]
  cases queries with
  | nil => exact fun _ he => by cases he
  | cons query _ =>
    refine Ends.look ?_
    have hranked : Ends (.ofExcept (ranked query (admitted filter (s'.rows name)))) s' fun r _ =>
        r = ranked query (admitted filter (s'.rows name)) := rfl
    refine hranked.bind (fun best s'' hbest v hv => ?_) fun _ _ _ _ he => by cases he
    cases hv
    refine ⟨_, rfl, _, rfl, fun x hx => List.mem_map_of_mem ?_⟩
    have hrow := mem_of_admitted (mem_of_ranked hbest.symm x (List.mem_of_mem_take hx))
    rwa [rows, h.collections, ← rows] at hrow

end Service

namespace Index

/-- The index has these documents for the user, and the service answers with its own ranking. -/
def Offers (user : Int) (ds : List Document) (i : Index) : Prop :=
  i.documents user = ds ∧ ∀ n limit, i.service.conduct.hits n limit = none

variable {user : Int} {ds : List Document}

theorem Offers.unwritten {i i' : Index} (h : Offers user ds i) (hu : Unwritten i i') : Offers user ds i' :=
  ⟨(hu.documents user).trans h.1, fun n limit => by rw [hu.conduct, h.2]⟩

theorem ends_holding {α : Type} {side : Lock.Side} {t : Attempt Index α} {Q : Except Failure α → Prop} {i : Index}
    (ht : ∀ i, Offers user ds i → Ends t i fun r _ => Q r) (hi : Offers user ds i) :
    Ends (holding side t) i fun r _ => Q r := ht { i with lock := i.lock.enter side } hi

/-- The first limit that is not refused gives the hits. -/
theorem firstAccepted_hits {ask : Nat → Attempt Index Json} (ha : ∀ limit i, Offers user ds i →
      Ends (ask limit) i fun r i' => Offers user ds i' ∧ ∀ v, r = .ok v → ∃ hits, v = .list [hits] ∧ HitsOf ds hits) :
    ∀ (limits : List Nat) (last : Option String) (i : Index), Offers user ds i →
      Ends (firstAccepted ask last limits) i fun r _ => ∀ hits, r = .ok (.ok hits) → HitsOf ds hits
  | [], _, _, _ => fun _ he => by cases he
  | limit :: limits, last, i, hi => by
    refine Ends.settle (ha limit i hi) fun r i' h => ?_
    obtain ⟨hi', hv⟩ := h
    cases r with
    | ok v =>
      obtain ⟨hits, rfl, best, rfl, hbest⟩ := hv v rfl
      intro hits he
      cases he
      exact ⟨best, rfl, hbest⟩
    | error e =>
      cases e
      case refused text => exact firstAccepted_hits ha limits _ i' hi'
      all_goals exact fun _ he => by cases he

theorem rawHits_hits {i : Index} (hi : Offers user ds i) (query : String) (k : Int) (tag : Option String) :
    Ends (rawHits user query k tag) i fun r _ => ∀ v, r = .ok v → HitsOf ds v := by
  refine ends_holding (fun i hi => ?_) hi
  have hthere : Ends (collection user) i fun r i' => Offers user ds i' ∧ ∀ name, r = .ok name → name = collectionOf user :=
    ⟨hi.unwritten (unwritten_collection user i), fun _ h => collection_answers user i _ h⟩
  refine hthere.bind (fun name i' h => ?_) fun _ _ _ _ he => by cases he
  obtain ⟨hi', hname⟩ := h
  obtain rfl := hname name rfl
  have hcounted : Ends (calling (Service.stats (collectionOf user))) i' fun _ i'' => Offers user ds i'' :=
    hi'.unwritten (unwritten_calling (Service.keeps_stats _ (Service.unwritten_send _)) i')
  refine hcounted.bind (fun stats i'' hi'' => ?_) fun _ _ _ _ he => by cases he
  have hcount : Ends (Attempt.ofExcept (countOf stats)) i'' fun _ i₃ => Offers user ds i₃ := hi''
  refine hcount.bind (fun count i₃ hi₃ => ?_) fun _ _ _ _ he => by cases he
  split
  · intro v hv
    cases hv
    exact ⟨[], rfl, fun _ hx => by cases hx⟩
  · have hembedded : Ends (embed query) i₃ fun _ i₄ => Offers user ds i₄ := hi₃.unwritten (unwritten_embed query i₃)
    refine hembedded.bind (fun queries i₄ hi₄ => ?_) fun _ _ _ _ he => by cases he
    have hasked : ∀ limit i, Offers user ds i →
        Ends (calling (Service.search (collectionOf user) queries limit (tagFilter tag))) i fun r i' =>
          Offers user ds i' ∧ ∀ v, r = .ok v → ∃ hits, v = .list [hits] ∧ HitsOf ds hits := fun limit i hi => by
      have hsearch := Service.search_hits hi.2 (collectionOf user) queries limit (tagFilter tag)
      refine ⟨hi.unwritten (unwritten_calling (Service.keeps_search _ _ _ _ (Service.unwritten_send _)) i), ?_⟩
      rw [← hi.1]
      exact hsearch
    refine (firstAccepted_hits hasked _ none i₄ hi₄).bind (fun answer i₅ h => ?_) fun _ _ _ _ he => by cases he
    cases answer with
    | ok hits =>
      intro v hv
      cases hv
      exact h hits rfl
    | error last => exact fun _ he => by cases he

/-- **A search shows documents of the user's collection**, each under its id with its content. -/
theorem search_shows {i : Index} (hi : Offers user ds i) (query : String) (k : Int) (tag : Option String) :
    Ends (search user query k tag) i fun r _ => ∀ hits, r = .ok hits → ∀ h ∈ hits, ∃ d ∈ ds, h.Shows d :=
  (rawHits_hits hi query k tag).bind (fun v _ h hits hread => (h v rfl).shows hread) fun _ _ _ _ he => by cases he

end Index
end Vector
end NoteAgent
