import NoteAgent.Proofs.IndexRows
/-!
# TwoRuns — one attempt from two states

From states in relation two attempts answer the same and leave states in relation again (`Tracks`); one attempt does so with
itself from states that agree in what it reads (`Respects`).  This is closed under the ways attempts are put together, so a
use of the index does so under any relation of indexes that each thing it does keeps (`Index.Lockstep`), also where the two
are over different clients.  A use for a user reads the user's collection, whether the index knows it, and what texts are
embedded as: from two indexes that agree in these it comes to the same (`SameBy`).
-/
namespace NoteAgent

namespace Attempt

variable {σ τ α β : Type}

/-- From states in relation the attempts answer the same, and the states after them are in relation. -/
def Tracks (R : σ → τ → Prop) (t : Attempt σ α) (u : Attempt τ α) : Prop :=
  ∀ s s', R s s' → (t s).1 = (u s').1 ∧ R (t s).2 (u s').2

namespace Tracks

variable {R : σ → τ → Prop}

theorem ofExcept (r : Except Failure α) : Tracks R (Attempt.ofExcept r) (Attempt.ofExcept r) := fun _ _ h => ⟨rfl, h⟩

theorem done (a : α) : Tracks R (Attempt.done a) (Attempt.done a) := .ofExcept (.ok a)

theorem fail (f : Failure) : Tracks R (Attempt.fail f : Attempt σ α) (Attempt.fail f) := .ofExcept (.error f)

theorem look {f : σ → α} {g : τ → α} (hf : ∀ s s', R s s' → f s = g s') : Tracks R (Attempt.look f) (Attempt.look g) :=
  fun s s' h => ⟨congrArg Except.ok (hf s s' h), h⟩

theorem change {f : σ → σ} {g : τ → τ} (hf : ∀ s s', R s s' → R (f s) (g s')) :
    Tracks R (Attempt.change f) (Attempt.change g) := fun s s' h => ⟨rfl, hf s s' h⟩

/-- The second attempts need only agree on answers that the first can give. -/
theorem bind_of {t : Attempt σ α} {u : Attempt τ α} {next : α → Attempt σ β} {next' : α → Attempt τ β} {V : α → Prop}
    (ht : Tracks R t u) (hv : Answers V t) (hn : ∀ a, V a → Tracks R (next a) (next' a)) :
    Tracks R (t >>= next) (u >>= next') := by
  intro s s' h
  obtain ⟨hr, hs⟩ := ht s s' h
  have hv := hv s
  rw [bind_run, bind_run]
  generalize t s = ran at *
  generalize u s' = ran' at *
  obtain ⟨r, x⟩ := ran
  obtain ⟨r', x'⟩ := ran'
  cases hr
  cases r with
  | error e => exact ⟨rfl, hs⟩
  | ok a => exact hn a (hv a rfl) x x' hs

theorem bind {t : Attempt σ α} {u : Attempt τ α} {next : α → Attempt σ β} {next' : α → Attempt τ β} (ht : Tracks R t u)
    (hn : ∀ a, Tracks R (next a) (next' a)) : Tracks R (t >>= next) (u >>= next') :=
  ht.bind_of (V := fun _ => True) (fun _ _ _ => trivial) fun a _ => hn a

theorem settle {t : Attempt σ α} {u : Attempt τ α} (ht : Tracks R t u) : Tracks R t.settle u.settle := fun s s' h =>
  ⟨congrArg Except.ok (ht s s' h).1, (ht s s' h).2⟩

end Tracks

variable {R : σ → σ → Prop}

/-- From states in relation the attempt answers the same, and the states after it are in relation. -/
def Respects (R : σ → σ → Prop) (t : Attempt σ α) : Prop :=
  ∀ s s', R s s' → (t s).1 = (t s').1 ∧ R (t s).2 (t s').2

namespace Respects

theorem ofExcept (r : Except Failure α) : Respects R (Attempt.ofExcept r) := Tracks.ofExcept r

theorem done (a : α) : Respects R (Attempt.done a) := Tracks.done a

theorem fail (f : Failure) : Respects R (Attempt.fail f : Attempt σ α) := Tracks.fail f

theorem look {f : σ → α} (hf : ∀ s s', R s s' → f s = f s') : Respects R (Attempt.look f) := Tracks.look hf

theorem change {f : σ → σ} (hf : ∀ s s', R s s' → R (f s) (f s')) : Respects R (Attempt.change f) := Tracks.change hf

theorem update {f : σ → Except Failure σ}
    (hf : ∀ s s', R s s' → (∃ e, f s = .error e ∧ f s' = .error e) ∨ ∃ a a', f s = .ok a ∧ f s' = .ok a' ∧ R a a') :
    Respects R (Attempt.update f) := fun s s' h => by
  unfold Attempt.update
  obtain ⟨e, he, he'⟩ | ⟨a, a', ha, ha', hr⟩ := hf s s' h
  · rw [he, he']
    exact ⟨rfl, h⟩
  · rw [ha, ha']
    exact ⟨rfl, hr⟩

theorem bind {t : Attempt σ α} {next : α → Attempt σ β} (ht : Respects R t) (hn : ∀ a, Respects R (next a)) :
    Respects R (t >>= next) := Tracks.bind ht hn

theorem settle {t : Attempt σ α} (ht : Respects R t) : Respects R (Attempt.settle t) := Tracks.settle ht

theorem ignore {t : Attempt σ α} (ht : Respects R t) : Respects R (Attempt.ignore t) := fun s s' h =>
  ⟨rfl, (ht s s' h).2⟩

theorem map {t : Attempt σ α} (ht : Respects R t) (f : α → β) : Respects R (f <$> t) := fun s s' h => by
  rw [map_run, map_run, (ht s s' h).1]
  exact ⟨rfl, (ht s s' h).2⟩

theorem on {τ : Type} {Q : τ → τ → Prop} {get : σ → τ} {set : σ → τ → σ} {t : Attempt τ α} (ht : Respects Q t)
    (hget : ∀ s s', R s s' → Q (get s) (get s')) (hset : ∀ s s' x x', R s s' → Q x x' → R (set s x) (set s' x')) :
    Respects R (Attempt.on get set t) := fun s s' h =>
  have hrun := ht (get s) (get s') (hget s s' h)
  ⟨hrun.1, hset s s' _ _ h hrun.2⟩

end Respects
end Attempt

namespace Vector

open Attempt (Respects Tracks)
open Client (Sends)

variable {σ τ : Type}

namespace Index

/-- All that a use of the index for a user does, but for embedding texts, keeps two indexes in relation. -/
structure Lockstep [Client σ] [Client τ] (R : IndexOver σ → IndexOver τ → Prop) (user : Int) : Prop where
  known : ∀ i i', R i i' → i.known.contains (collectionOf user) = i'.known.contains (collectionOf user)
  dimension : ∀ i i', R i i' → i.dimension = i'.dimension
  remember : ∀ i i', R i i' →
    R { i with known := collectionOf user :: i.known } { i' with known := collectionOf user :: i'.known }
  holding : ∀ {α : Type} {t : Attempt (IndexOver σ) α} {u : Attempt (IndexOver τ) α} (side : Lock.Side),
    Tracks R t u → Tracks R (holding side t) (holding side u)
  has : Tracks R (calling (Client.has (collectionOf user))) (calling (Client.has (collectionOf user)))
  create : ∀ dimension, Tracks R (calling (Client.create (collectionOf user) dimension))
    (calling (Client.create (collectionOf user) dimension))
  upsert : ∀ rows, Tracks R (calling (Client.upsert (collectionOf user) rows))
    (calling (Client.upsert (collectionOf user) rows))
  delete : ∀ ids, Tracks R (calling (Client.delete (collectionOf user) ids)) (calling (Client.delete (collectionOf user) ids))
  flush : Tracks R (calling (Client.flush (collectionOf user))) (calling (Client.flush (collectionOf user)))
  stats : Tracks R (calling (Client.stats (collectionOf user))) (calling (Client.stats (collectionOf user)))
  search : ∀ queries limit filter, Tracks R (calling (Client.search (collectionOf user) queries limit filter))
    (calling (Client.search (collectionOf user) queries limit filter))

theorem tracks_firstAccepted {R : IndexOver σ → IndexOver τ → Prop} {ask : Nat → Attempt (IndexOver σ) Json}
    {ask' : Nat → Attempt (IndexOver τ) Json} (ha : ∀ limit, Tracks R (ask limit) (ask' limit)) :
    ∀ (limits : List Nat) (last : Option String), Tracks R (firstAccepted ask last limits) (firstAccepted ask' last limits)
  | [], _ => .done _
  | limit :: limits, last => by
    refine (ha limit).settle.bind fun answer => ?_
    split
    · refine (Tracks.ofExcept _).bind fun hits => ?_
      cases hits <;> exact .done _
    · exact tracks_firstAccepted ha limits _
    · exact .fail _

namespace Lockstep

variable [Client σ] [Client τ] {R : IndexOver σ → IndexOver τ → Prop} {user : Int} (h : Lockstep R user)

include h in
theorem tracks_collection : Tracks R (collection user) (collection user) := by
  have remembered : Tracks R (Attempt.change fun i => { i with known := collectionOf user :: i.known })
      (Attempt.change fun i => { i with known := collectionOf user :: i.known }) := .change h.remember
  unfold collection
  refine (Tracks.look h.known).bind fun known => ?_
  cases known with
  | true => exact .done _
  | false =>
    refine h.has.bind fun there => ?_
    cases there with
    | true => exact remembered.bind fun _ => .done _
    | false =>
      exact (Tracks.look h.dimension).bind fun _ => (h.create _).bind fun _ => remembered.bind fun _ => .done _

include h in
/-- Where the collection of the user is there, the calls that follow name it. -/
theorem tracks_inCollection {α : Type} {next : String → Attempt (IndexOver σ) α} {next' : String → Attempt (IndexOver τ) α}
    (side : Lock.Side) (hn : Tracks R (next (collectionOf user)) (next' (collectionOf user))) :
    Tracks R (Index.holding side (collection user >>= next)) (Index.holding side (collection user >>= next')) :=
  h.holding side (h.tracks_collection.bind_of (collection_answers user) fun _ hname => hname ▸ hn)

include h in
theorem tracks_upsert (embedded : ∀ text, Tracks R (embed text) (embed text)) (id content : String)
    (more : List (String × String)) : Tracks R (Index.upsert user id content more) (Index.upsert user id content more) := by
  refine (embedded _).bind fun vs => ?_
  cases vs with
  | nil => exact .fail _
  | cons v _ => exact h.tracks_inCollection .write ((h.upsert _).bind fun _ => h.flush)

include h in
theorem tracks_delete (id : String) : Tracks R (Index.delete user id) (Index.delete user id) :=
  h.tracks_inCollection .write ((h.delete _).bind fun _ => h.flush)

include h in
theorem tracks_search (embedded : ∀ text, Tracks R (embed text) (embed text)) (query : String) (k : Int)
    (tag : Option String) : Tracks R (Index.search user query k tag) (Index.search user query k tag) := by
  refine Tracks.bind (h.tracks_inCollection .read ?_) fun _ => .ofExcept _
  refine h.stats.bind fun stats => (Tracks.ofExcept _).bind fun count => ?_
  split
  · exact .done _
  · refine (embedded _).bind fun queries => ?_
    refine (tracks_firstAccepted (fun limit => h.search _ _ _) _ _).bind fun answer => ?_
    cases answer with
    | ok hits => exact .done _
    | error last => exact .fail _

end Lockstep
end Index

/-- Every call that names a collection respects a relation of states. -/
def Client.CallsRespect [Client σ] (Q : σ → σ → Prop) (name : String) : Prop :=
  ∀ {α : Type} {call : Call} {t : Attempt σ α}, Sends call t → call.collection = name → Respects Q t

/-- The embedder once it was asked. -/
def Embedder.next (e : Embedder) : Embedder := { e with asked := e.asked + 1 }

/-- Embedders in relation embed every text alike, and are in relation when they were asked. -/
def Embedder.AsksAgree (E : Embedder → Embedder → Prop) : Prop :=
  ∀ e e', E e e' → (∀ text, e.embed e.asked text = e'.embed e'.asked text) ∧ E e.next e'.next

/-- Two indexes know a collection or do not, make it alike, and have services and embedders in relation. -/
structure IndexOver.SameBy (Q : σ → σ → Prop) (E : Embedder → Embedder → Prop) (name : String) (i i' : IndexOver σ) :
    Prop where
  known : i.known.contains name = i'.known.contains name
  dimension : i.dimension = i'.dimension
  service : Q i.service i'.service
  embedder : E i.embedder i'.embedder

namespace Index

open IndexOver (SameBy)

variable {Q : σ → σ → Prop} {E : Embedder → Embedder → Prop} {name : String}

theorem respects_calling {α : Type} {t : Attempt σ α} (ht : Respects Q t) : Respects (SameBy Q E name) (calling t) :=
  ht.on (fun _ _ h => h.service) fun _ _ _ _ h hs => ⟨h.known, h.dimension, hs, h.embedder⟩

theorem tracks_holding {α : Type} {t u : Attempt (IndexOver σ) α} (side : Lock.Side)
    (ht : Tracks (SameBy Q E name) t u) : Tracks (SameBy Q E name) (holding side t) (holding side u) := fun i i' h =>
  have hrun := ht { i with lock := i.lock.enter side } { i' with lock := i'.lock.enter side }
    ⟨h.known, h.dimension, h.service, h.embedder⟩
  ⟨hrun.1, hrun.2.known, hrun.2.dimension, hrun.2.service, hrun.2.embedder⟩

theorem respects_embed (hE : Embedder.AsksAgree E) (text : String) : Respects (SameBy Q E name) (embed text) := fun i i' h =>
  have hask := hE i.embedder i'.embedder h.embedder
  ⟨hask.1 text, h.known, h.dimension, h.service, hask.2⟩

variable [Client σ] {user : Int} (hQ : Client.CallsRespect Q (collectionOf user))

include hQ in
theorem lockstep : Lockstep (SameBy Q E (collectionOf user)) user where
  known _ _ h := h.known
  dimension _ _ h := h.dimension
  remember _ _ h := ⟨by simp, h.dimension, h.service, h.embedder⟩
  holding := tracks_holding
  has := respects_calling (hQ (.has _) rfl)
  create _ := respects_calling (hQ (.create _ _) rfl)
  upsert _ := respects_calling (hQ (.upsert _ _) rfl)
  delete _ := respects_calling (hQ (.delete _ _) rfl)
  flush := respects_calling (hQ (.flush _) rfl)
  stats := respects_calling (hQ (.stats _) rfl)
  search _ _ _ := respects_calling (hQ (.search _ _ _ _) rfl)

include hQ in
theorem respects_upsert (hE : Embedder.AsksAgree E) (id content : String) (more : List (String × String)) :
    Respects (SameBy Q E (collectionOf user)) (upsert user id content more) :=
  (lockstep hQ).tracks_upsert (respects_embed hE) id content more

include hQ in
theorem respects_delete (id : String) : Respects (SameBy Q E (collectionOf user)) (delete user id) :=
  (lockstep hQ).tracks_delete id

include hQ in
theorem respects_search (hE : Embedder.AsksAgree E) (query : String) (k : Int) (tag : Option String) :
    Respects (SameBy Q E (collectionOf user)) (search user query k tag) :=
  (lockstep hQ).tracks_search (respects_embed hE) query k tag

end Index

/-! ## The service in memory -/

/-- Two services have the same of a collection, and behave alike from here on. -/
structure Service.SameOf (name : String) (s s' : Service) : Prop where
  collection : Json.lookup name s.collections = Json.lookup name s'.collections
  refuse : ∀ n call, s.conduct.refuse (s.log.length + n) call = s'.conduct.refuse (s'.log.length + n) call
  stats : ∀ n, s.conduct.stats (s.log.length + n) = s'.conduct.stats (s'.log.length + n)
  hits : ∀ n limit, s.conduct.hits (s.log.length + n) limit = s'.conduct.hits (s'.log.length + n) limit

namespace Service

variable {name : String} {s s' : Service}

theorem SameOf.rows (h : SameOf name s s') : s.rows name = s'.rows name := by rw [Service.rows, Service.rows, h.collection]

theorem SameOf.holds (h : SameOf name s s') : s.holds name = s'.holds name := by
  rw [Service.holds, Service.holds, h.collection]

theorem SameOf.logged (h : SameOf name s s') (call : Call) : SameOf name (s.logged call) (s'.logged call) := by
  have hlength (s : Service) (n : Nat) : (s.logged call).log.length + n = s.log.length + (n + 1) := by
    simp only [Service.logged, List.length_append, List.length_singleton]
    omega
  refine ⟨h.collection, fun n c => ?_, fun n => ?_, fun n limit => ?_⟩
  · rw [hlength s, hlength s']
    exact h.refuse (n + 1) c
  · rw [hlength s, hlength s']
    exact h.stats (n + 1)
  · rw [hlength s, hlength s']
    exact h.hits (n + 1) limit

theorem SameOf.setRows (h : SameOf name s s') (rs : List Row) : SameOf name (s.setRows name rs) (s'.setRows name rs) :=
  { h with collection := by rw [Service.setRows, Service.setRows, Json.lookup_put, Json.lookup_put]; simp }

theorem respects_setRows {f : Service → List Row} (hf : ∀ s s', SameOf name s s' → f s = f s') :
    Respects (SameOf name) (Attempt.change fun s => s.setRows name (f s)) := .change fun s s' h => by
  rw [hf s s' h]
  exact h.setRows _

/-- A call is refused by both services or by neither; what follows may look at the number of the call. -/
theorem respects_sent {α : Type} (call : Call) {next : Nat → Attempt Service α}
    (hn : ∀ s s', SameOf name s s' → (next s.log.length (s.logged call)).1 = (next s'.log.length (s'.logged call)).1 ∧
      SameOf name (next s.log.length (s.logged call)).2 (next s'.log.length (s'.logged call)).2) :
    Respects (SameOf name) (send call >>= next) := fun s s' h => by
  have hrefuse : s.conduct.refuse s.log.length call = s'.conduct.refuse s'.log.length call := h.refuse 0 call
  rw [Attempt.bind_run, Attempt.bind_run, send, send, ← hrefuse]
  cases s.conduct.refuse s.log.length call with
  | some f => exact ⟨rfl, h.logged call⟩
  | none => exact hn s s' h

theorem respects_sent_then {α : Type} (call : Call) {next : Attempt Service α} (hn : Respects (SameOf name) next) :
    Respects (SameOf name) (send call >>= fun _ => next) :=
  respects_sent call fun _ _ h => hn _ _ (h.logged call)

theorem respects_stats : Respects (SameOf name) (stats name) := respects_sent _ fun s s' h => by
  have hstats : s.conduct.stats s.log.length = s'.conduct.stats s'.log.length := h.stats 0
  refine ⟨?_, h.logged _⟩
  simp only [Attempt.look_run, rows_logged, h.rows]
  exact congrArg Except.ok (congrArg (Option.getD · _) hstats)

theorem respects_search (queries : List Embedding) (limit : Nat) (filter : String) :
    Respects (SameOf name) (search name queries limit filter) := respects_sent _ fun s s' h => by
  have hhits : s.conduct.hits s.log.length limit = s'.conduct.hits s'.log.length limit := h.hits 0 limit
  have ranking (query : Embedding) : Respects (SameOf name) (do
      let best ← Attempt.ofExcept (ranked query (admitted filter (← Attempt.look (·.rows name))))
      return (.list [.list ((best.take limit).map hit)] : Json)) :=
    (Respects.look fun _ _ h => h.rows).bind fun _ => (Respects.ofExcept _).bind fun _ => .done _
  rw [Attempt.bind_run_ok (Attempt.look_run _ _), Attempt.bind_run_ok (Attempt.look_run _ _)]
  have hsame : (s.logged (.search name limit filter)).conduct.hits s.log.length limit =
      (s'.logged (.search name limit filter)).conduct.hits s'.log.length limit := hhits
  rw [hsame]
  cases (s'.logged (.search name limit filter)).conduct.hits s'.log.length limit with
  | some hits => exact ⟨rfl, h.logged _⟩
  | none =>
    cases queries with
    | nil => exact ⟨rfl, h.logged _⟩
    | cons query _ => exact ranking query _ _ (h.logged _)

/-- **What a call comes to depends on the collection that it names**, and on which calls are refused from here on. -/
theorem callsRespect_sameOf (name : String) : Client.CallsRespect (SameOf name) name := by
  rintro α call t (_ | _ | ⟨_, rs⟩ | ⟨_, ids⟩ | _ | _ | _) rfl
  · exact respects_sent_then _ (.look fun _ _ h => h.holds)
  · exact respects_sent_then _ (respects_setRows fun _ _ _ => rfl)
  · exact respects_sent_then _ (respects_setRows fun _ _ h => congrArg (rs.foldl fun acc r => putRow r acc) h.rows)
  · exact respects_sent_then _ (respects_setRows fun _ _ h => congrArg (dropRows ids) h.rows)
  · exact respects_sent_then _ (.done _)
  · exact respects_stats
  · exact respects_search _ _ _

end Service
end Vector
end NoteAgent
