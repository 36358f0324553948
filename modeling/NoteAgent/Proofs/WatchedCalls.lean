import NoteAgent.Proofs.IndexIsolation
/-!
# WatchedCalls — the calls that a use of the index sends

A service can be watched: beside it stands the record of the calls made to it, each with the state that it found and
whether it was answered (`Watched`).  An index over the watched service does what it does over the service itself
(`Use.run_watched`), for what every call does alike to a service and to what a map keeps of it, a use of the index does alike
(`Use.run_follows`).  So what a use sends (`Use.sent`) and what a run of uses sends (`Use.record`) can be read off the record.
-/
namespace NoteAgent
namespace Vector

open Attempt (Tracks)

variable {σ τ : Type}

/-! ## A map of services -/

/-- The index over what `f` keeps of its service. -/
def IndexOver.onService (f : σ → τ) (i : IndexOver σ) : IndexOver τ :=
  ⟨i.known, i.dimension, i.lock, f i.service, i.embedder⟩

/-- The one state is what `f` keeps of the other. -/
def Kept (f : σ → τ) (s : σ) (s' : τ) : Prop := s' = f s

/-- Every call does to what `f` keeps of a service what it does to the service. -/
structure Client.Follows [Client σ] [Client τ] (f : σ → τ) : Prop where
  has : ∀ name, Tracks (Kept f) (Client.has name) (Client.has name)
  create : ∀ name dimension, Tracks (Kept f) (Client.create name dimension) (Client.create name dimension)
  upsert : ∀ name rows, Tracks (Kept f) (Client.upsert name rows) (Client.upsert name rows)
  delete : ∀ name ids, Tracks (Kept f) (Client.delete name ids) (Client.delete name ids)
  flush : ∀ name, Tracks (Kept f) (Client.flush name) (Client.flush name)
  stats : ∀ name, Tracks (Kept f) (Client.stats name) (Client.stats name)
  search : ∀ name queries limit filter,
    Tracks (Kept f) (Client.search name queries limit filter) (Client.search name queries limit filter)

namespace Index

open IndexOver (onService)

variable {f : σ → τ}

theorem kept_calling {α : Type} {t : Attempt σ α} {u : Attempt τ α} (ht : Tracks (Kept f) t u) :
    Tracks (Kept (onService f)) (calling t) (calling u) := by
  rintro i _ rfl
  obtain ⟨hanswer, hservice⟩ := ht i.service _ rfl
  exact ⟨hanswer, congrArg (fun s : τ => (⟨i.known, i.dimension, i.lock, s, i.embedder⟩ : IndexOver τ)) hservice⟩

theorem kept_holding {α : Type} {t : Attempt (IndexOver σ) α} {u : Attempt (IndexOver τ) α} (side : Lock.Side)
    (ht : Tracks (Kept (onService f)) t u) : Tracks (Kept (onService f)) (holding side t) (holding side u) := by
  rintro i _ rfl
  obtain ⟨hanswer, hindex⟩ := ht { i with lock := i.lock.enter side } _ rfl
  exact ⟨hanswer, congrArg (fun i : IndexOver τ => ({ i with lock := i.lock.leave side } : IndexOver τ)) hindex⟩

theorem kept_embed (text : String) : Tracks (Kept (onService f)) (embed text) (embed text) := by
  rintro i _ rfl
  exact ⟨rfl, rfl⟩

theorem lockstep_kept [Client σ] [Client τ] (hf : Client.Follows f) (user : Int) : Lockstep (Kept (onService f)) user where
  known := by
    rintro i _ rfl
    rfl
  dimension := by
    rintro i _ rfl
    rfl
  remember := by
    rintro i _ rfl
    rfl
  holding := kept_holding
  has := kept_calling (hf.has _)
  create _ := kept_calling (hf.create _ _)
  upsert _ := kept_calling (hf.upsert _ _)
  delete _ := kept_calling (hf.delete _ _)
  flush := kept_calling (hf.flush _)
  stats := kept_calling (hf.stats _)
  search _ _ _ := kept_calling (hf.search _ _ _ _)

end Index

/-- **A map of services that every call follows, every use of the index follows.** -/
theorem Use.run_follows [Client σ] [Client τ] {f : σ → τ} (hf : Client.Follows f) (x : Use) (i : IndexOver σ) :
    x.run (i.onService f) = ((x.run i).1, (x.run i).2.onService f) := by
  obtain ⟨hanswer, hindex⟩ := x.tracks_run (Index.lockstep_kept hf x.user) Index.kept_embed i _ rfl
  exact Prod.ext hanswer.symm hindex

/-! ## Watching a service -/

/-- A call as it was made: the state that it found, and whether it was answered. -/
structure Sent (σ : Type) where
  call : Call
  before : σ
  answered : Bool

/-- A service, and the calls made to it since it is watched. -/
structure Watched (σ : Type) where
  service : σ
  record : List (Sent σ)

namespace Watched

/-- A call, and the note of it. -/
def watching {α : Type} (call : Call) (t : Attempt σ α) : Attempt (Watched σ) α := fun w =>
  ((t w.service).1, ⟨(t w.service).2, w.record ++ [⟨call, w.service, (t w.service).1.isOk⟩]⟩)

instance [Client σ] : Client (Watched σ) where
  has name := watching (.has name) (Client.has name)
  create name dimension := watching (.create name dimension) (Client.create name dimension)
  upsert name rows := watching (.upsert name rows) (Client.upsert name rows)
  delete name ids := watching (.delete name ids) (Client.delete name ids)
  flush name := watching (.flush name) (Client.flush name)
  stats name := watching (.stats name) (Client.stats name)
  search name queries limit filter := watching (.search name limit filter) (Client.search name queries limit filter)

theorem tracks_watching {α : Type} (call : Call) (t : Attempt σ α) : Tracks (Kept service) (watching call t) t := by
  rintro w _ rfl
  exact ⟨rfl, rfl⟩

/-- **Watching a service changes nothing in it.** -/
theorem follows [Client σ] : Client.Follows (service : Watched σ → σ) where
  has _ := tracks_watching _ _
  create _ _ := tracks_watching _ _
  upsert _ _ := tracks_watching _ _
  delete _ _ := tracks_watching _ _
  flush _ := tracks_watching _ _
  stats _ := tracks_watching _ _
  search _ _ _ _ := tracks_watching _ _

end Watched

/-- The index with its service watched from now on. -/
def IndexOver.watch (i : IndexOver σ) : IndexOver (Watched σ) := i.onService (⟨·, []⟩)

/-- The index over the service itself. -/
def IndexOver.unwatched (w : IndexOver (Watched σ)) : IndexOver σ := w.onService (·.service)

namespace Use

variable [Client σ]

/-- The calls that a use sends. -/
def sent (i : IndexOver σ) (x : Use) : List (Sent σ) := (x.run i.watch).2.service.record

/-- The calls that a run of uses sends. -/
def record (i : IndexOver σ) : List Use → List (Sent σ)
  | [] => []
  | x :: xs => sent i x ++ record (x.run i).2 xs

/-- **A use comes to the same whether it is watched or not.** -/
theorem run_watched (x : Use) (w : IndexOver (Watched σ)) :
    x.run w.unwatched = ((x.run w).1, (x.run w).2.unwatched) := run_follows Watched.follows x w

theorem after_append (i : IndexOver σ) (xs ys : List Use) : after i (xs ++ ys) = after (after i xs) ys :=
  List.foldl_append

end Use
end Vector
end NoteAgent
