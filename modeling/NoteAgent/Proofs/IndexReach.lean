import NoteAgent.Vector.Index
/-!
# IndexReach — the collections that a use of the index can change

Every use of the index is for one user, and all its calls name the collection of that user.  So over any service, what
each call that names this collection keeps, the whole use keeps; and it leaves the settings of the index as they are and
learns of no other collection (`Through`).  For the service in memory this means: whatever it refuses or answers, and
wherever the use breaks off, every other collection is as it was (`Spares`), and if it was not there it is still not.
-/
namespace NoteAgent
namespace Vector

/-- The call that an attempt on a service sends. -/
inductive Client.Sends {σ : Type} [Client σ] : {α : Type} → Call → Attempt σ α → Prop
  | has (name : String) : Sends (.has name) (Client.has name)
  | create (name : String) (dimension : Int) : Sends (.create name dimension) (Client.create name dimension)
  | upsert (name : String) (rows : List Row) : Sends (.upsert name rows) (Client.upsert name rows)
  | delete (name : String) (ids : List String) : Sends (.delete name ids) (Client.delete name ids)
  | flush (name : String) : Sends (.flush name) (Client.flush name)
  | stats (name : String) : Sends (.stats name) (Client.stats name)
  | search (name : String) (queries : List Embedding) (limit : Nat) (filter : String) :
    Sends (.search name limit filter) (Client.search name queries limit filter)

/-- Every call that names a collection keeps `P`. -/
def Client.CallsKeep {σ : Type} [Client σ] (P : σ → σ → Prop) (name : String) : Prop :=
  ∀ {α : Type} {call : Call} {t : Attempt σ α}, Client.Sends call t → call.collection = name → Attempt.Keeps P t

/-- A use of the index for a collection: it did `P` to the service, and learnt of no other collection. -/
structure IndexOver.Through {σ : Type} (P : σ → σ → Prop) (name : String) (i i' : IndexOver σ) : Prop where
  service : P i.service i'.service
  known : ∀ n, n ≠ name → i'.known.contains n = i.known.contains n
  dimension : i'.dimension = i.dimension
  embed : i'.embedder.embed = i.embedder.embed

/-! ## Uses of the index over any service -/

namespace Index

open Attempt (Answers Keeps)
open Client (CallsKeep Sends)
open IndexOver (Through)

variable {σ : Type} [Client σ]

theorem collection_answers (user : Int) : Answers (· = collectionOf user) (collection user : Attempt (IndexOver σ) _) := by
  unfold collection
  refine .bind fun known => ?_
  cases known with
  | true => exact .done rfl
  | false =>
    refine .bind fun there => ?_
    cases there with
    | true => exact .bind fun _ => .done rfl
    | false => exact .bind fun _ => .bind fun _ => .bind fun _ => .done rfl

section
variable {R : IndexOver σ → IndexOver σ → Prop} [Std.Refl R] [Trans R R R]

omit [Std.Refl R] in
/-- What making the user's collection keeps, and what is done once it is there, the two together keep. -/
theorem keeps_inCollection {α : Type} {user : Int} {next : String → Attempt (IndexOver σ) α}
    (there : Keeps R (collection user)) (hn : Keeps R (next (collectionOf user))) :
    Keeps R (collection user >>= next) :=
  there.bind_of (collection_answers user) fun _ h => h ▸ hn

/-- What both calls and the remembering keep, the making of the user's collection keeps. -/
theorem keeps_collection_of {user : Int} (has : Keeps R (calling (Client.has (collectionOf user))))
    (created : ∀ dimension, Keeps R (calling (Client.create (collectionOf user) dimension)))
    (remembered : Keeps R (Attempt.change fun i => { i with known := collectionOf user :: i.known })) :
    Keeps R (collection user) := by
  unfold collection
  refine (Keeps.look _).bind fun known => ?_
  cases known with
  | true => exact .done _
  | false =>
    refine has.bind fun there => ?_
    cases there with
    | true => exact remembered.bind fun _ => .done _
    | false => exact (Keeps.look _).bind fun _ => (created _).bind fun _ => remembered.bind fun _ => .done _

omit [Client σ] in
theorem keeps_firstAccepted {ask : Nat → Attempt (IndexOver σ) Json} (ha : ∀ limit, Keeps R (ask limit)) :
    ∀ (limits : List Nat) (last : Option String), Keeps R (firstAccepted ask last limits)
  | [], _ => .done _
  | limit :: limits, last => by
    refine (ha limit).settle.bind fun answer => ?_
    split
    · refine (Keeps.ofExcept _).bind fun hits => ?_
      cases hits <;> exact .done _
    · exact keeps_firstAccepted ha limits _
    · exact .fail _

/-- What every use of the lock, the service and the embedder in a search keeps, the search keeps. -/
theorem keeps_search_of {user : Int} (query : String) (k : Int) (tag : Option String)
    (locked : ∀ t : Attempt (IndexOver σ) Json, Keeps R t → Keeps R (holding .read t)) (there : Keeps R (collection user))
    (counted : Keeps R (calling (Client.stats (collectionOf user)))) (embedded : ∀ text, Keeps R (embed text))
    (asked : ∀ queries limit filter, Keeps R (calling (Client.search (collectionOf user) queries limit filter))) :
    Keeps R (search user query k tag) := by
  refine Keeps.bind (locked _ (keeps_inCollection there ?_)) fun _ => .ofExcept _
  refine counted.bind fun stats => (Keeps.ofExcept _).bind fun count => ?_
  split
  · exact .done _
  · refine (embedded _).bind fun queries => (keeps_firstAccepted (fun limit => asked _ _ _) _ _).bind fun answer => ?_
    cases answer with
    | ok hits => exact .done _
    | error last => exact .fail _

end

/-! ### What the calls keep -/

section
variable {P : σ → σ → Prop} [Std.Refl P] [Trans P P P] {name : String}

omit [Client σ] [Trans P P P] in
theorem through_refl (i : IndexOver σ) : Through P name i i := ⟨Std.Refl.refl i.service, fun _ _ => rfl, rfl, rfl⟩

omit [Client σ] [Std.Refl P] in
theorem through_trans {i i' i'' : IndexOver σ} (h : Through P name i i') (h' : Through P name i' i'') :
    Through P name i i'' where
  service := Trans.trans h.service h'.service
  known n hn := (h'.known n hn).trans (h.known n hn)
  dimension := h'.dimension.trans h.dimension
  embed := h'.embed.trans h.embed

instance : Std.Refl (Through P name) := ⟨through_refl⟩
instance : Trans (Through P name) (Through P name) (Through P name) := ⟨through_trans⟩

omit [Client σ] [Std.Refl P] [Trans P P P] in
theorem through_calling {α : Type} {t : Attempt σ α} (ht : Keeps P t) : Keeps (Through P name) (calling t) := fun i =>
  ⟨ht i.service, fun _ _ => rfl, rfl, rfl⟩

omit [Client σ] [Std.Refl P] [Trans P P P] in
theorem through_holding {α : Type} {t : Attempt (IndexOver σ) α} (ht : Keeps (Through P name) t) (side : Lock.Side) :
    Keeps (Through P name) (holding side t) := fun i =>
  have h := ht { i with lock := i.lock.enter side }
  ⟨h.service, h.known, h.dimension, h.embed⟩

omit [Client σ] [Trans P P P] in
theorem through_embed (text : String) : Keeps (Through P name) (embed text) := fun i =>
  ⟨Std.Refl.refl i.service, fun _ _ => rfl, rfl, rfl⟩

variable {user : Int} (hP : CallsKeep P (collectionOf user))

include hP in
theorem through_collection : Keeps (Through P (collectionOf user)) (collection user) := by
  refine keeps_collection_of (through_calling (hP (.has _) rfl)) (fun _ => through_calling (hP (.create _ _) rfl)) ?_
  intro i
  exact ⟨Std.Refl.refl i.service, fun n hn => (by simp [hn]), rfl, rfl⟩

include hP in
theorem through_upsert (id content : String) (more : List (String × String)) :
    Keeps (Through P (collectionOf user)) (upsert user id content more) := by
  refine (through_embed _).bind fun vs => ?_
  cases vs with
  | nil => exact .fail _
  | cons v _ =>
    refine through_holding (keeps_inCollection (through_collection hP) ?_) _
    exact (through_calling (hP (.upsert _ _) rfl)).bind fun _ => through_calling (hP (.flush _) rfl)

include hP in
theorem through_delete (id : String) : Keeps (Through P (collectionOf user)) (delete user id) := by
  refine through_holding (keeps_inCollection (through_collection hP) ?_) _
  exact (through_calling (hP (.delete _ _) rfl)).bind fun _ => through_calling (hP (.flush _) rfl)

include hP in
theorem through_search (query : String) (k : Int) (tag : Option String) :
    Keeps (Through P (collectionOf user)) (search user query k tag) :=
  keeps_search_of query k tag (fun _ ht => through_holding ht _) (through_collection hP)
    (through_calling (hP (.stats _) rfl)) through_embed fun _ _ _ => through_calling (hP (.search _ _ _ _) rfl)

end

end Index

/-! ## The service in memory -/

/-- Every collection but one is as it was. -/
def Service.Spares (name : String) (s s' : Service) : Prop :=
  ∀ n, n ≠ name → Json.lookup n s'.collections = Json.lookup n s.collections

def Index.Spares (name : String) (i i' : Index) : Prop := Service.Spares name i.service i'.service

variable {name : String}

instance : Std.Refl (Service.Spares name) := ⟨fun _ _ _ => rfl⟩
instance : Trans (Service.Spares name) (Service.Spares name) (Service.Spares name) :=
  ⟨fun h h' n hn => (h' n hn).trans (h n hn)⟩
instance : Std.Refl (Index.Spares name) := ⟨fun i => Std.Refl.refl (r := Service.Spares name) i.service⟩
instance : Trans (Index.Spares name) (Index.Spares name) (Index.Spares name) :=
  ⟨fun h h' => Trans.trans (r := Service.Spares name) (s := Service.Spares name) (t := Service.Spares name) h h'⟩

namespace Service

open Attempt (Keeps)

theorem send_collections (call : Call) (s : Service) : (send call s).2.collections = s.collections := by
  simp only [send]
  split <;> rfl

theorem keeps_send (call : Call) : Keeps (Spares name) (send call) := fun s n _ => by rw [send_collections]

theorem keeps_setRows (f : Service → List Row) :
    Keeps (Spares name) (Attempt.change fun s => s.setRows name (f s)) := fun s n hn => by
  simp only [Attempt.change_run, setRows]
  rw [Json.lookup_put, if_neg (by simpa using Ne.symm hn)]

/-! What the sending of a call keeps, a call that only reads keeps. -/

section
variable {R : Service → Service → Prop} [Std.Refl R] [Trans R R R]

theorem keeps_has (n : String) (sent : Keeps R (send (.has n))) : Keeps R (has n) := sent.bind fun _ => .look _

theorem keeps_flush (n : String) (sent : Keeps R (send (.flush n))) : Keeps R (flush n) := sent.bind fun _ => .done _

theorem keeps_stats (n : String) (sent : Keeps R (send (.stats n))) : Keeps R (stats n) := sent.bind fun _ => .look _

theorem keeps_search (n : String) (queries : List Embedding) (limit : Nat) (filter : String)
    (sent : Keeps R (send (.search n limit filter))) : Keeps R (search n queries limit filter) := by
  refine sent.bind fun _ => (Keeps.look _).bind fun hits => ?_
  cases hits with
  | some hits => exact .done _
  | none =>
    cases queries with
    | nil => exact .fail _
    | cons query _ => exact (Keeps.look _).bind fun _ => (Keeps.ofExcept _).bind fun _ => .done _

end

/-- **A call changes the collection that it names and no other.** -/
theorem callsKeep_spares (name : String) : Client.CallsKeep (Spares name) name := by
  rintro α call t (_ | _ | ⟨_, rs⟩ | ⟨_, ids⟩ | _ | _ | _) rfl
  · exact keeps_has _ (keeps_send _)
  · exact (keeps_send _).bind fun _ => keeps_setRows fun _ => []
  · exact (keeps_send _).bind fun _ => keeps_setRows fun s => rs.foldl (fun acc r => putRow r acc) (s.rows _)
  · exact (keeps_send _).bind fun _ => keeps_setRows fun s => dropRows ids (s.rows _)
  · exact keeps_flush _ (keeps_send _)
  · exact keeps_stats _ (keeps_send _)
  · exact keeps_search _ _ _ _ (keeps_send _)

end Service

namespace Index

open Attempt (Keeps)

theorem keeps_upsert (user : Int) (id content : String) (more : List (String × String)) :
    Keeps (Spares (collectionOf user)) (upsert user id content more) :=
  (through_upsert (Service.callsKeep_spares _) id content more).mono (·.service)

theorem keeps_delete (user : Int) (id : String) : Keeps (Spares (collectionOf user)) (delete user id) :=
  (through_delete (Service.callsKeep_spares _) id).mono (·.service)

/-- **Searching changes the user's collection only**, which it makes if it is not there. -/
theorem keeps_search (user : Int) (query : String) (k : Int) (tag : Option String) :
    Keeps (Spares (collectionOf user)) (search user query k tag) :=
  (through_search (Service.callsKeep_spares _) query k tag).mono (·.service)

end Index
end Vector
end NoteAgent
