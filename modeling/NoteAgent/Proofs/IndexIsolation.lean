import NoteAgent.Proofs.NumberText
import NoteAgent.Proofs.TwoRuns
/-!
# IndexIsolation — one index, many users

One index serves all users: they share what it knows, its service and its embedder.  Over a client whose collections are
independent (`Client.Independent`) a user sees no other: what the uses of one user come to is what they come to without the
uses of all others (`results_filter`).  For the index calls the collection of the user and no other, and two users have two
collections, whatever their numbers (`collectionOf_injective`).
-/
namespace NoteAgent
namespace Vector

open Attempt (Keeps Respects Tracks)
open Client (Sends)

/-- **Two users have two collections.** -/
theorem collectionOf_injective : Function.Injective collectionOf := fun a b h => by
  simp only [collectionOf, collectionNamed, String.append_left_inj, String.append_right_inj] at h
  exact Json.toString_injective h

/-! ## Independent collections -/

/-- A client whose collections are independent: each has a part of the state, on which alone the calls that name it depend,
and which no other call changes.  Every call is logged. -/
structure Client.Independent (σ : Type) [Client σ] where
  /-- The states in which the client behaves so. -/
  Valid : σ → Prop
  /-- What there is of a collection. -/
  Part : Type
  part : String → σ → Part
  log : σ → List Call
  valid : ∀ {α : Type} {call : Call} {t : Attempt σ α} {s : σ}, Sends call t → Valid s → Valid (t s).2
  own : ∀ {α : Type} {call : Call} {t : Attempt σ α} {s s' : σ}, Sends call t → Valid s → Valid s' →
    part call.collection s = part call.collection s' →
    (t s).1 = (t s').1 ∧ part call.collection (t s).2 = part call.collection (t s').2
  others : ∀ {α : Type} {call : Call} {t : Attempt σ α} {s : σ}, Sends call t → Valid s →
    ∀ name, name ≠ call.collection → part name (t s).2 = part name s
  logged : ∀ {α : Type} {call : Call} {t : Attempt σ α} {s : σ}, Sends call t → Valid s → log (t s).2 = log s ++ [call]

namespace Client.Independent

variable {σ : Type} [Client σ] (C : Client.Independent σ)

def Same (name : String) (s s' : σ) : Prop := C.Valid s ∧ C.Valid s' ∧ C.part name s = C.part name s'

/-- Calls that name one collection were made: all else is as it was. -/
structure Calls (name : String) (s s' : σ) : Prop where
  valid : C.Valid s'
  others : ∀ n, n ≠ name → C.part n s' = C.part n s
  log : ∃ calls, C.log s' = C.log s ++ calls ∧ ∀ call ∈ calls, call.collection = name

def Confined (name : String) (s s' : σ) : Prop := C.Valid s → C.Calls name s s'

instance (name : String) : Std.Refl (C.Confined name) := ⟨fun s hs => ⟨hs, fun _ _ => rfl, [], by simp, by simp⟩⟩

theorem confined_trans {name : String} {s s' s'' : σ} (h : C.Confined name s s') (h' : C.Confined name s' s'') :
    C.Confined name s s'' := fun hs => by
  obtain ⟨hs', hothers, calls, hlog, hcalls⟩ := h hs
  obtain ⟨hs'', hothers', calls', hlog', hcalls'⟩ := h' hs'
  refine ⟨hs'', fun n hn => (hothers' n hn).trans (hothers n hn), calls ++ calls', ?_, fun call hcall => ?_⟩
  · rw [hlog', hlog, List.append_assoc]
  · exact (List.mem_append.1 hcall).elim (hcalls call) (hcalls' call)

instance (name : String) : Trans (C.Confined name) (C.Confined name) (C.Confined name) := ⟨C.confined_trans⟩

theorem callsRespect (name : String) : CallsRespect (C.Same name) name := by
  rintro α call t ht rfl s s' ⟨hs, hs', hpart⟩
  obtain ⟨hr, hpart'⟩ := C.own ht hs hs' hpart
  exact ⟨hr, C.valid ht hs, C.valid ht hs', hpart'⟩

theorem callsKeep (name : String) : CallsKeep (C.Confined name) name := by
  rintro α call t ht rfl s hs
  refine ⟨C.valid ht hs, C.others ht hs, [call], C.logged ht hs, fun x hx => ?_⟩
  rw [List.mem_singleton.1 hx]

end Client.Independent

/-- What a text is embedded as does not depend on what was embedded before. -/
def Embedder.Steady (e : Embedder) : Prop := ∀ n m text, e.embed n text = e.embed m text

/-- Two steady embedders that embed alike. -/
def Embedder.Alike (e e' : Embedder) : Prop := ∀ n m text, e.embed n text = e'.embed m text

theorem Embedder.asksAgree_alike : Embedder.AsksAgree Embedder.Alike := fun _ _ h => ⟨fun text => h _ _ text, h⟩

/-! ## Uses of one index -/

namespace Use

variable {σ : Type} [Client σ]

theorem results_cons_own {user : Int} {x : Use} (h : x.user = user) (i : IndexOver σ) (xs : List Use) :
    results user i (x :: xs) = (x.run i).1 :: results user (x.run i).2 xs := by rw [results, if_pos h]

theorem results_cons_other {user : Int} {x : Use} (h : x.user ≠ user) (i : IndexOver σ) (xs : List Use) :
    results user i (x :: xs) = results user (x.run i).2 xs := by rw [results, if_neg h]

/-! ### One use -/

theorem tracks_run {τ : Type} [Client τ] {R : IndexOver σ → IndexOver τ → Prop} (x : Use) (h : Index.Lockstep R x.user)
    (embedded : ∀ text, Tracks R (Index.embed text) (Index.embed text)) : Tracks R x.run x.run := by
  cases x with
  | upsert user id content more => exact (h.tracks_upsert embedded id content more).bind fun _ => .done _
  | delete user id => exact (h.tracks_delete id).bind fun _ => .done _
  | search user query k tag => exact (h.tracks_search embedded query k tag).bind fun _ => .done _

theorem respects_run {Q : σ → σ → Prop} {E : Embedder → Embedder → Prop} (x : Use)
    (hQ : Client.CallsRespect Q (collectionOf x.user)) (hE : Embedder.AsksAgree E) :
    Respects (IndexOver.SameBy Q E (collectionOf x.user)) x.run :=
  x.tracks_run (Index.lockstep hQ) (Index.respects_embed hE)

section
variable {P : σ → σ → Prop} [Std.Refl P] [Trans P P P]

theorem through_run (x : Use) (hP : Client.CallsKeep P (collectionOf x.user)) :
    Keeps (IndexOver.Through P (collectionOf x.user)) x.run := by
  cases x with
  | upsert user id content more => exact (Index.through_upsert hP id content more).bind fun _ => .done _
  | delete user id => exact (Index.through_delete hP id).bind fun _ => .done _
  | search user query k tag => exact (Index.through_search hP query k tag).bind fun _ => .done _

end

/-! ### Runs -/

variable (C : Client.Independent σ)

def SameTo (user : Int) : IndexOver σ → IndexOver σ → Prop :=
  IndexOver.SameBy (C.Same (collectionOf user)) Embedder.Alike (collectionOf user)

/-- **What is done for somebody else leaves the index the same to a user.** -/
theorem SameTo.other {user : Int} {i i' : IndexOver σ} (h : SameTo C user i i') {x : Use} (hx : x.user ≠ user) :
    SameTo C user (x.run i).2 i' := by
  have hname : collectionOf user ≠ collectionOf x.user := fun he => hx (collectionOf_injective he).symm
  have hrun := x.through_run (C.callsKeep (collectionOf x.user)) i
  obtain ⟨hvalid, hvalid', hpart⟩ := h.service
  have hcalls := hrun.service hvalid
  refine ⟨(hrun.known _ hname).trans h.known, hrun.dimension.trans h.dimension, ?_, ?_⟩
  · exact ⟨hcalls.valid, hvalid', (hcalls.others _ hname).trans hpart⟩
  · intro n m text
    rw [hrun.embed]
    exact h.embedder n m text

/-- From indexes that are the same to a user, the user's uses come to the same with those of all others and without. -/
theorem SameTo.results {user : Int} {i i' : IndexOver σ} (h : SameTo C user i i') (xs : List Use) :
    results user i xs = results user i' (xs.filter (·.user = user)) := by
  -- at a use of somebody else the second index stands still, so both indexes vary
  induction xs generalizing i i' with
  | nil => rfl
  | cons x xs ih =>
    by_cases hx : x.user = user
    · subst hx
      obtain ⟨hr, h'⟩ := x.respects_run (C.callsRespect _) Embedder.asksAgree_alike i i' h
      rw [List.filter_cons_of_pos (by simp), results_cons_own rfl, results_cons_own rfl, hr, ih h']
    · rw [List.filter_cons_of_neg (by simpa using hx), results_cons_other hx, ih (h.other C hx)]

theorem valid_after {i : IndexOver σ} (hi : C.Valid i.service) (xs : List Use) : C.Valid (after i xs).service := by
  induction xs generalizing i with
  | nil => exact hi
  | cons x xs ih => exact ih ((x.through_run (C.callsKeep (collectionOf x.user)) i).service hi).valid

/-- **The users of one index do not see each other**: over a client with independent collections, what the uses for a user
come to is what they come to when nobody else uses the index; and every call that a use makes names the collection of its
user. -/
theorem results_filter (i : IndexOver σ) (hi : C.Valid i.service) (hembed : i.embedder.Steady) (xs : List Use) :
    (∀ user, results user i xs = results user i (xs.filter (·.user = user))) ∧
    ∀ pre x post, xs = pre ++ x :: post → ∃ calls,
      C.log (after i (pre ++ [x])).service = C.log (after i pre).service ++ calls ∧
      ∀ call ∈ calls, call.collection = collectionOf x.user := by
  refine ⟨fun user => ?_, fun pre x post _ => ?_⟩
  · have hsame : SameTo C user i i := ⟨rfl, rfl, ⟨hi, hi, rfl⟩, hembed⟩
    exact hsame.results C xs
  · have hrun := x.through_run (C.callsKeep (collectionOf x.user)) (after i pre)
    have hafter : after i (pre ++ [x]) = (x.run (after i pre)).2 := by rw [after, List.foldl_append]; rfl
    rw [hafter]
    exact (hrun.service (valid_after C hi pre)).log

end Use

/-! ## The service in memory -/

namespace Service

/-- The service behaves as it did, and no call was sent. -/
def Quiet (s s' : Service) : Prop := s'.conduct = s.conduct ∧ s'.log = s.log

instance : Std.Refl Quiet := ⟨fun _ => ⟨rfl, rfl⟩⟩
instance : Trans Quiet Quiet Quiet := ⟨fun h h' => ⟨h'.1.trans h.1, h'.2.trans h.2⟩⟩

theorem sent_logged {α : Type} (call : Call) {next : Nat → Attempt Service α} (hn : ∀ n, Keeps Quiet (next n))
    (s : Service) : ((send call >>= next) s).2.conduct = s.conduct ∧ ((send call >>= next) s).2.log = s.log ++ [call] := by
  have hsend : (send call s).2.conduct = s.conduct ∧ (send call s).2.log = s.log ++ [call] := by
    simp only [send]
    split <;> exact ⟨rfl, rfl⟩
  have htail := Keeps.tail (send call) hn s
  exact ⟨htail.1.trans hsend.1, htail.2.trans hsend.2⟩

theorem sends_logged {α : Type} {call : Call} {t : Attempt Service α} (ht : Sends call t) (s : Service) :
    (t s).2.conduct = s.conduct ∧ (t s).2.log = s.log ++ [call] := by
  have hset (name : String) (f : Service → List Row) : Keeps Quiet (Attempt.change fun s => s.setRows name (f s)) :=
    fun _ => ⟨rfl, rfl⟩
  cases ht with
  | has name => exact sent_logged _ (fun _ => .look _) s
  | create name dimension => exact sent_logged _ (fun _ => hset _ _) s
  | upsert name rows => exact sent_logged _ (fun _ => hset _ _) s
  | delete name ids => exact sent_logged _ (fun _ => hset _ _) s
  | flush name => exact sent_logged _ (fun _ => .done _) s
  | stats name => exact sent_logged _ (fun _ => .look _) s
  | search name queries limit filter =>
    refine sent_logged _ (fun _ => (Keeps.look _).bind fun hits => ?_) s
    cases hits with
    | some hits => exact .done _
    | none =>
      cases queries with
      | nil => exact .fail _
      | cons query _ => exact (Keeps.look _).bind fun _ => (Keeps.ofExcept _).bind fun _ => .done _

/-- The service in memory has independent collections, as long as it refuses nothing and answers with its own figures. -/
def independent : Client.Independent Service where
  Valid s := s.conduct = .plain
  Part := Option (List Row)
  part name s := Json.lookup name s.collections
  log := log
  valid ht hs := (sends_logged ht _).1.trans hs
  own {α call t s s'} ht hs hs' hpart := by
    have hsame : SameOf call.collection s s' := ⟨hpart, by simp [hs, hs', Conduct.plain], by simp [hs, hs', Conduct.plain],
      by simp [hs, hs', Conduct.plain]⟩
    have hrun := callsRespect_sameOf call.collection ht rfl s s' hsame
    exact ⟨hrun.1, hrun.2.collection⟩
  others ht _ name hname := callsKeep_spares _ ht rfl _ name hname
  logged ht _ := (sends_logged ht _).2

end Service

namespace Use

/-- An index over an empty service; every text is embedded alike. -/
def shared : Index := .fresh .empty ⟨fun _ _ => .ok [[]], 0⟩ 1

/-- A user of a negative number writes a document under an id that another user has taken. -/
def twoUsers : List Use :=
  [.upsert 1 "a" "one" [], .upsert (-1) "a" "minus one" [], .search 1 "one" 2 none, .search (-1) "one" 1 none,
    .delete (-1) "a", .search 1 "one" 2 none]

/-- The contents of the documents that a search came to, if the use was one that went well. -/
def found (r : Except Failure (Option (List Hit))) : Option (List String) :=
  r.toOption.join.map fun hits => hits.map (·.content.shown)

theorem results_filter_twoUsers :
    shared.service.conduct = .plain ∧ shared.embedder.Steady ∧
    results 1 shared twoUsers =
      results 1 shared [.upsert 1 "a" "one" [], .search 1 "one" 2 none, .search 1 "one" 2 none] ∧
    results (-1) shared twoUsers =
      results (-1) shared [.upsert (-1) "a" "minus one" [], .search (-1) "one" 1 none, .delete (-1) "a"] ∧
    (results 1 shared twoUsers).map found = [none, some ["one"], some ["one"]] ∧
    (results (-1) shared twoUsers).map found = [none, some ["minus one"], none] :=
  have h := (results_filter Service.independent shared rfl (fun _ _ _ => rfl) twoUsers).1
  ⟨rfl, fun _ _ _ => rfl, h 1, h (-1), by decide +kernel, by decide +kernel⟩

end Use
end Vector
end NoteAgent
