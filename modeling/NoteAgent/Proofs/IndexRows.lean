import Mathlib.Data.List.Nodup
import Mathlib.Data.String.Basic
import NoteAgent.Proofs.IndexReach
/-!
# IndexRows — what a use of the index does to the rows of a collection

Reading the index changes no rows, whatever the service refuses (`Index.Unwritten`); a collection that is made for it is
empty, as a collection that is not there is taken to be.  Where the service refuses nothing and every text is embedded
(`Index.Willing`), writing a document puts it in the place of the one with its id, or at the end, and deleting takes it
away.  Rows are looked at as the documents they hold (`Row.document`), their vectors left out.
-/
namespace NoteAgent
namespace Vector

/-! ## Documents -/

/-- What a row holds, its vector left out. -/
structure Document where
  id : String
  content : String
  more : List (String × String)
  deriving DecidableEq, Repr

def Row.document (r : Row) : Document := ⟨r.id, r.content, r.more⟩

/-- The documents with `d` in the place of the one of its id, or at the end. -/
def putDocument (d : Document) : List Document → List Document
  | [] => [d]
  | d' :: ds => if d'.id == d.id then d :: ds else d' :: putDocument d ds

theorem map_putRow (r : Row) : ∀ rs : List Row,
    (putRow r rs).map Row.document = putDocument r.document (rs.map Row.document)
  | [] => rfl
  | r' :: rs => by
    rw [putRow, List.map_cons, putDocument, ← map_putRow r rs]
    by_cases h : r'.id = r.id <;> simp [Row.document, h]

theorem map_dropRows (id : String) (rs : List Row) :
    (dropRows [id] rs).map Row.document = (rs.map Row.document).filter (·.id != id) := by
  rw [dropRows, List.filter_map]
  refine congrArg _ (List.filter_congr fun r _ => ?_)
  by_cases h : r.id = id <;> simp [Row.document, h]

theorem putDocument_of_new {d : Document} : ∀ {ds : List Document}, (∀ x ∈ ds, x.id ≠ d.id) →
    putDocument d ds = ds ++ [d]
  | [], _ => rfl
  | x :: ds, h => by
    have hx : (x.id == d.id) = false := by simpa using h x List.mem_cons_self
    rw [putDocument, hx, putDocument_of_new fun y hy => h y (List.mem_cons_of_mem _ hy)]
    rfl

/-- A document that is there already is replaced where it stands. -/
theorem putDocument_of_mem {d : Document} : ∀ {ds : List Document}, (ds.map (·.id)).Nodup → d.id ∈ ds.map (·.id) →
    putDocument d ds = ds.map fun x => if x.id = d.id then d else x
  | [], _, h => nomatch h
  | x :: ds, hnodup, h => by
    rw [List.map_cons, List.nodup_cons] at hnodup
    rw [putDocument, List.map_cons]
    by_cases hx : x.id = d.id
    · -- the id stands here, so it stands nowhere after
      have hrest : ∀ y ∈ ds, (if y.id = d.id then d else y) = y := fun y hy =>
        if_neg fun hyd => hnodup.1 (List.mem_map.2 ⟨y, hy, hyd.trans hx.symm⟩)
      rw [if_pos (by simpa using hx), if_pos hx, List.map_congr_left hrest, List.map_id']
    · have hmem : d.id ∈ ds.map (·.id) := by simpa [Ne.symm hx] using h
      rw [if_neg (by simpa using hx), if_neg hx, putDocument_of_mem hnodup.2 hmem]

/-- Of the documents with one id the first is replaced, or the document is the only one. -/
theorem filter_putDocument (d : Document) : ∀ ds : List Document,
    (putDocument d ds).filter (·.id == d.id) = d :: (ds.filter (·.id == d.id)).tail
  | [] => by simp [putDocument]
  | x :: ds => by
    rw [putDocument]
    by_cases hx : x.id = d.id
    · simp [hx]
    · simp [hx, filter_putDocument d ds]

/-! ## Calls that are not refused -/

namespace Service

def Willing (s : Service) : Prop := ∀ n call, s.conduct.refuse n call = none

def logged (s : Service) (call : Call) : Service := { s with log := s.log ++ [call] }

variable {s : Service}

theorem Willing.logged (h : s.Willing) (call : Call) : (s.logged call).Willing := h

theorem Willing.setRows (h : s.Willing) (name : String) (rs : List Row) : (s.setRows name rs).Willing := h

theorem send_ok (hs : s.Willing) (call : Call) : send call s = (.ok s.log.length, s.logged call) := by
  rw [send, hs]
  rfl

theorem has_ok (hs : s.Willing) (name : String) : has name s = (.ok (s.holds name), s.logged (.has name)) := by
  rw [has, Attempt.bind_run_ok (send_ok hs _)]
  rfl

theorem create_ok (hs : s.Willing) (name : String) (dimension : Int) :
    create name dimension s = (.ok (), (s.logged (.create name dimension)).setRows name []) := by
  rw [create, Attempt.bind_run_ok (send_ok hs _)]
  rfl

theorem upsert_ok (hs : s.Willing) (name : String) (r : Row) :
    upsert name [r] s = (.ok (), (s.logged (.upsert name [r])).setRows name (putRow r (s.rows name))) := by
  rw [upsert, Attempt.bind_run_ok (send_ok hs _)]
  rfl

theorem delete_ok (hs : s.Willing) (name : String) (ids : List String) :
    delete name ids s = (.ok (), (s.logged (.delete name ids)).setRows name (dropRows ids (s.rows name))) := by
  rw [delete, Attempt.bind_run_ok (send_ok hs _)]
  rfl

theorem flush_ok (hs : s.Willing) (name : String) : flush name s = (.ok (), s.logged (.flush name)) := by
  rw [flush, Attempt.bind_run_ok (send_ok hs _)]
  rfl

theorem rows_setRows (s : Service) (name : String) (rs : List Row) (n : String) :
    (s.setRows name rs).rows n = if n = name then rs else s.rows n := by
  simp only [rows, setRows, Json.lookup_put]
  by_cases hn : n = name
  · simp [hn]
  · simp [hn, Ne.symm hn]

/-- The service behaves as it did, and no collection is changed. -/
structure Unwritten (s s' : Service) : Prop where
  conduct : s'.conduct = s.conduct
  collections : s'.collections = s.collections

instance : Std.Refl Unwritten := ⟨fun _ => ⟨rfl, rfl⟩⟩
instance : Trans Unwritten Unwritten Unwritten :=
  ⟨fun h h' => ⟨h'.conduct.trans h.conduct, h'.collections.trans h.collections⟩⟩

theorem unwritten_send (call : Call) : Attempt.Keeps Unwritten (send call) := fun s => by
  refine ⟨?_, send_collections call s⟩
  simp only [send]
  split <;> rfl

theorem rows_of_not_holds {name : String} (h : s.holds name = false) : s.rows name = [] := by
  have hnone : Json.lookup name s.collections = none := by simpa [holds] using h
  rw [rows, hnone]
  rfl

theorem rows_logged (s : Service) (call : Call) (name : String) : (s.logged call).rows name = s.rows name := rfl

/-- The answer that a collection is not there is right. -/
theorem has_false {name : String} (h : (has name s).1 = .ok false) : (has name s).2.holds name = false := by
  rw [has, Attempt.bind_run] at h ⊢
  split at h
  · exact Except.ok.inj h
  · cases h

/-- A collection that is made where there is none has the rows that it had. -/
theorem create_ends {name : String} (h : s.holds name = false) (dimension : Int) :
    Attempt.Ends (create name dimension) s fun _ s' => s'.conduct = s.conduct ∧ ∀ n, s'.rows n = s.rows n := by
  have hsent := unwritten_send (.create name dimension) s
  have hrows : ∀ n, (send (.create name dimension) s).2.rows n = s.rows n := fun n => by
    rw [rows, hsent.collections, rows]
  refine Attempt.Ends.bind (P := fun _ s' => s'.conduct = s.conduct ∧ ∀ n, s'.rows n = s.rows n) ⟨hsent.conduct, hrows⟩
    (fun _ s' h' => ⟨h'.1, fun n => ?_⟩) fun _ _ h' => h'
  rw [Attempt.change_run, rows_setRows]
  split
  · rename_i hn
    rw [hn, rows_of_not_holds h]
  · exact h'.2 n

end Service

/-! ## Uses of the index -/

namespace Index

open Attempt (Ends Keeps)

/-- The service and the embedder go on behaving as they do. -/
structure Alike (i i' : Index) : Prop where
  conduct : i'.service.conduct = i.service.conduct
  embed : i'.embedder.embed = i.embedder.embed

theorem Alike.refl (i : Index) : Alike i i := ⟨rfl, rfl⟩

theorem Alike.trans {i i' i'' : Index} (h : Alike i i') (h' : Alike i' i'') : Alike i i'' :=
  ⟨h'.conduct.trans h.conduct, h'.embed.trans h.embed⟩

/-- Every collection has the rows that it had; one that is not there has none. -/
structure Unwritten (i i' : Index) : Prop extends Alike i i' where
  rows : ∀ name, i'.service.rows name = i.service.rows name

theorem Unwritten.trans {i i' i'' : Index} (h : Unwritten i i') (h' : Unwritten i' i'') : Unwritten i i'' :=
  ⟨h.toAlike.trans h'.toAlike, fun name => (h'.rows name).trans (h.rows name)⟩

instance : Std.Refl Unwritten := ⟨fun i => ⟨.refl i, fun _ => rfl⟩⟩
instance : Trans Unwritten Unwritten Unwritten := ⟨Unwritten.trans⟩

/-- No call is refused, and every text is embedded. -/
structure Willing (i : Index) : Prop where
  accepts : i.service.Willing
  embeds : ∀ n text, ∃ v vs, i.embedder.embed n text = .ok (v :: vs)

theorem Willing.alike {i i' : Index} (h : i.Willing) (ha : Alike i i') : i'.Willing where
  accepts n call := by rw [ha.conduct, h.accepts n call]
  embeds n text := by
    rw [ha.embed]
    exact h.embeds n text

/-- What the index holds for a user. -/
def documents (i : Index) (user : Int) : List Document := (i.service.rows (collectionOf user)).map Row.document

theorem Unwritten.documents {i i' : Index} (h : Unwritten i i') (user : Int) : i'.documents user = i.documents user := by
  rw [Index.documents, h.rows, Index.documents]

/-! ### Reading -/

theorem unwritten_calling {α : Type} {t : Attempt Service α} (ht : Keeps Service.Unwritten t) :
    Keeps Unwritten (calling t) := fun i =>
  ⟨⟨(ht i.service).conduct, rfl⟩, fun name => by
    change (t i.service).2.rows name = _
    rw [Service.rows, (ht i.service).collections, Service.rows]⟩

theorem unwritten_holding {α : Type} {t : Attempt Index α} (ht : Keeps Unwritten t) (side : Lock.Side) :
    Keeps Unwritten (holding side t) := fun i =>
  have h := ht { i with lock := i.lock.enter side }
  ⟨⟨h.conduct, h.embed⟩, h.rows⟩

/-- A collection is made only where there is none, so making it takes no rows away. -/
theorem unwritten_collection (user : Int) : Keeps Unwritten (collection user) := fun i => by
  have remember : Keeps Unwritten (do
      Attempt.change fun i => { i with known := collectionOf user :: i.known }
      return collectionOf user) := Keeps.bind (fun _ => ⟨⟨rfl, rfl⟩, fun _ => rfl⟩) fun _ => .done _
  have asked : Ends (calling (Service.has (collectionOf user))) i fun r i' => Unwritten i i' ∧
      (r = .ok false → i'.service.holds (collectionOf user) = false) :=
    ⟨unwritten_calling (Service.keeps_has _ (Service.unwritten_send _)) i, Service.has_false⟩
  unfold collection
  refine Ends.look (Q := fun _ i' => Unwritten i i') ?_
  split
  · exact Std.Refl.refl i
  · refine asked.bind (fun there i' h => ?_) fun e i' h => h.1
    cases there with
    | true => exact h.1.trans (remember i')
    | false =>
      refine Ends.look (Ends.bind (P := fun _ i'' => Unwritten i' i'') ?_ (fun _ i'' h' => ?_) fun _ _ h' => h.1.trans h')
      · have hmade := Service.create_ends (h.2 rfl) i'.dimension
        exact ⟨⟨hmade.1, rfl⟩, hmade.2⟩
      · exact h.1.trans (h'.trans (remember i''))

theorem unwritten_embed (text : String) : Keeps Unwritten (embed text) := fun _ => ⟨⟨rfl, rfl⟩, fun _ => rfl⟩

/-- **Searching changes no rows.** -/
theorem unwritten_search (user : Int) (query : String) (k : Int) (tag : Option String) :
    Keeps Unwritten (search user query k tag) :=
  keeps_search_of query k tag (fun _ ht => unwritten_holding ht _) (unwritten_collection user)
    (unwritten_calling (Service.keeps_stats _ (Service.unwritten_send _))) unwritten_embed
    fun _ _ _ => unwritten_calling (Service.keeps_search _ _ _ _ (Service.unwritten_send _))

/-! ### Writing -/

variable {i : Index}

theorem calling_ok {α : Type} {t : Attempt Service α} {a : α} {s' : Service} (h : t i.service = (.ok a, s')) :
    calling t i = (.ok a, { i with service := s' }) := by
  rw [calling, Attempt.on_run, h]

/-- Where no call is refused, the collection is there in the end, with the rows that it had. -/
theorem collection_ends (hi : i.Willing) (user : Int) :
    Ends (collection user) i fun r i' => r = .ok (collectionOf user) ∧ Unwritten i i' := by
  refine ⟨?_, unwritten_collection user i⟩
  suffices h : Ends (collection user) i fun r _ => r = .ok (collectionOf user) from h
  unfold collection
  refine Ends.look ?_
  split
  · rfl
  · refine Ends.next (calling_ok (Service.has_ok hi.accepts _)) ?_
    split
    · exact Ends.look (Ends.next (calling_ok (Service.create_ok (hi.accepts.logged _) _ _)) rfl)
    · rfl

/-- What is written to a user's collection, inside the lock: the collection is there, a call changes its rows, and what was
written is made visible. -/
theorem writing_ends (hi : i.Willing) (user : Int) (write : String → Attempt Service Unit) (f : List Row → List Row)
    (hwrite : ∀ s : Service, s.Willing → ∃ call, write (collectionOf user) s =
      (.ok (), (s.logged call).setRows (collectionOf user) (f (s.rows (collectionOf user))))) :
    Ends (holding .write do
      let name ← collection user
      calling (write name)
      calling (Service.flush name)) i fun r i' => r = .ok () ∧ Alike i i' ∧
        i'.service.rows (collectionOf user) = f (i.service.rows (collectionOf user)) := by
  suffices h : ∀ i : Index, i.Willing → Ends (do
      let name ← collection user
      calling (write name)
      calling (Service.flush name)) i fun r i' => r = .ok () ∧ Alike i i' ∧
        i'.service.rows (collectionOf user) = f (i.service.rows (collectionOf user)) by
    obtain ⟨hr, ha, hrows⟩ := h { i with lock := i.lock.enter .write } ⟨hi.accepts, hi.embeds⟩
    exact ⟨hr, ⟨ha.conduct, ha.embed⟩, hrows⟩
  intro i hi
  refine (collection_ends hi user).bind (fun name i' h => ?_) fun e i' h => by cases h.1
  obtain ⟨hname, hunwritten⟩ := h
  cases hname
  have hi' := hi.alike hunwritten.toAlike
  obtain ⟨call, hcall⟩ := hwrite i'.service hi'.accepts
  refine Ends.next (calling_ok hcall) ?_
  have hflush := Service.flush_ok ((hi'.accepts.logged call).setRows (collectionOf user)
    (f (i'.service.rows (collectionOf user)))) (collectionOf user)
  unfold Ends
  rw [calling, Attempt.on_run, hflush]
  refine ⟨rfl, ⟨hunwritten.conduct, hunwritten.embed⟩, ?_⟩
  rw [Service.rows_logged, Service.rows_setRows, if_pos rfl, hunwritten.rows]

/-- **A document that is written is put in its place.** -/
theorem upsert_ends (hi : i.Willing) (user : Int) (id content : String) (more : List (String × String)) :
    Ends (upsert user id content more) i fun r i' => r = .ok () ∧ Alike i i' ∧
      ∃ v, i'.service.rows (collectionOf user) =
        putRow (more.foldl (fun r f => r.set f.1 f.2) ⟨id, content, [], .embedding v⟩)
          (i.service.rows (collectionOf user)) := by
  obtain ⟨v, vs, hv⟩ := hi.embeds i.embedder.asked content
  let row : Row := more.foldl (fun r f => r.set f.1 f.2) ⟨id, content, [], .embedding v⟩
  have hembed : embed content i =
      (.ok (v :: vs), { i with embedder := { i.embedder with asked := i.embedder.asked + 1 } }) := by rw [embed, hv]
  have hasked : Willing { i with embedder := { i.embedder with asked := i.embedder.asked + 1 } } :=
    ⟨hi.accepts, hi.embeds⟩
  refine Ends.next hembed ((writing_ends hasked user (fun name => Service.upsert name [row]) (putRow row)
    fun s hs => ⟨_, Service.upsert_ok hs _ _⟩).mono fun r i' h => ?_)
  exact ⟨h.1, ⟨h.2.1.conduct, h.2.1.embed⟩, v, h.2.2⟩

/-- **A document that is deleted is taken away**, whether or not it was there. -/
theorem delete_ends (hi : i.Willing) (user : Int) (id : String) :
    Ends (delete user id) i fun r i' => r = .ok () ∧ Alike i i' ∧
      i'.service.rows (collectionOf user) = dropRows [id] (i.service.rows (collectionOf user)) :=
  writing_ends hi user (fun name => Service.delete name [id]) (dropRows [id]) fun _ hs => ⟨_, Service.delete_ok hs _ _⟩

end Index
end Vector
end NoteAgent
