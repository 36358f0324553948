import NoteAgent.Lock
import NoteAgent.Vector.Hit
import NoteAgent.Vector.Letters
/-!
# Index — one searchable collection per user

The index makes a user's collection on first use and remembers that it is there.  Writing holds the write side of one
lock, searching the read side, and the lock is left however the operation ends.  The service may refuse a limit that its
own count of rows allows, because the count lags behind; a search then tries the next smaller limit.
-/
namespace NoteAgent
namespace Vector

/-- The index over a service with states `σ`. -/
structure IndexOver (σ : Type) where
  /-- The collections known to be there. -/
  known : List String
  dimension : Int
  lock : Lock
  service : σ
  embedder : Embedder

/-- The index over the service in memory. -/
abbrev Index := IndexOver Service

def collectionNamed (user : String) : String := "user_" ++ user ++ "_notes"

def collectionOf (user : Int) : String := collectionNamed (toString user)

/-- The limits a search for `k` rows among `count` tries: from the smaller of the two down to one. -/
def limits (k count : Int) : List Nat := (List.range (min k count).toNat).reverse.map (· + 1)

/-- The filter that a search with a tag sends; no tag and the empty one ask for nothing. -/
def tagFilter : Option String → String
  | none => ""
  | some tag => if tag.isEmpty then "" else Filter.containing "tags" tag

namespace Index

variable {σ : Type}

/-- An index that knows no collection, over a service. -/
def fresh (service : σ) (embedder : Embedder) (dimension : Int) : IndexOver σ :=
  ⟨[], dimension, .free, service, embedder⟩

def calling {α : Type} (t : Attempt σ α) : Attempt (IndexOver σ) α := t.on (·.service) fun i s => { i with service := s }

/-- Does an attempt inside one side of the lock. -/
def holding {α : Type} (side : Lock.Side) (t : Attempt (IndexOver σ) α) : Attempt (IndexOver σ) α := fun i =>
  t.afterwards (fun i => { i with lock := i.lock.leave side }) { i with lock := i.lock.enter side }

def embed (text : String) : Attempt (IndexOver σ) (List Embedding) := fun i =>
  (i.embedder.embed i.embedder.asked text, { i with embedder := { i.embedder with asked := i.embedder.asked + 1 } })

/-- Asks with one limit after the other until one is not refused.  If all are, the answer is the text of the last
refusal. -/
def firstAccepted (ask : Nat → Attempt (IndexOver σ) Json) (last : Option String) :
    List Nat → Attempt (IndexOver σ) (Except (Option String) Json)
  | [] => .done (.error last)
  | limit :: limits => do
    match ← (ask limit).settle with
    | .ok results => firstAnswerOf last results
    | .error (.refused text) => firstAccepted ask (some text) limits
    | .error f => .fail f
where
  /-- The answer to the query, or the text of the last refusal if null stands in its place. -/
  firstAnswerOf (last : Option String) (results : Json) : Attempt (IndexOver σ) (Except (Option String) Json) := do
    match ← Attempt.ofExcept (firstAnswer results) with
    | some hits => .done (.ok hits)
    | none => .done (.error last)

variable [Client σ]

/-- The name of the user's collection, which is there afterwards.  It is remembered only once it is. -/
def collection (user : Int) : Attempt (IndexOver σ) String := do
  let name := collectionOf user
  if ← .look (·.known.contains name) then return name
  if !(← calling (Client.has name)) then
    calling (Client.create name (← .look (·.dimension)))
  .change fun i => { i with known := name :: i.known }
  return name

/-- Writes a document: its id, its content and further fields. -/
def upsert (user : Int) (id content : String) (more : List (String × String)) : Attempt (IndexOver σ) Unit := do
  match ← embed content with
  | [] => .fail .noVector
  | v :: _ =>
    let row := more.foldl (fun r f => r.set f.1 f.2) ⟨id, content, [], .embedding v⟩
    holding .write do
      let name ← collection user
      calling (Client.upsert name [row])
      calling (Client.flush name)

def delete (user : Int) (id : String) : Attempt (IndexOver σ) Unit :=
  holding .write do
    let name ← collection user
    calling (Client.delete name [id])
    calling (Client.flush name)

/-- The hits of a search as the service gives them; an empty collection is not searched. -/
def rawHits (user : Int) (query : String) (k : Int) (tag : Option String) : Attempt (IndexOver σ) Json :=
  holding .read do
    let name ← collection user
    let count ← Attempt.ofExcept (countOf (← calling (Client.stats name)))
    match limits k count with
    | [] => return .list []
    | tries =>
      let queries ← embed query
      let filter := tagFilter tag
      match ← firstAccepted (fun limit => calling (Client.search name queries limit filter)) none tries with
      | .ok hits => return hits
      | .error last => .fail (.searchFailed name last)

/-- The `k` documents of the user nearest to a query, or fewer; with a tag, only documents whose tags hold it. -/
def search (user : Int) (query : String) (k : Int) (tag : Option String) : Attempt (IndexOver σ) (List Hit) := do
  Attempt.ofExcept (readHits (← rawHits user query k tag))

end Index

/-! ## Uses of one index -/

inductive Use
  | upsert (user : Int) (id content : String) (more : List (String × String))
  | delete (user : Int) (id : String)
  | search (user : Int) (query : String) (k : Int) (tag : Option String)
  deriving DecidableEq

namespace Use

def user : Use → Int
  | upsert user .. | delete user _ | search user .. => user

variable {σ : Type} [Client σ]

/-- The use; a search answers with its hits. -/
def run : Use → Attempt (IndexOver σ) (Option (List Hit))
  | upsert user id content more => do
    Index.upsert user id content more
    return none
  | delete user id => do
    Index.delete user id
    return none
  | search user query k tag => do return some (← Index.search user query k tag)

def after (i : IndexOver σ) (xs : List Use) : IndexOver σ := xs.foldl (fun i x => (x.run i).2) i

/-- What the uses for a user come to, among all uses of the index. -/
def results (user : Int) (i : IndexOver σ) : List Use → List (Except Failure (Option (List Hit)))
  | [] => []
  | x :: xs => if x.user = user then (x.run i).1 :: results user (x.run i).2 xs else results user (x.run i).2 xs

end Use
end Vector
end NoteAgent
