import NoteAgent.Attempt
import NoteAgent.Vector.Filter
/-!
# Service — the vector service

Named collections of rows, held in memory, in the order the rows came; a row sent again under its id keeps its place.
Every call is written to a log before it is answered.  How the service behaves beyond that is its conduct: which calls it
refuses, and which answers it gives that are not its own count of rows or its own ranking.  The index asks a service by
seven calls and knows nothing else of it (`Client`); the service in memory is one.
-/
namespace NoteAgent
namespace Vector

/-- What a text is embedded as. -/
abbrev Embedding := List Float

/-- What a row holds for its vector: an embedding, or a text that was set in its place. -/
inductive RowVector
  | embedding (e : Embedding)
  | text (s : String)

/-- The name of the field that holds the vector of a row. -/
def vectorField : String := "vector"

/-- A row of a collection: the id and the content of a document, further fields, and the vector. -/
structure Row where
  id : String
  content : String
  more : List (String × String)
  vector : RowVector

def Row.set (r : Row) (field value : String) : Row :=
  if field == "id" then { r with id := value }
  else if field == "content" then { r with content := value }
  else if field == vectorField then { r with vector := .text value }
  else { r with more := Json.put field value r.more }

def Row.tags (r : Row) : String := (Json.lookup "tags" r.more).getD ""

/-- A call to the service. -/
inductive Call
  | has (name : String)
  | create (name : String) (dimension : Int)
  | upsert (name : String) (rows : List Row)
  | delete (name : String) (ids : List String)
  | flush (name : String)
  | stats (name : String)
  | search (name : String) (limit : Nat) (filter : String)

def Call.collection : Call → String
  | .has name | .create name _ | .upsert name _ | .delete name _ | .flush name | .stats name | .search name _ _ => name

/-- The settings with which a collection is made: text ids, cosine similarity. -/
def settings (name : String) (dimension : Int) : List (String × Json) :=
  [("collection_name", .text name), ("dimension", .int dimension), ("primary_field_name", .text "id"),
    ("id_type", .text "string"), ("max_length", .int 64), ("vector_field_name", .text vectorField),
    ("metric_type", .text "COSINE"), ("auto_id", .bool false)]

/-- The fields that a search asks to see of a row. -/
def outputFields : List String := ["content"]

/-- How the service behaves at its `n`-th call: whether it refuses, and what it answers in place of its own count of rows
and of its own ranking for a limit. -/
structure Conduct where
  refuse : Nat → Call → Option Failure
  stats : Nat → Option Json
  hits : Nat → Nat → Option Json

/-- A service that refuses nothing and answers with its own figures. -/
def Conduct.plain : Conduct := ⟨fun _ _ => none, fun _ => none, fun _ _ => none⟩

/-- The service: its collections, the calls made to it, and its conduct. -/
structure Service where
  collections : List (String × List Row)
  log : List Call
  conduct : Conduct

/-! ## Rows -/

/-- The rows with `r` in the place of the row of its id, or at the end. -/
def putRow (r : Row) : List Row → List Row
  | [] => [r]
  | r' :: rs => if r'.id == r.id then r :: rs else r' :: putRow r rs

/-- The rows whose id is not among `ids`. -/
def dropRows (ids : List String) (rs : List Row) : List Row := rs.filter fun r => !ids.contains r.id

/-! ## Ranking -/

/-- The sum of the products of two embeddings, place by place. -/
def dot (a b : Embedding) : Float := (List.zipWith (· * ·) a b).foldl (· + ·) 0

/-- The cosine of the angle between two embeddings, zero if one of them is zero. -/
def similarity (a b : Embedding) : Float :=
  let size := dot a a * dot b b
  if size == 0 then 0 else dot a b / size.sqrt

/-- The likeness of a row to a query.  The letters of a text cannot be multiplied; an empty text is like nothing. -/
def score (query : Embedding) (r : Row) : Except Failure Float :=
  match r.vector with
  | .embedding e => .ok (similarity query e)
  | .text s => if s.isEmpty then .ok 0 else .error (.noProduct .text)

def admitted (filter : String) (rs : List Row) : List Row :=
  if filter.isEmpty then rs else rs.filter fun r => Text.occursIn (Filter.asked "tags" filter) r.tags.toList

def scored (query : Embedding) : List Row → Except Failure (List (Float × Row))
  | [] => .ok []
  | r :: rs => do return (← score query r, r) :: (← scored query rs)

/-- The rows with their scores, best first, rows of equal score in their order. -/
def ranked (query : Embedding) (rs : List Row) : Except Failure (List (Float × Row)) :=
  (scored query rs).map fun scored => scored.mergeSort fun a b => b.1 ≤ a.1

/-- A scored row as a search answers with it. -/
def hit (h : Float × Row) : Json :=
  .record [("id", .text h.2.id), ("distance", .real h.1), ("entity", .record [("content", .text h.2.content)])]

namespace Service

def empty : Service := ⟨[], [], .plain⟩

def rows (s : Service) (name : String) : List Row := (Json.lookup name s.collections).getD []

/-- Whether there is a collection of this name. -/
def holds (s : Service) (name : String) : Bool := (Json.lookup name s.collections).isSome

/-- The service with the rows of a collection replaced. -/
def setRows (s : Service) (name : String) (rs : List Row) : Service :=
  { s with collections := Json.put name rs s.collections }

/-! ## Calls -/

/-- Sends a call: it is logged, and then refused or not.  The answer is the number of the call. -/
def send (call : Call) : Attempt Service Nat := fun s =>
  let s' := { s with log := s.log ++ [call] }
  match s.conduct.refuse s.log.length call with
  | some f => (.error f, s')
  | none => (.ok s.log.length, s')

def has (name : String) : Attempt Service Bool := do
  let _ ← send (.has name)
  .look (·.holds name)

def create (name : String) (dimension : Int) : Attempt Service Unit := do
  let _ ← send (.create name dimension)
  .change (·.setRows name [])

def upsert (name : String) (rs : List Row) : Attempt Service Unit := do
  let _ ← send (.upsert name rs)
  .change fun s => s.setRows name (rs.foldl (fun acc r => putRow r acc) (s.rows name))

def delete (name : String) (ids : List String) : Attempt Service Unit := do
  let _ ← send (.delete name ids)
  .change fun s => s.setRows name (dropRows ids (s.rows name))

/-- Makes what was written visible to searches. -/
def flush (name : String) : Attempt Service Unit := do
  let _ ← send (.flush name)

def stats (name : String) : Attempt Service Json := do
  let n ← send (.stats name)
  .look fun s => (s.conduct.stats n).getD (.record [("row_count", .int (s.rows name).length)])

def search (name : String) (queries : List Embedding) (limit : Nat) (filter : String) : Attempt Service Json := do
  let n ← send (.search name limit filter)
  match (← .look fun s => s.conduct.hits n limit), queries with
  | some hits, _ => .done hits
  | none, [] => .fail .noSuchItem
  | none, query :: _ =>
    let best ← .ofExcept (ranked query (admitted filter (← .look (·.rows name))))
    return .list [.list ((best.take limit).map hit)]

end Service

/-! ## Any service -/

/-- A vector service whose states are of type `σ`. -/
class Client (σ : Type) where
  has (name : String) : Attempt σ Bool
  create (name : String) (dimension : Int) : Attempt σ Unit
  upsert (name : String) (rows : List Row) : Attempt σ Unit
  delete (name : String) (ids : List String) : Attempt σ Unit
  flush (name : String) : Attempt σ Unit
  stats (name : String) : Attempt σ Json
  search (name : String) (queries : List Embedding) (limit : Nat) (filter : String) : Attempt σ Json

instance : Client Service :=
  ⟨Service.has, Service.create, Service.upsert, Service.delete, Service.flush, Service.stats, Service.search⟩

end Vector
end NoteAgent
