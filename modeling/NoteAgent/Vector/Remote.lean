import NoteAgent.Attempt
import NoteAgent.Settings
/-!
# Remote — embedding texts by a service

The texts are posted in batches.  The service answers with one list of numbers for each text of the batch, or with a
single list; each is divided by its length.  The first answer that is no good ends it.
-/
namespace NoteAgent
namespace Vector
namespace Remote

/-- What the service answers to a post: a status, a text, and what it gives as JSON. -/
structure Answer where
  status : Int
  text : String
  json : Json

/-- The service: its answer to the `n`-th post, which holds these texts, and the texts of the posts so far. -/
structure Service where
  answers : Nat → List String → Answer
  posts : List (List String)

def address : String :=
  "https://router.huggingface.co/hf-inference/models/" ++ Settings.embeddingModel ++ "/pipeline/feature-extraction"

def headers (key : String) : List (String × String) :=
  [("Authorization", "Bearer " ++ key), ("Content-Type", "application/json")]

def body (texts : List String) : Json :=
  .record [("inputs", .list (texts.map .text)), ("options", .record [("wait_for_model", .bool true)])]

def post (texts : List String) : Attempt Service Answer := fun s =>
  (.ok (s.answers s.posts.length texts), { s with posts := s.posts ++ [texts] })

/-! ## Vectors -/

/-- A number as JSON has it: whole numbers are exact. -/
inductive Number
  | int (n : Int)
  | real (x : Float)

def Number.toReal : Number → Except Failure Float
  | .int n => (Json.Value.int n : Json).toReal
  | .real x => .ok x

/-- The number that a value is; a value of another kind cannot be squared. -/
def numberOf : Json → Except Failure Number
  | .int n => .ok (.int n)
  | .bool b => .ok (.int (if b then 1 else 0))
  | .real x => .ok (.real x)
  | v => .error (.noProduct v.kind)

def Number.square : Number → Number
  | .int n => .int (n * n)
  | .real x => .real (x * x)

/-- The sum of two numbers, exact while both are whole. -/
def Number.add : Number → Number → Except Failure Number
  | .int a, .int b => .ok (.int (a + b))
  | a, b => do return .real ((← a.toReal) + (← b.toReal))

/-- The sum of the squares of the items, of which the first that cannot be squared or added is told. -/
def sumOfSquares (sum : Number) : List Json → Except Failure Number
  | [] => .ok sum
  | v :: vs => do sumOfSquares (← sum.add (← numberOf v).square) vs

/-- The length of a vector, or one if that is zero. -/
def lengthOf (items : List Json) : Except Failure Float := do
  let length := (← (← sumOfSquares (.int 0) items).toReal).sqrt
  return if length == 0 then 1 else length

def unit (v : Json) : Except Failure Embedding := do
  let items ← itemsOf v
  let length ← lengthOf items
  items.mapM fun v => do return (← (← numberOf v).toReal) / length

/-- The vectors that an answer holds: a list of lists, or all of it as one. -/
def vectorsOf (v : Json) : List Json :=
  match v with
  | .list (.list first :: rest) => .list first :: rest
  | v => [v]

/-! ## Batches -/

/-- The characters of an answer's text that a message quotes. -/
def quotedLength : Nat := 200

def Answer.read (a : Answer) : Except Failure (List Embedding) :=
  if a.status == 503 then .error (.embeddingLoading a.text)
  else if a.status == 401 then .error .embeddingKeyRefused
  else if a.status != 200 then .error (.embeddingStatus a.status (Text.cut quotedLength a.text))
  else (vectorsOf a.json).mapM unit

/-- The texts in batches of `size`, which is not zero. -/
def batches (size : Nat) (texts : List String) : List (List String) :=
  if _h : size = 0 ∨ texts = [] then []
  else texts.take size :: batches size (texts.drop size)
termination_by texts.length
decreasing_by
  simp only [not_or] at _h
  have : texts.length ≠ 0 := by simpa using _h.2
  simp only [List.length_drop]
  omega

def embedBatches : List (List String) → Attempt Service (List Embedding)
  | [] => .done []
  | batch :: batches => do
    let vectors ← .ofExcept (← post batch).read
    return vectors ++ (← embedBatches batches)

/-- Embeds texts in batches of a size; below zero there are no batches at all. -/
def embed (key : String) (size : Int) (texts : List String) : Attempt Service (List Embedding) :=
  if texts.isEmpty then .done []
  else if key.isEmpty then .fail .embeddingKeyMissing
  else if size == 0 then .fail .batchSizeZero
  else embedBatches (batches size.toNat texts)

end Remote
end Vector
end NoteAgent
