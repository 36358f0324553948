import NoteAgent.Failure
import NoteAgent.Text.Cut
import NoteAgent.Numeral.Real
/-!
# Hit — reading what the vector service answers

The service's answers come as JSON of any form.  The count of rows and the hits of a search are read off them; an answer
of the wrong form is a failure that names what is wrong.
-/
namespace NoteAgent

namespace Json

/-- The whole number that a value stands for: a number is cut toward zero, a text is read. -/
def Value.toWhole : Json → Except Failure Int
  | .int n => .ok n
  | .bool b => .ok (if b then 1 else 0)
  | .real x =>
    match Numeral.truncate? x with
    | some n => .ok n
    | none => .error (if x.isNaN then .wholeOfNan else .wholeOfInfinity)
  | .text s =>
    match Numeral.readWhole s with
    | .ok n => .ok n
    | .error .malformed => .error (.notWhole s)
    | .error (.tooLong digits) => .error (.tooManyDigits digits)
  | v => .error (.kindNotWhole v.kind)

/-- The real number that a value stands for: a whole number is rounded, a text is read. -/
def Value.toReal : Json → Except Failure Float
  | .real x => .ok x
  | .bool b => .ok (if b then 1 else 0)
  | .int n => if (Numeral.ofInt n).isFinite then .ok (Numeral.ofInt n) else .error .realTooLarge
  | .text s =>
    match Numeral.readReal s with
    | some x => .ok x
    | none => .error (.notReal s)
  | v => .error (.kindNotReal v.kind)

/-- The fields of a record whose members are asked for by `get`; what counts as nothing has none. -/
def Value.fieldsOrNone (v : Json) : Except Failure (List (String × Json)) :=
  if v.isNothing then .ok []
  else match v with
    | .record fs => .ok fs
    | v => .error (.noMember v.kind.name "get")

end Json

namespace Vector

/-- The count of rows among the figures of a collection. -/
def countOf (stats : Json) : Except Failure Int := do
  let fs ← stats.fieldsOrNone
  ((Json.lookup "row_count" fs).getD (.int 0)).toWhole

/-- A hit: the id of a document, its content, which should be a text, and its score. -/
structure Hit where
  id : String
  content : Json
  score : Float

/-- The list of hits for the first query in the answer to a search; `none` stands for null in its place. -/
def firstAnswer (results : Json) : Except Failure (Option Json) :=
  if results.isNothing then .ok (some (.list []))
  else match results with
    | .list (.null :: _) => .ok none
    | .list (v :: _) => .ok (some v)
    | .text s => .ok (some (.text (Text.cut 1 s)))
    | .record _ => .error (.noKey "0")
    | v => .error (.noItems v.kind.name)

/-- The items that going through a value meets. -/
def itemsOf : Json → Except Failure (List Json)
  | .list vs => .ok vs
  | .text s => .ok (s.toList.map fun c => .text (String.singleton c))
  | .record fs => .ok (fs.map fun f => .text f.1)
  | v => .error (.notIterable v.kind.name)

/-- Reads one hit.  Members that the hit lacks are looked for in its entity, or the other way round. -/
def readHit (h : Json) : Except Failure Hit := do
  match h with
  | .record fs =>
    let entity ← ((Json.lookup "entity" fs).getD .null).fieldsOrNone
    let id := ((Json.lookup "id" fs).or (Json.lookup "id" entity)).getD (.text "")
    let content := ((Json.lookup "content" entity).or (Json.lookup "content" fs)).getD (.text "")
    let score ← (((Json.lookup "distance" fs).or (Json.lookup "score" fs)).getD (.real 0)).toReal
    .ok ⟨Json.shown id, content, score⟩
  | v => .error (.noMember v.kind.name "get")

def readHits (hits : Json) : Except Failure (List Hit) := do
  (← itemsOf hits).mapM readHit

end Vector
end NoteAgent
