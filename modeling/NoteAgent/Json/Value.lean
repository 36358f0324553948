import NoteAgent.Text.Blank
import NoteAgent.Text.Utf8
/-!
# Value — JSON values

A value over a type `S` of texts.  `Json` has plain text.  `LooseJson` has text as JSON can spell it: there a string may
hold half of a surrogate pair standing alone, which is no character.  A record keeps its fields in the order they came
and holds each key once.
-/
namespace NoteAgent
namespace Json

/-- A JSON value whose strings are of type `S`. -/
inductive Value (S : Type)
  | null
  | bool (b : Bool)
  | int (n : Int)
  | real (x : Float)
  | text (s : S)
  | list (items : List (Value S))
  | record (fields : List (S × Value S))

/-- A piece of a JSON string: a character, or one of the 2048 halves of surrogate pairs, the high ones first. -/
inductive Piece
  | char (c : Char)
  | half (n : Fin 2048)
  deriving DecidableEq, Repr

def Piece.char? : Piece → Option Char
  | .char c => some c
  | .half _ => none

def pieces (s : String) : List Piece := s.toList.map Piece.char

/-- The plain text with these pieces, if all of them are characters. -/
def text? (ps : List Piece) : Option String := (ps.mapM Piece.char?).map String.ofList

/-- The plain text nearest to these pieces: a half is shown as the replacement character. -/
def nearestText (ps : List Piece) : String := String.ofList (ps.map fun p => p.char?.getD Text.replacement)

def Piece.isBlank (p : Piece) : Bool := p.char?.any Text.isBlank

/-- The pieces without the blanks at either end. -/
def strip (ps : List Piece) : List Piece := Text.trimBy Piece.isBlank ps

theorem text?_pieces (s : String) : text? (pieces s) = some s := by
  have hall (cs : List Char) : (cs.map Piece.char).mapM Piece.char? = some cs := by
    induction cs with
    | nil => rfl
    | cons c cs ih => simp [List.mapM_cons, ih, Piece.char?]
  simp [text?, pieces, hall]

theorem nearestText_pieces (s : String) : nearestText (pieces s) = s := by
  simp [nearestText, pieces, Piece.char?, Function.comp_def]

/-! ## Records -/

def lookup {S α : Type} [BEq S] (key : S) : List (S × α) → Option α
  | [] => none
  | (k, v) :: fs => if k == key then some v else lookup key fs

/-- The fields with `key` set to `v`: in its place if the key is there, otherwise at the end. -/
def put {S α : Type} [BEq S] (key : S) (v : α) : List (S × α) → List (S × α)
  | [] => [(key, v)]
  | (k, w) :: fs => if k == key then (k, v) :: fs else (k, w) :: put key v fs

theorem lookup_put {S α : Type} [BEq S] [LawfulBEq S] (key key' : S) (v : α) (fs : List (S × α)) :
    lookup key (put key' v fs) = if key' == key then some v else lookup key fs := by
  induction fs with
  | nil => simp [put, lookup]
  | cons f fs ih =>
    obtain ⟨k, w⟩ := f
    by_cases h : k = key'
    · subst h; by_cases h' : k = key <;> simp [put, lookup, h']
    · have hne : (k == key') = false := by simpa using h
      by_cases h' : k = key
      · subst h'
        have : (key' == k) = false := by simpa using fun e => h e.symm
        simp [put, lookup, hne, this]
      · simp [put, lookup, hne, ih, h']

/-! ## Changing the texts of a value -/

mutual
/-- The value with `f` done to every text in it. -/
def Value.map {S T : Type} (f : S → T) : Value S → Value T
  | .null => .null
  | .bool b => .bool b
  | .int n => .int n
  | .real x => .real x
  | .text s => .text (f s)
  | .list items => .list (Value.mapItems f items)
  | .record fields => .record (Value.mapFields f fields)
def Value.mapItems {S T : Type} (f : S → T) : List (Value S) → List (Value T)
  | [] => []
  | v :: vs => Value.map f v :: Value.mapItems f vs
def Value.mapFields {S T : Type} (f : S → T) : List (S × Value S) → List (T × Value T)
  | [] => []
  | (k, v) :: fs => (f k, Value.map f v) :: Value.mapFields f fs
end

mutual
/-- The value with `f` done to every text in it, keys too, if `f` has a result for each. -/
def Value.map? {S T : Type} (f : S → Option T) : Value S → Option (Value T)
  | .null => some .null
  | .bool b => some (.bool b)
  | .int n => some (.int n)
  | .real x => some (.real x)
  | .text s => (f s).map .text
  | .list items => (Value.mapItems? f items).map .list
  | .record fields => (Value.mapFields? f fields).map .record
def Value.mapItems? {S T : Type} (f : S → Option T) : List (Value S) → Option (List (Value T))
  | [] => some []
  | v :: vs => do return (← Value.map? f v) :: (← Value.mapItems? f vs)
def Value.mapFields? {S T : Type} (f : S → Option T) : List (S × Value S) → Option (List (T × Value T))
  | [] => some []
  | (k, v) :: fs => do return (← f k, ← Value.map? f v) :: (← Value.mapFields? f fs)
end

/-! ## Printable values -/

mutual
/-- Whether JSON text of characters can write a value: its numbers are finite, and its texts hold no half of a pair. -/
def Value.isPrintable : Value (List Piece) → Bool
  | .real x => x.isFinite
  | .text ps => (text? ps).isSome
  | .list items => Value.arePrintable items
  | .record fields => Value.fieldsArePrintable fields
  | _ => true
def Value.arePrintable : List (Value (List Piece)) → Bool
  | [] => true
  | v :: vs => v.isPrintable && Value.arePrintable vs
def Value.fieldsArePrintable : List (List Piece × Value (List Piece)) → Bool
  | [] => true
  | (k, v) :: fs => (text? k).isSome && v.isPrintable && Value.fieldsArePrintable fs
end

/-! ## Height -/

mutual
/-- How many values stand one inside another, the value itself counted. -/
def Value.height {S : Type} : Value S → Nat
  | .list items => Value.heightOfItems items + 1
  | .record fields => Value.heightOfFields fields + 1
  | _ => 1
def Value.heightOfItems {S : Type} : List (Value S) → Nat
  | [] => 0
  | v :: vs => max (Value.height v) (Value.heightOfItems vs)
def Value.heightOfFields {S : Type} : List (S × Value S) → Nat
  | [] => 0
  | (_, v) :: fs => max (Value.height v) (Value.heightOfFields fs)
end

end Json

abbrev Json := Json.Value String

/-- A text as JSON can spell it. -/
abbrev LooseText := List Json.Piece

/-- A text of characters is spelt by them. -/
instance : Coe String LooseText := ⟨Json.pieces⟩

/-- A JSON value as a text can spell it. -/
abbrev LooseJson := Json.Value (List Json.Piece)

def Json.loose (v : Json) : LooseJson := Json.Value.map Json.pieces v

/-- The value in plain text, if no string in it holds half of a pair. -/
def Json.Value.plain? (v : LooseJson) : Option Json := Json.Value.map? Json.text? v

/-- A field of a record; a value of another kind has none. -/
def Json.Value.field? (v : Json) (key : String) : Option Json :=
  match v with
  | .record fields => Json.lookup key fields
  | _ => none

/-- Whether a value counts as nothing: null, false, zero, and what is empty. -/
def Json.Value.isNothing : Json → Bool
  | .null => true
  | .bool b => !b
  | .int n => n == 0
  | .real x => x == 0
  | .text s => s.isEmpty
  | .list vs => vs.isEmpty
  | .record fs => fs.isEmpty

end NoteAgent
