import NoteAgent.Failure
import NoteAgent.Text.Cut
/-!
# Table — the note table

A row holds a note under a row number; a new row takes the number after the largest there is.  Notes are listed newest
first, and of equal age the larger row number first.  Whole numbers must fit a column of 64 bits.
-/
namespace NoteAgent

/-- A note. -/
structure Note where
  uid : String
  owner : Int
  content : String
  status : String
  created : Int
  updated : Int
  deriving DecidableEq, Repr

/-- Whether a whole number fits a column of the stores. -/
def fitsColumn (n : Int) : Bool := -9223372036854775808 ≤ n && n ≤ 9223372036854775807

/-- The numbers a statement is given must all fit. -/
def checkColumns (ns : List Int) : Except Failure Unit :=
  if ns.all fitsColumn then .ok () else .error .wideInteger

namespace Note

def normal : String := "NORMAL"

/-- A row of the table. -/
structure Entry where
  row : Nat
  note : Note
  deriving DecidableEq, Repr

/-- The rows, in the order they were added. -/
structure Table where
  entries : List Entry
  deriving DecidableEq, Repr

/-- Which notes of an owner are asked for. -/
structure Filter where
  contains : Option String := none
  createdFrom : Option Int := none
  createdTo : Option Int := none
  status : Option String := none
  deriving DecidableEq, Repr

/-- A filter that asks for every note of the owner. -/
def Filter.all : Filter := {}

namespace Table

def empty : Table := ⟨[]⟩

def nextRow (t : Table) : Nat := t.entries.foldl (fun n e => max n e.row) 0 + 1

def toList (t : Table) : List Note := t.entries.map (·.note)

/-- Adds a note under a uid that is not in use. -/
def insert (t : Table) (n : Note) : Except Failure Table := do
  checkColumns [n.owner, n.created, n.updated]
  if t.entries.any (·.note.uid == n.uid) then .error (.taken "note.uid")
  else .ok ⟨t.entries ++ [⟨t.nextRow, n⟩]⟩

def get? (t : Table) (uid : String) : Option Note := (t.entries.find? (·.note.uid == uid)).map (·.note)

/-- The note with a uid given new content and a new time of change. -/
def setContent (t : Table) (uid content : String) (now : Int) : Except Failure Table := do
  checkColumns [now]
  if t.entries.any (·.note.uid == uid) then
    .ok ⟨t.entries.map fun e =>
      if e.note.uid == uid then { e with note := { e.note with content := content, updated := now } } else e⟩
  else .error (.noNote uid)

def erase (t : Table) (uid : String) : Table := ⟨t.entries.filter (·.note.uid != uid)⟩

/-- Whether a note of the owner passes the filter. -/
def Filter.admits (owner : Int) (f : Filter) (n : Note) : Bool :=
  n.owner == owner && f.contains.all (fun s => s.isEmpty || Text.contains n.content s) &&
    f.createdFrom.all (· ≤ n.created) && f.createdTo.all (n.created ≤ ·) && f.status.all (· == n.status)

/-- Newest first, and of equal age the larger row number first. -/
def newerOrEqual (a b : Entry) : Bool :=
  b.note.created < a.note.created || (a.note.created == b.note.created && b.row ≤ a.row)

/-- The notes of an owner that pass the filter, newest first. -/
def select (t : Table) (owner : Int) (f : Filter) : Except Failure (List Note) := do
  checkColumns (owner :: f.createdFrom.toList ++ f.createdTo.toList)
  .ok (((t.entries.filter fun e => Filter.admits owner f e.note).mergeSort newerOrEqual).map (·.note))

/-- How many notes of an owner have a status. -/
def count (t : Table) (owner : Int) (status : String) : Except Failure Nat := do
  checkColumns [owner]
  .ok (t.entries.countP fun e => e.note.owner == owner && e.note.status == status)

end Table
end Note
end NoteAgent
