import NoteAgent.World
/-!
# Notes — the note store at work

Each method is the note table's operation at the time of the clock, unless a fault strikes it.  A method struck silent
changes nothing and answers `none`.
-/
namespace NoteAgent
namespace World

/-- A method of the note store, unless a fault strikes it. -/
def noteMethod {α : Type} (m : Note.Method) (t : Attempt World α) : Attempt World (Option α) := fun w =>
  let w' := { w with noteFaults := { w.noteFaults with uses := w.noteFaults.uses + 1 } }
  match w.noteFaults.strikes w.noteFaults.uses m with
  | some (.breaks text) => (.error (.broken text), w')
  | some .silent => (.ok none, w')
  | none => (some <$> t) w'

def onNotes (f : Note.Table → Except Failure Note.Table) : Attempt World Unit :=
  .update fun w => do return { w with notes := ← f w.notes }

def noteUidLength : Nat := 22

/-- Adds a note, created now if no other time is given. -/
def addNote (owner : Int) (content : String) (created : Option Int) (status : String) : Attempt World (Option Note) :=
  noteMethod .add do
    let uid := idText noteUidLength (← takeId)
    let now ← .look (·.clock)
    let note : Note := ⟨uid, owner, content, status, created.getD now, now⟩
    onNotes (·.insert note)
    return note

def findNote (uid : String) : Attempt World (Option Note) := do
  return (← noteMethod .find (.look (·.notes.get? uid))).join

def replaceContent (uid content : String) : Attempt World (Option Unit) :=
  noteMethod .replace do
    let now ← .look (·.clock)
    onNotes (·.setContent uid content now)

def removeNote (uid : String) : Attempt World (Option Unit) :=
  noteMethod .remove (onNotes fun t => .ok (t.erase uid))

/-- The notes of an owner that pass a filter. -/
def notesOf (owner : Int) (f : Note.Filter) : Attempt World (Option (List Note)) :=
  noteMethod .list do .ofExcept ((← .look (·.notes)).select owner f)

/-- How many notes of an owner have a status. -/
def noteCount (owner : Int) (status : String) : Attempt World (Option Nat) :=
  noteMethod .count do .ofExcept ((← .look (·.notes)).count owner status)

end World
end NoteAgent
