import NoteAgent.Tag
import NoteAgent.World.Notes
/-!
# Indexing — writing notes to the index

A note is written under its uid, its tags beside it.  A tool runs for one user and tells the index of a note that it has
changed, should there be one, and a failure of the index is passed over.  Of a user all notes in use whose content is not
blank can be written at once, newest first; there the first failure ends it.
-/
namespace NoteAgent
namespace Tool

/-! ## One note -/

/-- How many documents a search asks for, unless told otherwise. -/
def defaultTopK : Int := 5

/-- For whom and with what a tool runs. -/
structure Caller where
  user : Int
  /-- Whether there is an index. -/
  indexed : Bool
  /-- The tag that searches are narrowed to; empty for none. -/
  tag : LooseText := ""
  /-- How many documents a search asks for. -/
  topK : Int := defaultTopK

/-- The further fields of a note in the index. -/
def indexFields (content : String) : List (String × String) := [("tags", Tag.joined content)]

namespace Caller

/-- Writes a note to the index, should there be one. -/
def index (c : Caller) (uid content : String) : Attempt World Unit :=
  if c.indexed then (World.indexed (Vector.Index.upsert c.user uid content (indexFields content))).ignore else .done ()

/-- Takes a note out of the index, should there be one. -/
def forget (c : Caller) (uid : String) : Attempt World Unit :=
  if c.indexed then (World.indexed (Vector.Index.delete c.user uid)).ignore else .done ()

end Caller
end Tool

/-! ## All notes of a user -/

namespace Note
namespace Indexing

def isIndexed (n : Note) : Bool := !(Text.strip n.content).isEmpty

def write (user : Int) (n : Note) : Attempt World Unit :=
  World.indexed (Vector.Index.upsert user n.uid n.content (Tool.indexFields n.content))

/-- Writes the notes of a user to the index and says how many. -/
def run (user : Int) : Attempt World Nat := do
  let found ← World.needList (← World.notesOf user { status := some Note.normal })
  let chosen := found.filter isIndexed
  .each (write user) chosen
  return chosen.length

end Indexing
end Note
end NoteAgent
