import NoteAgent.Tool.Dispatch
/-!
# Call — tools run one after another

A tool is called for somebody at a time, with whatever a model wrote.  Of all that is done in the world, running tools and
writing notes to the index are what changes notes and documents.
-/
namespace NoteAgent
namespace Tool

/-- A call of a tool: when it is made, the number that an id would be made from then, the index and the tag that the
tools are given, and what the model wrote. -/
structure Call where
  clock : Int
  nextId : Nat
  indexed : Bool
  tag : LooseText
  name : String
  raw : String

def Call.caller (user : Int) (k : Call) : Caller := { user := user, indexed := k.indexed, tag := k.tag }

def Call.after (user : Int) (w : World) (k : Call) : World :=
  (run (k.caller user) k.name k.raw { w with clock := k.clock, nextId := k.nextId }).2

/-- The world after calls for a user, one after the other. -/
def afterCalls (user : Int) (w : World) (ks : List Call) : World := ks.foldl (Call.after user) w

def afterAllCalls (w : World) (ks : List (Int × Call)) : World := ks.foldl (fun w k => k.2.after k.1 w) w

end Tool

namespace World

/-- What is done: a tool that is given the index is run for somebody, all notes of a user are written to the index, or time
goes by and ids are made from another number. -/
inductive Work
  | tool (c : Tool.Caller) (name raw : String)
  | indexing (user : Int)
  | wait (clock : Int) (nextId : Nat)

def Work.after (w : World) : Work → World
  | .tool c name raw => (Tool.run { c with indexed := true } name raw w).2
  | .indexing user => (Note.Indexing.run user w).2
  | .wait clock nextId => { w with clock := clock, nextId := nextId }

def afterWork (w : World) (xs : List Work) : World := xs.foldl Work.after w

end World
end NoteAgent
