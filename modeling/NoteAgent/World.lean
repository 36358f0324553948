import NoteAgent.Calendar.Stamp
import NoteAgent.Chat.Table
import NoteAgent.Model.Client
import NoteAgent.Vector.Index
/-!
# World — everything an operation can read and change

The clock, the numbers that ids are made from, the two stores, the index and the model.  A store may be struck by faults:
at its `n`-th use a method breaks off, or does nothing and answers nothing.
-/
namespace NoteAgent

/-- What strikes a method of a store. -/
inductive Fault
  | breaks (text : String)
  | silent
  deriving DecidableEq, Repr

/-- The faults of a store with methods `μ`: what strikes its `n`-th use, and how often it was used. -/
structure Faults (μ : Type) where
  strikes : Nat → μ → Option Fault
  uses : Nat

def Faults.none {μ : Type} : Faults μ := ⟨fun _ _ => .none, 0⟩

/-- The methods of the note store. -/
inductive Note.Method
  | add | find | replace | remove | list | count
  deriving DecidableEq, Repr

/-- The methods of the chat store. -/
inductive Chat.Method
  | addSession | findSession | listSessions | reviseSession | removeSession | addMessage | listMessages | fold
  deriving DecidableEq, Repr

/-- Everything an operation can read and change. -/
structure World where
  /-- Seconds since 1970. -/
  clock : Int
  /-- The number the next id is made from. -/
  nextId : Nat
  notes : Note.Table
  noteFaults : Faults Note.Method
  chats : Chat.Table
  chatFaults : Faults Chat.Method
  index : Vector.Index
  model : Model.Client

namespace World

/-- A world whose stores are empty and whose ids are made from one on. -/
def fresh (clock : Int) (index : Vector.Index) (model : Model.Client) : World :=
  ⟨clock, 1, .empty, .none, .empty, .none, index, model⟩

def indexed {α : Type} (t : Attempt Vector.Index α) : Attempt World α := t.on (·.index) fun w i => { w with index := i }

def asking {α : Type} (t : Attempt Model.Client α) : Attempt World α := t.on (·.model) fun w m => { w with model := m }

def takeId : Attempt World Nat := fun w => (.ok w.nextId, { w with nextId := w.nextId + 1 })

/-- The first `width` characters of the id made from a number: eight hexadecimal digits and zeros. -/
def idText (width n : Nat) : String := String.ofList ((Text.hex 8 n ++ List.replicate 24 '0').take width)

/-- A value that must be there to have a member read off it. -/
def need {α : Type} (member : String) : Option α → Attempt World α
  | some a => .done a
  | none => .fail (.noMember Json.Kind.null.name member)

/-- A list that must be there to be gone through. -/
def needList {α : Type} : Option (List α) → Attempt World (List α)
  | some as => .done as
  | none => .fail (.notIterable Json.Kind.null.name)

def now : Attempt World Calendar.Stamp := do .ofExcept (Calendar.stampOf (← .look (·.clock)))

end World
end NoteAgent
