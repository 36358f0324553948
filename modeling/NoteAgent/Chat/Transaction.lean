import NoteAgent.Attempt
import NoteAgent.Chat.Table
/-!
# Transaction — storing a summary statement by statement

A connection to the chat store sees its own changes at once; the store has them when they are committed.  What was not
committed when a statement broke off is rolled back, and lost when the connection is closed.
-/
namespace NoteAgent
namespace Chat

/-- The steps of the transaction that stores a summary. -/
inductive Statement
  | connect | find | setSummary | dropMessages | commit
  deriving DecidableEq, Repr

/-- What strikes the statements of a transaction. -/
abbrev Strikes := Statement → Option Failure

/-- Nothing strikes. -/
def unstruck : Strikes := fun _ => none

/-- A connection: the tables as the store has them, and as they are seen through it. -/
structure Connection where
  stored : Table
  seen : Table

namespace Connection

/-- A statement, unless it is struck. -/
def statement {α : Type} (strikes : Strikes) (st : Statement) (t : Attempt Connection α) : Attempt Connection α :=
  match strikes st with
  | some e => .fail e
  | none => t

/-- Changes the tables as they are seen. -/
def write (f : Table → Except Failure Table) : Attempt Connection Unit :=
  .update fun c => do return { c with seen := ← f c.seen }

def commit : Attempt Connection Unit := .change fun c => { c with stored := c.seen }

def rollback (c : Connection) : Connection := { c with seen := c.stored }

/-- The session with a uid, which must be there. -/
def sessionNamed (uid : String) : Attempt Connection Session := do
  match ← .look (·.seen.session? uid) with
  | some s => return s
  | none => .fail (.noSession uid)

/-- The changes of the transaction: a summary is stored in the session with a uid, and its messages numbered below
`keepFrom` are dropped. -/
def fold (strikes : Strikes) (uid summary : String) (keepFrom now : Int) : Attempt Connection Unit := do
  statement strikes .connect (.done ())
  let s ← statement strikes .find (sessionNamed uid)
  statement strikes .setSummary (write (·.setSummary s.id summary now))
  statement strikes .dropMessages (write (·.dropMessages s.id keepFrom))

/-- Commits changes, or rolls back what was done of them. -/
def transact (strikes : Strikes) (changes : Attempt Connection Unit) : Attempt Connection Unit := fun c =>
  match (do
    changes
    statement strikes .commit commit : Attempt Connection Unit) c with
  | (.ok (), c) => (.ok (), c)
  | (.error e, c) => (.error e, c.rollback)

end Connection
end Chat
end NoteAgent
