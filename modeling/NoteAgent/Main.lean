import NoteAgent.Seed.Run
import NoteAgent.Vector.Letters
/-!
# Main — the command that seeds a store

The command works on a store of its own, with texts embedded by their letters.
-/

/-- Prints what the command line asks for, and ends with its code. -/
def main (words : List String) : IO UInt32 := do
  let index := NoteAgent.Vector.Index.fresh .empty NoteAgent.Vector.Letters.embedder NoteAgent.Vector.Letters.dimension
  let model := NoteAgent.Model.Client.fresh (.always "") (.always "") (.always "")
  match (NoteAgent.Seed.command words (.fresh 0 index model)).1 with
  | .ok report =>
    IO.print report.out
    report.errors.forM IO.eprintln
    return (report.exit.getD 0).toUInt32
  | .error failure =>
    IO.eprintln failure.message
    return 1
