import NoteAgent.Note.Indexing
import NoteAgent.Seed.Options
/-!
# Run — seeding a store with notes to try the agent on

Five notes, each created at noon of its day, and unless told otherwise all notes of the user are then written to an
index that is opened anew.
-/
namespace NoteAgent
namespace Seed

/-- A note to seed: the day it is created, and its content. -/
structure Demo where
  date : Calendar.Date
  content : String
  deriving DecidableEq, Repr

def demos : List Demo :=
  [⟨⟨2024, 1, 24⟩, "Standup: migrate the billing cron to the new scheduler. #work"⟩,
    ⟨⟨2024, 1, 26⟩, "Dentist appointment at 3pm, bring the insurance card. #personal"⟩,
    ⟨⟨2024, 1, 26⟩, "Idea: a weekly digest email summarising tagged notes. #ideas #work"⟩,
    ⟨⟨2024, 2, 2⟩, "Reading list: Designing Data-Intensive Applications, chapter 5. #reading"⟩,
    ⟨⟨2024, 2, 10⟩, "Groceries: oat milk, coffee beans, spinach."⟩]

def noon (date : Calendar.Date) : Int := date.toDay * Calendar.daySeconds + 12 * 3600

def addDemo (user : Int) (d : Demo) : Attempt World String := do
  let note ← World.need "uid" (← World.addNote user d.content (some (noon d.date)) Note.normal)
  return "  added: " ++ note.uid ++ " (" ++ d.date.print ++ ")\n"

def addDemos (user : Int) : List Demo → Attempt World String
  | [] => .done ""
  | d :: ds => do return (← addDemo user d) ++ (← addDemos user ds)

/-- Opens the index anew: it knows no collection. -/
def reopen : Attempt World Unit :=
  .change fun w => { w with index := { w.index with known := [], lock := .free } }

/-- Seeds the store and tells what was done.  Without a user the first note cannot be stored. -/
def run (o : Options) : Attempt World String := do
  let user ← .ofExcept (match o.user with
    | some user => .ok user
    | none => .error (.kindNotStored 2 .list))
  let added ← addDemos user demos
  let told := added ++ "Done. Seeded " ++ toString demos.length ++ " notes for user " ++ toString user ++ ".\n"
  if o.indexes then
    reopen
    let n ← Note.Indexing.run user
    return told ++ "Indexed " ++ toString n ++ " notes.\n"
  else return told

/-- What a command prints, line by line to either side, and the code it ends with at once, if it does not seed. -/
structure Report where
  out : String
  errors : List String
  exit : Option Nat
  deriving DecidableEq, Repr

def command (words : List String) : Attempt World Report := do
  match read words with
  | .help => return ⟨helpText, [], some 0⟩
  | .wrong e => return ⟨"", errorLines e, some errorCode⟩
  | .seed o => return ⟨← run o, [], none⟩

end Seed
end NoteAgent
