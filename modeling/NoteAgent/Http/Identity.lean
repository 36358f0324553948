import NoteAgent.Failure
import NoteAgent.Json.Value
import NoteAgent.Numeral.Whole
/-!
# Identity — who is asking, and what must not be blank

The caller is named by a header that holds a whole number above zero.
-/
namespace NoteAgent
namespace Http

/-- The user that a header names, if it names one. -/
def userOf? (header : Option String) : Option Int :=
  match header.map Numeral.readWhole with
  | some (.ok n) => if 0 < n then some n else none
  | _ => none

/-- A header as it arrives: one that holds more than plain characters names nobody. -/
def plainHeader (header : Option String) : Option String := header.filter fun s => s.toList.all fun c => c.toNat < 128

def caller (header : Option String) : Except Failure Int :=
  match userOf? header with
  | some user => .ok user
  | none => .error (.http 401 "unauthorized")

/-- A text without the blanks around it, which must not be empty. -/
def nonBlankLoose (value : LooseText) (field : String) : Except Failure LooseText :=
  let text := Json.strip value
  if text.isEmpty then .error (.http 400 (field ++ " required")) else .ok text

def nonBlank (value : String) (field : String) : Except Failure String :=
  (nonBlankLoose value field).map Json.nearestText

end Http
end NoteAgent
