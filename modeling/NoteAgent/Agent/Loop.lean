import NoteAgent.Agent.Prompt
import NoteAgent.Chat.Event
import NoteAgent.Tool.Registry
/-!
# Loop — turns of the model and calls of the tools

A turn without calls is the answer.  A turn with calls is added to the conversation, its calls are run, each id once, and
what they came to is added too; then the model is asked again, unless the rounds are used up, and there is no answer.  A
failure of the model's service ends the loop with an error event and keeps what was done; any other failure of the model
breaks the loop off, and so does a call whose id or name cannot be told apart from others.

The loop has a bound of its own besides the rounds: a number of steps, a turn being one and the calls of a turn another,
and one more step to notice the end.
-/
namespace NoteAgent
namespace Agent

open Model (Entry Turn ToolCall)
open Tool (Caller Registry)

/-- What a call came to. -/
structure Result where
  call : Json
  name : Json
  text : String

/-- What happens in a run, in the order it happens. -/
inductive Happening
  /-- The event of a call goes out. -/
  | announced (call : ToolCall)
  /-- The call starts to run. -/
  | launched (call : ToolCall)
  /-- The call has been run. -/
  | answered (result : Result)

def Happening.result? : Happening → Option Result
  | .answered r => some r
  | _ => none

def Happening.event? : Happening → Option Chat.Event
  | .announced c => some (.toolCall c.name c.arguments)
  | _ => none

/-- How far a run is: the conversation, the rounds that are over, and all that happened. -/
structure Progress where
  entries : List Entry
  rounds : Nat
  past : List Happening

namespace Progress

def start (entries : List Entry) : Progress := ⟨entries, 0, []⟩

def results (p : Progress) : List Result := p.past.filterMap Happening.result?

def events (p : Progress) : List Chat.Event := p.past.filterMap Happening.event?

def asked (p : Progress) (turn : Turn) : Progress :=
  { p with entries := p.entries ++ [.calls turn], rounds := p.rounds + 1 }

def announce (p : Progress) (c : ToolCall) : Progress := { p with past := p.past ++ [.announced c] }

def launch (p : Progress) (c : ToolCall) : Progress := { p with past := p.past ++ [.launched c] }

def answer (p : Progress) (c : ToolCall) (text : String) : Progress :=
  { p with entries := p.entries ++ [.result c.id text], past := p.past ++ [.answered ⟨c.id, c.name, text⟩] }

end Progress

/-- Runs the calls of a turn in order, up to the first that breaks the loop off; a call whose id was seen in the turn is
passed over. -/
def runCalls (r : Registry) : List Json → List ToolCall → Progress → Attempt World (Progress × Option Failure)
  | _, [], p => .done (p, none)
  | seen, c :: cs, p =>
    if !Json.isKey c.id then .done (p, some (.notKey (Model.ownerName c.id)))
    else if seen.any (Json.sameKey c.id) then runCalls r seen cs p
    else if !Json.isKey c.name then .done (p, some (.notKey (Model.ownerName c.name)))
    else do
      let p := (p.announce c).launch c
      let text ← r.dispatch c.name c.arguments
      runCalls r (c.id :: seen) cs (p.answer c text)

/-- How the loop ended. -/
inductive Ending
  /-- A turn without calls: its content is the answer. -/
  | answered (content : Json)
  /-- The rounds were used up. -/
  | capped
  /-- The model's service failed. -/
  | unserved (failure : Failure)
  /-- The loop broke off. -/
  | broken (failure : Failure)

def request (r : Registry) (p : Progress) : Model.Request := ⟨p.entries, r.names⟩

/-- A turn of the model and its calls, and how the loop ends with them, should it.  A turn at the last step is not heeded. -/
def round (r : Registry) (limit : Int) (lastStep : Bool) (p : Progress) :
    Attempt World (Progress × Option Ending) := do
  match ← (World.asking (Model.Client.turn (request r p))).settle with
  | .error e => return (p, some (if Model.isServiceFailure e then .unserved e else .broken e))
  | .ok turn =>
    if lastStep then return (p, some (.broken (.tooManySteps limit)))
    else if turn.calls.isEmpty then return ({ p with rounds := p.rounds + 1 }, some (.answered turn.content))
    else
      let (p, failure) ← runCalls r [] turn.calls (p.asked turn)
      return (p, failure.map .broken)

/-- Runs the loop for at most so many steps, and at least one round. -/
def rounds (r : Registry) (maxRounds limit : Int) :
    Nat → Progress → Attempt World (Progress × Ending)
  | 0, p => .done (p, .broken (.tooManySteps limit))
  | 1, p => do
    let (p, ending) ← round r limit true p
    return (p, ending.getD (.broken (.tooManySteps limit)))
  | steps + 2, p => do
    let (p, ending) ← round r limit false p
    match ending with
    | some ending => return (p, ending)
    | none =>
      if steps = 0 then return (p, .broken (.tooManySteps limit))
      else if p.rounds < maxRounds then rounds r maxRounds limit steps p
      else return (p, .capped)

/-- What a run comes to.  The answer should be a text. -/
structure Outcome where
  events : List Chat.Event
  answer : Json
  rounds : Nat
  results : List Result
  failed : Option Failure

/-- The pieces of an answer: its words, each with a space after it. -/
def tokens (answer : String) : List Chat.Event := (Text.words answer).map fun w => .token (w ++ " ")

def noAnswer : Json := .text ""

/-- What a run comes to that ended in some way.  An answer that is no text cannot be cut into words. -/
def outcome (p : Progress) : Ending → Outcome
  | .answered (.text s) => ⟨p.events ++ tokens s, .text s, p.rounds, p.results, none⟩
  | .answered v => ⟨p.events, v, p.rounds, p.results, some (.noMember (Model.ownerName v) "split")⟩
  | .capped => ⟨p.events, noAnswer, p.rounds, p.results, none⟩
  | .unserved e => ⟨p.events ++ [.error e.message], noAnswer, p.rounds, p.results, none⟩
  | .broken e => ⟨p.events, noAnswer, 0, p.results, some e⟩

/-- The answer as a text; one that is none is empty. -/
def Outcome.text (o : Outcome) : String :=
  match o.answer with
  | .text s => s
  | _ => ""

/-- The steps that a number of rounds may take: two a round, and some to spare. -/
def stepLimit (maxRounds : Int) : Int := 2 * maxRounds + 5

/-- Runs the loop from the beginning of a conversation. -/
def loop (r : Registry) (maxRounds : Int) (entries : List Entry) : Attempt World (Progress × Ending) :=
  if stepLimit maxRounds < 1 then .done (.start entries, .broken .noSteps)
  else rounds r maxRounds (stepLimit maxRounds) (stepLimit maxRounds).toNat (.start entries)

/-- Runs the loop with tools of any kind. -/
def runWith (r : Registry) (maxRounds : Int) (entries : List Entry) : Attempt World Outcome := do
  let (p, ending) ← loop r maxRounds entries
  return outcome p ending

/-- Runs the loop with the nine tools, for a user. -/
def run (who : Caller) (maxRounds : Int) (entries : List Entry) : Attempt World Outcome :=
  runWith (Tool.registry who) maxRounds entries

end Agent
end NoteAgent
