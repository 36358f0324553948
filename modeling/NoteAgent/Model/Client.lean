import NoteAgent.Attempt
import NoteAgent.Model.Reply
import NoteAgent.Json.Value
/-!
# Client — asking a language model

A request is the entries of a conversation and the tools the model may call.  The model is asked for turns of the agent,
for summaries and for titles.  Its replies to each of the three come from a supply of their own, and what was asked is
kept.
-/
namespace NoteAgent
namespace Model

/-- An entry of the conversation that a model is shown. -/
inductive Entry
  | system (text : String)
  | user (text : LooseText)
  | assistant (text : String)
  /-- A turn that asked for calls. -/
  | calls (turn : Turn)
  /-- What a call came to. -/
  | result (call : Json) (text : String)

/-- What the model is asked for. -/
inductive Purpose
  | turn
  | summary
  | title
  deriving DecidableEq, Repr

/-- The replies to come: those that are waiting, and the `n`-th one once these are used up. -/
structure Supply where
  waiting : List Reply
  beyond : Nat → Reply
  used : Nat

/-- The next reply, and the supply without it. -/
def Supply.next (s : Supply) : Reply × Supply :=
  match s.waiting with
  | r :: rs => (r, { s with waiting := rs })
  | [] => (s.beyond s.used, { s with used := s.used + 1 })

def Supply.add (s : Supply) (rs : List Reply) : Supply := { s with waiting := s.waiting ++ rs }

def Supply.always (text : String) : Supply := ⟨[], fun _ => .text text, 0⟩

/-- A request for a turn: the conversation, and the names of the tools. -/
structure Request where
  entries : List Entry
  tools : List String

/-- The client: the replies to come, the requests for turns so far, and the prompts of single completions so far. -/
structure Client where
  supply : Purpose → Supply
  requests : List Request
  prompts : List String

namespace Client

def fresh (turns summaries titles : Supply) : Client :=
  ⟨fun | .turn => turns | .summary => summaries | .title => titles, [], []⟩

/-- The client with the supply for one purpose changed. -/
def setSupply (c : Client) (p : Purpose) (s : Supply) : Client :=
  { c with supply := fun q => if q = p then s else c.supply q }

def reply (p : Purpose) : Attempt Client Reply := fun c => (.ok (c.supply p).next.1, c.setSupply p (c.supply p).next.2)

def turn (request : Request) : Attempt Client Turn := do
  .change fun c => { c with requests := c.requests ++ [request] }
  .ofExcept (← reply .turn).turn

def complete (p : Purpose) (prompt : String) : Attempt Client String := do
  .change fun c => { c with prompts := c.prompts ++ [prompt] }
  .ofExcept (← reply p).stripped

end Client
end Model
end NoteAgent
