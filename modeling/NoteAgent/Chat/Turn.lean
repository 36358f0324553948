import NoteAgent.Agent.Loop
import NoteAgent.Chat.Compaction
import NoteAgent.Chat.Title
/-!
# Turn — one turn of a chat

The history is read and compacted, the user's message is stored, the agent runs and its answer is stored, the documents
nearest to the message are named as sources, and the session is touched.  Where a failure does no harm to the rest it is
passed over; any other becomes an error event.  The last event says that the turn is over.  The first message of a
session that still has the default title leaves a job behind: to find a title.
-/
namespace NoteAgent
namespace Chat

open Tool (Caller)

/-- How turns are run. -/
structure Turn.Settings where
  policy : Compaction.Policy := {}
  maxRounds : Int := 6
  keepsResults : Bool := false

/-- A job left behind by a turn: naming a session after a message. -/
structure Job where
  session : String
  message : LooseText
  deriving DecidableEq, Repr

namespace Turn

def sourceCount : Int := 3

/-- The beginning of content that the vector service gave, which should be a text. -/
def snippet (content : Json) : Except Failure Json :=
  match content with
  | .text s => .ok (.text (Text.cut Event.snippetLength s))
  | .list vs => .ok (.list (vs.take Event.snippetLength))
  | .record _ => .error (.notKey itemRange)
  | v => .error (.noItems v.kind.name)

def sourceOf (h : Vector.Hit) : Except Failure Event := do return .source h.id (← snippet h.content)

/-- The sources for a message.  A search that breaks off finds none. -/
def sources (who : Caller) (text : LooseText) : Attempt World (List Event) := do
  if !who.indexed then return []
  match ← (World.indexed (Vector.Index.search who.user (Json.nearestText text) sourceCount none)).settle with
  | .error _ => return []
  | .ok hits => .ofExcept (hits.mapM sourceOf)

/-- The name of a tool as the store keeps it: a truth value as its number. -/
def storedName : Json → String
  | .bool b => if b then "1" else ""
  | v => Json.shown v

def keepResults (session : Int) (rs : List Agent.Result) : Attempt World Unit :=
  .each (fun r => (World.addMessage session toolRole r.text (storedName r.name)).ignore) rs

/-- What the events and the job of a turn are, so far. -/
structure Account where
  events : List Event
  job : Option Job

def Account.add (a : Account) (es : List Event) : Account := { a with events := a.events ++ es }

/-- The history and the session that the turn goes on with: compacted, or as they are if that failed. -/
def compacted (policy : Compaction.Policy) (s : Session) (history : List Message) :
    Attempt World (List Message × Option Session) := do
  match ← (Compaction.fold policy s history).settle with
  | .ok r => return r
  | .error e => if Compaction.isFailure e then return (history, some s) else .fail e

/-- Whether a turn leaves the job of naming the session behind. -/
def job? (s : Session) (history : List Message) (text : LooseText) : Option Job :=
  if history.isEmpty && s.title == defaultTitle then some ⟨s.uid, text⟩ else none

/-- The part of the turn after the agent: storing what came of it, naming sources, touching the session. -/
def conclude (settings : Settings) (who : Caller) (s : Session) (text : LooseText) (o : Agent.Outcome) :
    Attempt World (List Event) := do
  if settings.keepsResults then keepResults s.id o.results
  if !o.text.isEmpty then (World.addMessage s.id assistantRole o.text "").ignore
  let found ← sources who text
  (World.reviseSession s.uid none none).ignore
  return found

/-- The part of the turn after the compaction, on the messages that it kept: the user's message is stored and answered. -/
def goOn (settings : Settings) (who : Caller) (s : Session) (history kept : List Message) (text : LooseText) :
    Attempt World (Account × Option Failure) := do
  (World.addLoose s.id userRole text "").ignore
  let account : Account := ⟨[], job? s history text⟩
  match ← World.now.settle with
  | .error e => return (account, some e)
  | .ok now =>
    let o ← Agent.run who settings.maxRounds (Agent.opening s.summary (Agent.spoken kept) text now)
    let account := account.add o.events
    match o.failed with
    | some e => return (account, some e)
    | none =>
      match ← (conclude settings who s text o).settle with
      | .error e => return (account, some e)
      | .ok es => return (account.add es, none)

/-- The turn, up to a failure if one breaks it off.  The account says what went out before that. -/
def attempt (settings : Settings) (who : Caller) (given : Session) (text : LooseText) :
    Attempt World (Account × Option Failure) := do
  match ← (do World.needList (← World.messagesOf given.id)).settle with
  | .error e => return (⟨[], none⟩, some e)
  | .ok history =>
    match ← (compacted settings.policy given history).settle with
    | .error e => return (⟨[], none⟩, some e)
    | .ok (_, none) => return (⟨[], none⟩, some (.noMember Json.Kind.null.name "summary"))
    | .ok (kept, some s) => goOn settings who s history kept text

/-- The events of a turn, and the job it leaves behind. -/
def stream (settings : Settings) (who : Caller) (s : Session) (text : LooseText) : Attempt World Account := do
  let (account, failure) ← attempt settings who s text
  return account.add ((failure.map fun e => Event.error e.message).toList ++ [.done s.uid])

/-- The events of a turn, after which its job is done. -/
def run (settings : Settings) (who : Caller) (s : Session) (text : LooseText) : Attempt World (List Event) := do
  let account ← stream settings who s text
  match account.job with
  | none => return account.events
  | some job =>
    let _ ← Title.find job.session job.message
    return account.events

end Turn
end Chat
end NoteAgent
