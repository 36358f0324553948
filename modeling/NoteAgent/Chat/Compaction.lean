import NoteAgent.Text.Cut
import NoteAgent.World.Chats
/-!
# Compaction — folding old messages into the summary of a session

When the messages of a session together are longer than a threshold, all but the most recent are summarised by the model.
The new text is added to the summary, and the messages it stands for are deleted, in one step of the store.  The
summary that is added to is the one of the session as it was given, and the messages are told apart by number.
-/
namespace NoteAgent
namespace Chat
namespace Compaction

/-- What a request for a summary begins with. -/
def instruction : String := "Summarise this conversation concisely, preserving key facts and decisions:\n\n"

def size (contents : List String) : Nat := contents.foldl (fun n s => n + s.length) 0

def line (role content : String) : String := role ++ ": " ++ content ++ "\n"

/-- The request for a summary of messages, given as roles and contents. -/
def prompt (old : List (String × String)) : String := instruction ++ String.join (old.map fun m => line m.1 m.2)

/-- The request for a summary of stored messages. -/
def promptFor (old : List Message) : String := prompt (old.map fun m => (m.role, m.content))

def extend (existing new : String) : String := if existing.isEmpty then new else Text.joinByBlankLine existing new

/-- When to compact and what to keep. -/
structure Policy where
  threshold : Int := 400000
  keepRecent : Int := 10
  deriving DecidableEq, Repr

/-- The number of messages to fold away, if any are. -/
def oldCount? (policy : Policy) (messages : List Message) : Option Nat :=
  if (size (messages.map (·.content)) : Int) ≤ policy.threshold then none
  else if (messages.length : Int) - policy.keepRecent ≤ 0 then none
  else some ((messages.length : Int) - policy.keepRecent).toNat

/-- The number from which messages are kept: that of the first recent one, or the next after the last old one. -/
def firstKept (old recent : List Message) : Except Failure Int :=
  match recent, old.getLast? with
  | m :: _, _ => .ok m.id
  | [], some m => .ok (m.id + 1)
  | [], none => .error .noSuchItem

def summarise (old : List Message) : Attempt World String := do
  match ← (World.asking (Model.Client.complete .summary (promptFor old))).settle with
  | .error e => .fail (.summaryFailed e.message)
  | .ok text => if (Text.strip text).isEmpty then .fail .summaryBlank else return text

/-- Stores the summary with the new text in it and drops the messages that the text stands for.  The answer is the
messages that stay and the session as it is then, which a silent store does not give. -/
def storeUnder (strikes : Strikes) (s : Session) (old recent : List Message) (text : String) :
    Attempt World (List Message × Option Session) := do
  let bound ← .ofExcept (firstKept old recent)
  match ← (World.foldHistoryUnder strikes s.uid (extend s.summary text) bound).settle with
  | .error e => .fail (.summaryNotStored e.message)
  | .ok updated => return (recent, updated)

/-- Compacts the messages of a session.  The answer is the messages that stay and the session as it is then. -/
def foldUnder (strikes : Strikes) (policy : Policy) (s : Session) (messages : List Message) :
    Attempt World (List Message × Option Session) := do
  match oldCount? policy messages with
  | none => return (messages, some s)
  | some n =>
    let text ← summarise (messages.take n)
    storeUnder strikes s (messages.take n) (messages.drop n) text

def store : Session → (old recent : List Message) → (text : String) → Attempt World (List Message × Option Session) :=
  storeUnder unstruck

def fold : Policy → Session → List Message → Attempt World (List Message × Option Session) := foldUnder unstruck

/-- Whether a failure is one of compaction, which a chat turn carries on after. -/
def isFailure : Failure → Bool
  | .summaryFailed _ | .summaryBlank | .summaryNotStored _ => true
  | _ => false

end Compaction
end Chat
end NoteAgent
