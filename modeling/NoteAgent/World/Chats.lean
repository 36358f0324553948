import NoteAgent.Chat.Transaction
import NoteAgent.World
/-!
# Chats — the chat store at work

Each method is an operation on the sessions and messages at the time of the clock, unless a fault strikes it.  A method
that changes a session reads it back with another method, which a fault may strike in turn.
-/
namespace NoteAgent
namespace World

open Chat (Connection Message Session Strikes)

/-- A method of the chat store, unless a fault strikes it. -/
def chatMethod {α : Type} (m : Chat.Method) (t : Attempt World α) : Attempt World (Option α) := fun w =>
  let w' := { w with chatFaults := { w.chatFaults with uses := w.chatFaults.uses + 1 } }
  match w.chatFaults.strikes w.chatFaults.uses m with
  | some (.breaks text) => (.error (.broken text), w')
  | some .silent => (.ok none, w')
  | none => (some <$> t) w'

def onChats {α : Type} (f : Chat.Table → Except Failure (α × Chat.Table)) : Attempt World α := fun w =>
  match f w.chats with
  | .ok (a, t) => (.ok a, { w with chats := t })
  | .error e => (.error e, w)

/-- Does an attempt on a connection of its own.  The store has what was committed. -/
def connected {α : Type} (t : Attempt Connection α) : Attempt World α :=
  t.on (fun w => ⟨w.chats, w.chats⟩) fun w c => { w with chats := c.stored }

def sessionUidLength : Nat := 8

def addSession (owner : Int) (title : String) : Attempt World (Option Session) :=
  chatMethod .addSession do
    let uid := idText sessionUidLength (← takeId)
    let now ← .look (·.clock)
    onChats (·.addSession uid owner title now)

def findSession (uid : String) : Attempt World (Option Session) := do
  return (← chatMethod .findSession (.look (·.chats.session? uid))).join

def sessionsOf (owner : Int) : Attempt World (Option (List Session)) :=
  chatMethod .listSessions do .ofExcept ((← .look (·.chats)).sessionsOf owner)

/-- Gives a session a new title, a new summary, or neither, and in any case a new time of change; then reads it. -/
def reviseSession (uid : String) (title summary : Option String) : Attempt World (Option Session) := do
  let read ← chatMethod .reviseSession do
    let now ← .look (·.clock)
    onChats fun t => do return ((), ← t.revise uid title summary now)
    findSession uid
  return read.join

/-- Deletes a session with its messages, should it be there. -/
def removeSession (uid : String) : Attempt World (Option Unit) :=
  chatMethod .removeSession (onChats fun t => .ok ((), t.eraseSession uid))

def addMessage (session : Int) (role content toolName : String) : Attempt World (Option Message) :=
  chatMethod .addMessage do
    let now ← .look (·.clock)
    onChats (·.addMessage session role content toolName now)

/-- Stores a message whose content may be no text of characters; such a one the store cannot take. -/
def addLoose (session : Int) (role : String) (content : LooseText) (toolName : String) : Attempt World (Option Message) :=
  match Json.text? content with
  | some content => addMessage session role content toolName
  | none => chatMethod .addMessage (.fail .notUnicode)

def messagesOf (session : Int) : Attempt World (Option (List Message)) :=
  chatMethod .listMessages do .ofExcept ((← .look (·.chats)).messagesOf session)

/-- Stores a summary in a session and drops its messages numbered below `keepFrom`, in one transaction; then reads the
session. -/
def foldHistoryUnder (strikes : Strikes) (uid summary : String) (keepFrom : Int) : Attempt World (Option Session) :=
  chatMethod .fold do
    let now ← .look (·.clock)
    connected (Connection.transact strikes (Connection.fold strikes uid summary keepFrom now))
    match ← findSession uid with
    | some s => return s
    | none => .fail (.noSession uid)

def foldHistory : (uid summary : String) → (keepFrom : Int) → Attempt World (Option Session) :=
  foldHistoryUnder Chat.unstruck

end World
end NoteAgent
