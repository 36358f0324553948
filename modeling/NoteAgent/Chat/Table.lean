import NoteAgent.Note.Table
/-!
# Table — chat sessions and their messages

Two tables whose rows are numbered from one without reuse.  A message belongs to a session that is there and goes when
the session goes.  A statement that breaks off changes neither table.
-/
namespace NoteAgent
namespace Chat

/-- A conversation. -/
structure Session where
  id : Int
  uid : String
  owner : Int
  title : String
  summary : String
  created : Int
  updated : Int
  deriving DecidableEq, Repr

/-- One entry of a conversation. -/
structure Message where
  id : Int
  session : Int
  role : String
  content : String
  toolName : String
  tokens : Nat
  created : Int
  deriving DecidableEq, Repr

def userRole : String := "user"
def assistantRole : String := "assistant"
def toolRole : String := "tool"

def isRole (role : String) : Bool := role == userRole || role == assistantRole || role == toolRole

/-- The title of a session that has not been given one. -/
def defaultTitle : String := "New Chat"

/-- The characters that are reckoned as one token. -/
def charsPerToken : Nat := 4

/-- Sessions and messages in the order they were added, and the largest number each table has given. -/
structure Table where
  sessions : List Session
  messages : List Message
  lastSession : Int
  lastMessage : Int
  deriving DecidableEq, Repr

namespace Table

def empty : Table := ⟨[], [], 0, 0⟩

/-! ## Sessions -/

/-- Adds a session under a uid that is not in use. -/
def addSession (t : Table) (uid : String) (owner : Int) (title : String) (now : Int) :
    Except Failure (Session × Table) := do
  checkColumns [owner, now]
  if t.sessions.any (·.uid == uid) then .error (.taken "ai_chat_session.uid")
  else
    let s : Session := ⟨t.lastSession + 1, uid, owner, if title.isEmpty then defaultTitle else title, "", now, now⟩
    .ok (s, { t with sessions := t.sessions ++ [s], lastSession := s.id })

def session? (t : Table) (uid : String) : Option Session := t.sessions.find? (·.uid == uid)

/-- Last changed first, and of equal times the larger number first. -/
def laterOrEqual (a b : Session) : Bool := b.updated < a.updated || (a.updated == b.updated && b.id ≤ a.id)

/-- The sessions of an owner, last changed first. -/
def sessionsOf (t : Table) (owner : Int) : Except Failure (List Session) := do
  checkColumns [owner]
  .ok ((t.sessions.filter (·.owner == owner)).mergeSort laterOrEqual)

/-- A session with a new title, a new summary, or neither, and a new time of change. -/
def Session.revised (title summary : Option String) (now : Int) (s : Session) : Session :=
  { s with title := title.getD s.title, summary := summary.getD s.summary, updated := now }

/-- The session with a uid, should there be one, revised. -/
def revise (t : Table) (uid : String) (title summary : Option String) (now : Int) : Except Failure Table := do
  checkColumns [now]
  .ok { t with sessions := t.sessions.map fun s =>
    if s.uid == uid then Session.revised title summary now s else s }

/-- The tables without the session with a uid and without its messages. -/
def eraseSession (t : Table) (uid : String) : Table :=
  let gone := t.sessions.filter (·.uid == uid)
  { t with
    sessions := t.sessions.filter (·.uid != uid)
    messages := t.messages.filter fun m => !gone.any (·.id == m.session) }

/-! ## Messages -/

/-- Adds a message to a session.  A tool's message names the tool, and no other does. -/
def addMessage (t : Table) (session : Int) (role content toolName : String) (now : Int) :
    Except Failure (Message × Table) := do
  if !isRole role then .error (.unknownRole role)
  else if (role == toolRole) != !toolName.isEmpty then .error .toolNameMismatch
  else
    checkColumns [session, now]
    if t.sessions.any (·.id == session) then
      let m : Message := ⟨t.lastMessage + 1, session, role, content, toolName, content.length / charsPerToken, now⟩
      .ok (m, { t with messages := t.messages ++ [m], lastMessage := m.id })
    else .error .dangling

/-- The messages that a session has now, oldest first. -/
def live (t : Table) (session : Int) : List Message := t.messages.filter (·.session == session)

/-- The messages of a session, oldest first. -/
def messagesOf (t : Table) (session : Int) : Except Failure (List Message) := do
  checkColumns [session]
  .ok (t.live session)

/-- Stores a summary in a session. -/
def setSummary (t : Table) (session : Int) (summary : String) (now : Int) : Except Failure Table := do
  checkColumns [now]
  .ok { t with sessions := t.sessions.map fun x =>
    if x.id == session then { x with summary := summary, updated := now } else x }

/-- Drops the messages of a session that are numbered below `keepFrom`. -/
def dropMessages (t : Table) (session keepFrom : Int) : Except Failure Table := do
  checkColumns [keepFrom]
  .ok { t with messages := t.messages.filter fun m => !(m.session == session && m.id < keepFrom) }

end Table
end Chat
end NoteAgent
