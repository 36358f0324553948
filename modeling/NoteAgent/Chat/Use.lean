import NoteAgent.World.Chats
/-!
# Use — uses of the chat store

A use calls one method of the store, with whatever arguments, or lets a while go by.  All sessions and messages that uses
make go on a roll, in the order they were made.
-/
namespace NoteAgent
namespace Chat

/-- Sessions and messages in the order they were made. -/
structure Roll where
  sessions : List Session
  messages : List Message
  deriving DecidableEq, Repr

namespace Roll

def empty : Roll := ⟨[], []⟩

def add (roll new : Roll) : Roll := ⟨roll.sessions ++ new.sessions, roll.messages ++ new.messages⟩

/-- What a use has made; one that breaks off has made nothing. -/
def made : Except Failure Roll → Roll
  | .ok new => new
  | .error _ => .empty

end Roll

/-- A use of the chat store, or a while in which the clock and the ids go on. -/
inductive Use
  | addSession (owner : Int) (title : String)
  | findSession (uid : String)
  | listSessions (owner : Int)
  | reviseSession (uid : String) (title summary : Option String)
  | removeSession (uid : String)
  | addMessage (session : Int) (role content toolName : String)
  | listMessages (session : Int)
  | foldHistory (strikes : Strikes) (uid summary : String) (keepFrom : Int)
  | elapse (clock : Int) (nextId : Nat)

namespace Use

/-- A use of the store, which answers what it has made. -/
def perform : Use → Attempt World Roll
  | addSession owner title => (fun s => ⟨s.toList, []⟩) <$> World.addSession owner title
  | findSession uid => (fun _ => .empty) <$> World.findSession uid
  | listSessions owner => (fun _ => .empty) <$> World.sessionsOf owner
  | reviseSession uid title summary => (fun _ => .empty) <$> World.reviseSession uid title summary
  | removeSession uid => (fun _ => .empty) <$> World.removeSession uid
  | addMessage session role content toolName =>
    (fun m => ⟨[], m.toList⟩) <$> World.addMessage session role content toolName
  | listMessages session => (fun _ => .empty) <$> World.messagesOf session
  | foldHistory strikes uid summary keepFrom =>
    (fun _ => .empty) <$> World.foldHistoryUnder strikes uid summary keepFrom
  | elapse clock nextId => (fun _ => .empty) <$> Attempt.change fun w => { w with clock := clock, nextId := nextId }

/-- The world and the roll after a use. -/
def follow (state : World × Roll) (u : Use) : World × Roll :=
  ((u.perform state.1).2, state.2.add (Roll.made (u.perform state.1).1))

end Use

/-- The world and the roll after uses, from a world on. -/
def afterUses (w : World) (uses : List Use) : World × Roll := uses.foldl Use.follow (w, .empty)

end Chat
end NoteAgent
