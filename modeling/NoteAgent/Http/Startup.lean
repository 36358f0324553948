import NoteAgent.Http.Perform
/-!
# Startup — the service as it starts and answers

When the service starts, the stores that have not been set are opened at their paths; stores that are there stay.  Then
every request is checked in a fixed order: the route, the body as JSON, the caller, the services the route needs, the fields
of the body, and then what the route does.  A failure that has no answer of its own is answered by status 500.
-/
namespace NoteAgent
namespace Http

/-! ## Starting -/

namespace Startup

/-- What starting did: whether each store was kept, the path of a chat store that was opened, and the files made. -/
structure Account where
  keptChats : Bool
  keptNotes : Bool
  opened : Option String
  files : List String
  deriving DecidableEq, Repr

def start (s : Services) (chatPath notesPath : String) : Account × Services :=
  if s.stores then (⟨true, true, none, []⟩, s)
  else (⟨false, false, some chatPath, [chatPath, notesPath]⟩, { s with stores := true })

end Startup

/-! ## Answering -/

/-- A request. -/
structure Request where
  method : String
  path : String
  user : Option String
  body : Option String

def failed : Failure → Response
  | .http status text => detail status (.text text)
  | .foreignSession _ => detail 404 (.text "session not found")
  | .unavailable message => detail 503 (.text message)
  | _ => broken

def answer (services : Services) (settings : Chat.Turn.Settings) (route : Route) (r : Request) :
    Attempt World Response := do
  match if route.readsBody then readBody r.body else .ok none with
  | .error response => return response
  | .ok body =>
    let user ← .ofExcept (if route.isOpen then .ok 0 else caller (plainHeader r.user))
    .ofExcept (services.ready route)
    match route.take body with
    | .error problems => return rejected problems
    | .ok given => perform services settings user given route

def serve (services : Services) (settings : Chat.Turn.Settings) (r : Request) : Attempt World Response := do
  match resolve r.method (decodePath r.path) with
  | .unknown => return detail 404 (.text "Not Found")
  | .otherMethod => return detail 405 (.text "Method Not Allowed")
  | .otherSlash => return ⟨307, .nothing⟩
  | .found route =>
    match ← (answer services settings route r).settle with
    | .ok response => return response
    | .error e => return failed e

end Http
end NoteAgent
