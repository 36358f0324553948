import NoteAgent.Chat.Turn
import NoteAgent.Http.Encoding
import NoteAgent.Http.Identity
import NoteAgent.Http.Route
import NoteAgent.Http.Schema
/-!
# Perform — what each route does

A route takes texts or arguments from the body, and needs services.  What it does for a caller comes to an answer, or
breaks off with a failure.  A session of somebody else is not told from one that is not there.
-/
namespace NoteAgent
namespace Http

open Chat (Session Message)

/-- What an answer holds. -/
inductive Content
  | nothing
  | json (v : Json)
  | text (s : String)
  | stream (events : List Chat.Event)

/-- An answer. -/
structure Response where
  status : Nat
  content : Content

/-- The services that are there. -/
structure Services where
  stores : Bool := true
  index : Bool := true
  model : Bool := true
  deriving DecidableEq, Repr

def Content.type : Content → String
  | .nothing => ""
  | .json _ => "application/json"
  | .text _ => "text/plain; charset=utf-8"
  | .stream _ => "text/event-stream; charset=utf-8"

/-- The headers of a stream beside its media type. -/
def streamHeaders : List (String × String) :=
  [("cache-control", "no-cache"), ("connection", "keep-alive"), ("x-accel-buffering", "no")]

def streamText (events : List Chat.Event) : String := String.join (Chat.Event.frames events)

def detail (status : Nat) (v : Json) : Response := ⟨status, .json (.record [("detail", v)])⟩

/-- Where something is wrong in a body, and what. -/
def Problem.json (p : Problem) : Json :=
  .record [("type", .text p.kind.name), ("loc", .list (.text "body" :: (p.field.map Json.Value.text).toList))]

/-- The answer to a failure that has none of its own. -/
def broken : Response := ⟨500, .text "Internal Server Error"⟩

/-- The answer to a body with problems.  It shows what was given, and fails if that cannot be printed. -/
def rejected (ps : List Problem) : Response :=
  if ps.all Problem.printable then detail 422 (.list (ps.map Problem.json)) else broken

/-! ## Services -/

def Services.needStore (s : Services) (name : String) : Except Failure Unit :=
  if s.stores then .ok () else .error (.storeMissing name)

def Services.needModel (s : Services) : Except Failure Unit :=
  if s.model then .ok () else .error (.unavailable "AI chat is not configured (missing OPENAI_API_KEY)")

/-- The services that a route needs, of which the first that is missing is told. -/
def Services.ready (s : Services) : Route → Except Failure Unit
  | .root | .health => .ok ()
  | .sessions | .newSession | .rename _ | .remove _ | .messages _ => s.needStore "Chat"
  | .chat _ => do
    s.needStore "Chat"
    s.needStore "Note"
    s.needModel
  | .index | .tools | .tool _ => s.needStore "Note"

def Route.isOpen : Route → Bool
  | .root | .health => true
  | _ => false

/-! ## Bodies -/

/-- A body as it was read: none, or a value. -/
abbrev Body := Option LooseJson

def Route.readsBody : Route → Bool
  | .newSession | .rename _ | .chat _ | .tool _ => true
  | _ => false

/-- The answer to a body that breaks its reading off. -/
def unreadable : Response := detail 400 (.text "There was an error parsing the body")

/-- Reads a body.  An empty one is none. -/
def readBody (body : Option String) : Except Response Body :=
  match body with
  | none => .ok none
  | some raw =>
    if raw.isEmpty then .ok none
    else match (bodyChars raw).map (Json.readChars .body) with
      | some (.ok v) => .ok (some v)
      | some (.error .malformed) => .error (rejected [⟨.notJson, none, true⟩])
      | _ => .error unreadable

/-- What a route takes from the body. -/
inductive Given
  | nothing
  /-- Texts by name. -/
  | texts (fields : List (String × LooseText))
  | arguments (v : LooseJson)

def textsOf (fields : List (String × LooseJson)) : Given :=
  .texts (fields.map fun f => (f.1, match f.2 with
    | .text ps => ps
    | _ => []))

def Given.text (g : Given) (name : String) : LooseText :=
  match g with
  | .texts fields => (Json.lookup name fields).getD []
  | _ => []

/-- What a route takes from the body, or what is wrong with it. -/
def Route.take (route : Route) (body : Body) : Except (List Problem) Given :=
  match route, body with
  | .newSession, none | .newSession, some .null => .ok .nothing
  | .newSession, some v => (Schema.session.read v).map textsOf
  | .rename _, none | .chat _, none => .error [⟨.missing, none, true⟩]
  | .rename _, some v => (Schema.session.read v).map textsOf
  | .chat _, some v => (Schema.chat.read v).map textsOf
  | .tool _, none | .tool _, some .null => .ok (.arguments (.record []))
  | .tool _, some (.record fields) => .ok (.arguments (.record fields))
  | .tool _, some v => .error [⟨.notMap, none, v.isPrintable⟩]
  | _, _ => .ok .nothing

/-! ## Answers -/

def sessionJson (s : Session) : Json :=
  .record [("uid", .text s.uid), ("title", .text s.title), ("createdTs", .int s.created), ("updatedTs", .int s.updated)]

def messageJson (m : Message) : Json :=
  .record [("id", .int m.id), ("role", .text m.role), ("content", .text m.content),
    ("toolName", if m.toolName.isEmpty then .null else .text m.toolName), ("createdTs", .int m.created)]

def ownSession (user : Int) (uid : String) : Attempt World Session := do
  match ← World.findSession uid with
  | some s => if s.owner == user then return s else .fail (.foreignSession uid)
  | none => .fail (.foreignSession uid)

def storable (ps : LooseText) : Except Failure String :=
  match Json.text? ps with
  | some s => .ok s
  | none => .error .notUnicode

def makeSession (user : Int) (title : LooseText) : Attempt World Response := do
  let made ← match Json.text? title with
    | some title =>
      let title := Text.strip title
      World.addSession user (if title.isEmpty then Chat.defaultTitle else title)
    | none => World.chatMethod .addSession do
      let _ ← World.takeId
      .fail .notUnicode
  return ⟨201, .json (sessionJson (← World.need "uid" made))⟩

def retitle (user : Int) (uid : String) (title : LooseText) : Attempt World Response := do
  let _ ← ownSession user uid
  let title ← .ofExcept (do nonBlank (← storable title) "title")
  let updated ← World.reviseSession uid (some title) none
  return ⟨200, .json (sessionJson (← World.need "uid" updated))⟩

def dropSession (user : Int) (uid : String) : Attempt World Response := do
  let _ ← ownSession user uid
  let _ ← World.removeSession uid
  return ⟨204, .nothing⟩

def showMessages (user : Int) (uid : String) : Attempt World Response := do
  let s ← ownSession user uid
  let ms ← World.needList (← World.messagesOf s.id)
  return ⟨200, .json (.list (ms.map messageJson))⟩

def showSessions (user : Int) : Attempt World Response := do
  let ss ← World.needList (← World.sessionsOf user)
  return ⟨200, .json (.list (ss.map sessionJson))⟩

/-- Loads a session and runs a turn in it, if it is the caller's. -/
def visit (settings : Chat.Turn.Settings) (who : Tool.Caller) (uid : String) (text : LooseText) :
    Attempt World (List Chat.Event) := do
  Chat.Turn.run settings who (← ownSession who.user uid) text

/-- Answers a message with a stream of events. -/
def chat (services : Services) (settings : Chat.Turn.Settings) (user : Int) (uid : String) (content tag : LooseText) :
    Attempt World Response := do
  let content ← .ofExcept (nonBlankLoose content "content")
  let who : Tool.Caller := { user := user, indexed := services.index, tag := Json.strip tag }
  return ⟨200, .stream (← visit settings who uid content)⟩

def indexNotes (services : Services) (user : Int) : Attempt World Response := do
  if !services.index then .fail (.unavailable "Vector store is not available")
  let n ← Note.Indexing.run user
  return ⟨200, .json (.record [("indexed", .int n)])⟩

def runTool (services : Services) (user : Int) (name : String) (arguments : LooseJson) : Attempt World Response := do
  match Tool.named? name with
  | none => .fail (.http 404 ("Unknown tool: " ++ name))
  | some _ =>
    let text ← Tool.run { user := user, indexed := services.index } name (Json.escaped arguments)
    return ⟨200, .json (.record [("result", .text text)])⟩

def perform (services : Services) (settings : Chat.Turn.Settings) (user : Int) (given : Given) :
    Route → Attempt World Response
  | .root => .done ⟨200, .json (.record [("status", .text "Notes assistant backend running")])⟩
  | .health => .done ⟨200, .json (.record [("ok", .bool true)])⟩
  | .sessions => showSessions user
  | .newSession => makeSession user (given.text "title")
  | .rename uid => retitle user uid (given.text "title")
  | .remove uid => dropSession user uid
  | .messages uid => showMessages user uid
  | .chat uid => chat services settings user uid (given.text "content") (given.text "tag_filter")
  | .index => indexNotes services user
  | .tools => .done ⟨200, .json (.record [("tools", .list (Tool.all.map Tool.listed))])⟩
  | .tool name =>
    match given with
    | .arguments v => runTool services user name v
    | _ => runTool services user name (.record [])

end Http
end NoteAgent
