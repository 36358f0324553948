import NoteAgent.Text.Cut
import NoteAgent.Text.Digit
import NoteAgent.Text.Utf8
/-!
# Route — the routes of the service

A path is cut at the query, its pieces of one or two dots are followed, its percent codes are decoded, and it is split at
the slashes.  A route is a method and a path; a path known with other methods only is told apart from one not known at
all, and from one that is known but for a slash at its end.  A line break after a fixed piece at the end of a path is
passed over; a piece that is open takes it.
-/
namespace NoteAgent
namespace Http

/-! ## Paths -/

/-- The bytes that a path stands for: a percent sign and two hexadecimal digits are one byte. -/
def pathBytes : List Char → List UInt8
  | '%' :: a :: b :: cs =>
    match Text.hexValue? a, Text.hexValue? b with
    | some x, some y => UInt8.ofNat (16 * x + y) :: pathBytes cs
    | _, _ => 0x25 :: pathBytes (a :: b :: cs)
  | c :: cs => Text.bytesOf c ++ pathBytes cs
  | [] => []
termination_by cs => cs.length

/-- The pieces of a text between slashes, the piece at hand held last character first. -/
def splitAtSlash (piece : List Char) : List Char → List String
  | [] => [String.ofList piece.reverse]
  | c :: cs => if c == '/' then String.ofList piece.reverse :: splitAtSlash [] cs else splitAtSlash (c :: piece) cs

/-- The pieces of a path after those before it, which are held last first: one dot is left out, and two dots take back
the piece before them, but not the empty one in front. -/
def followDots (before : List String) : List String → List String
  | [] => before.reverse
  | "." :: ps => followDots before ps
  | ".." :: ps => followDots (if before.length ≤ 1 then before else before.tail) ps
  | p :: ps => followDots (p :: before) ps

/-- The path without the host that two slashes in front announce. -/
def dropHost (cs : List Char) : List Char :=
  match cs with
  | '/' :: '/' :: rest => rest.dropWhile (· != '/')
  | cs => cs

/-- The path without its query, with one slash in front and without dots. -/
def plainPath (path : String) : List Char :=
  let cs := dropHost (path.toList.takeWhile fun c => c != '?' && c != '#')
  match ("/".intercalate (followDots [] (splitAtSlash [] ('/' :: cs.dropWhile (· == '/'))))).toList with
  | [] => ['/']
  | cs => cs

def decodePath (path : String) : List Char := Text.decodeUtf8 (pathBytes (plainPath path))

/-! ## Routes -/

/-- What a request asks for. -/
inductive Route
  | root
  | health
  | sessions
  | newSession
  | rename (uid : String)
  | remove (uid : String)
  | messages (uid : String)
  | chat (uid : String)
  | index
  | tools
  | tool (name : String)
  deriving DecidableEq, Repr

/-- The routes of a path that ends with a fixed piece, by method. -/
def fixedRoutes : List String → List (String × Route)
  | ["", ""] => [("GET", .root)]
  | ["", "health"] => [("GET", .health)]
  | ["", "api", "v1", "ai", "sessions"] => [("GET", .sessions), ("POST", .newSession)]
  | ["", "api", "v1", "ai", "sessions", uid, "messages"] => if uid.isEmpty then [] else [("GET", .messages uid)]
  | ["", "api", "v1", "ai", "sessions", uid, "chat"] => if uid.isEmpty then [] else [("POST", .chat uid)]
  | ["", "api", "v1", "ai", "index"] => [("POST", .index)]
  | ["", "mcp", "tools"] => [("GET", .tools)]
  | _ => []

/-- The routes of a path that ends with an open piece, by method. -/
def openRoutes : List String → List (String × Route)
  | ["", "api", "v1", "ai", "sessions", uid] =>
    if uid.isEmpty then [] else [("PATCH", .rename uid), ("DELETE", .remove uid)]
  | ["", "mcp", "tools", name] => if name.isEmpty then [] else [("POST", .tool name)]
  | _ => []

def routesOf (path : List Char) : List (String × Route) :=
  openRoutes (splitAtSlash [] path) ++ fixedRoutes (splitAtSlash [] (Text.dropLineBreak path))

/-- The path with the slash at its end taken off, or with one put there. -/
def slashToggled (path : List Char) : List Char :=
  if path.getLast? == some '/' then (path.reverse.dropWhile (· == '/')).reverse else path ++ ['/']

/-- What a method and a path lead to. -/
inductive Match
  | found (route : Route)
  | otherMethod
  | otherSlash
  | unknown
  deriving DecidableEq, Repr

/-- What a method and a decoded path lead to. -/
def resolve (method : String) (path : List Char) : Match :=
  match routesOf path with
  | [] => if path != ['/'] && !(routesOf (slashToggled path)).isEmpty then .otherSlash else .unknown
  | routes =>
    match routes.find? (·.1 == method) with
    | some r => .found r.2
    | none => .otherMethod

end Http
end NoteAgent
