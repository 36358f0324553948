import NoteAgent.Failure
/-!
# Opening — reaching the vector service

An address that begins with a scheme of the web is a server.  Any other address is the path of a file, and the folders it
stands in are made first.  They cannot be made if a name is too long, or the whole path to them.
-/
namespace NoteAgent
namespace Vector
namespace Opening

/-- How the service is reached: the members given to its client, and the folders that are made for it. -/
structure Plan where
  members : List (String × String)
  folders : List String
  deriving DecidableEq, Repr

def isServer (address : String) : Bool := address.startsWith "http://" || address.startsWith "https://"

/-- The names that a path is made of; a dot stands for the folder at hand. -/
def names (path : String) : List String := (path.splitOn "/").filter fun s => !s.isEmpty && s != "."

/-- The folders met on the way along names, each as the names that lead to it, outermost last.  A way that leaves the
folder at hand has no names. -/
def visited (at? : Option (List String)) : List String → List (List String)
  | [] => []
  | name :: rest =>
    let next : Option (List String) :=
      match at? with
      | none => none
      | some here => if name == ".." then (match here with | [] => none | _ :: up => some up) else some (name :: here)
    next.toList ++ visited next rest

/-- The folders made for a file at a path, without repeats, in order of name. -/
def foldersFor (path : String) : List String :=
  if path.startsWith "/" then []
  else
    let ways := (visited (some []) (names path).dropLast).filter (!·.isEmpty)
    ((ways.map fun way => "/".intercalate way.reverse).eraseDups).mergeSort (· ≤ ·)

/-- The slashes in front of a path: none, one, or two, more than two counting as one. -/
def rootOf (path : String) : String :=
  match (path.toList.takeWhile (· == '/')).length with
  | 0 => ""
  | 2 => "//"
  | _ => "/"

/-- The path of the folder that these names lead to. -/
def joined (root : String) (names : List String) : String :=
  if root.isEmpty && names.isEmpty then "." else root ++ "/".intercalate names

def maxNameBytes : Nat := 255

def maxPathBytes : Nat := 4095

/-- The path that is told when a name among these is too long: it ends with the first such name if a folder before it
was made, and is the whole path otherwise. -/
def tooLong? (root : String) (names : List String) : Option String :=
  let short := names.takeWhile fun s => s.utf8ByteSize ≤ maxNameBytes
  if short.length == names.length then none
  else if short.any (· != "..") then some (joined root (names.take (short.length + 1)))
  else some (joined root names)

/-- The folders for a file at a path can be made. -/
def checkFolders (path : String) : Except Failure Unit :=
  let root := rootOf path
  let names := (names path).dropLast
  let whole := joined root names
  if whole.toList.contains '\x00' then .error .nullInPath
  else if maxPathBytes < whole.utf8ByteSize then .error (.nameTooLong whole)
  else match tooLong? root names with
    | some told => .error (.nameTooLong told)
    | none => .ok ()

/-- How the service at an address is reached. -/
def plan (address token : String) : Except Failure Plan := do
  if address.isEmpty then .error .indexAddressMissing
  let folders ← if isServer address then pure [] else do
    checkFolders address
    pure (foldersFor address)
  return ⟨("uri", address) :: (if token.isEmpty then [] else [("token", token)]), folders⟩

end Opening
end Vector
end NoteAgent
