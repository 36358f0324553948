import NoteAgent.Text.Word
/-!
# Tag — the hashtags of a note body

A tag is a hash sign and the longest run after it of word characters, slashes and hyphens; a hash sign with no such
character after it is not a tag.  The tags of a body are listed in order and with repeats, joined by single spaces.
-/
namespace NoteAgent
namespace Tag

/-- The characters a tag may hold after its hash sign. -/
def isTagChar (c : Char) : Bool := Text.isWord c || c == '/' || c == '-'

/-- The tag with this run after the hash sign, the run held last character first. -/
def close (run : List Char) : List (List Char) := if run.isEmpty then [] else ['#' :: run.reverse]

/-- The tags of a text: `open?` is the run since the last hash sign, if nothing has ended it. -/
def scan : Option (List Char) → List Char → List (List Char)
  | none, [] => []
  | some run, [] => close run
  | none, c :: cs => if c == '#' then scan (some []) cs else scan none cs
  | some run, c :: cs =>
    if isTagChar c then scan (some (c :: run)) cs
    else close run ++ (if c == '#' then scan (some []) cs else scan none cs)

/-- The tags of a body, in order. -/
def tags (content : String) : List String := (scan none content.toList).map String.ofList

/-- The tags of a body as they are stored beside it. -/
def joined (content : String) : String := " ".intercalate (tags content)

end Tag
end NoteAgent
