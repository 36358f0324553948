import NoteAgent.Text.Cut
/-!
# Filter — asking the vector service for rows that hold a text

The service has a pattern language in which `%` stands for any text and `_` for any character, and the pattern stands in
a string literal.  A text is escaped for the pattern first and for the literal after that; reading takes off the two
levels in the other order, so what is asked for is the text itself.
-/
namespace NoteAgent
namespace Vector
namespace Filter

/-- A character in a pattern that stands for itself. -/
def patternChar (c : Char) : List Char := if c == '\\' || c == '%' || c == '_' then ['\\', c] else [c]

def literalChar (c : Char) : List Char := if c == '\\' || c == '"' then ['\\', c] else [c]

/-- A text that stands for itself in a pattern, written in a literal. -/
def escape (cs : List Char) : List Char := (cs.flatMap patternChar).flatMap literalChar

def opening (field : String) : String := field ++ " like \"%"

def closing : String := "%\""

def containing (field value : String) : String := opening field ++ String.ofList (escape value.toList) ++ closing

/-- The text with one level of backslashes taken off; a last one that escapes nothing stays. -/
def unescape : List Char → List Char
  | '\\' :: c :: cs => c :: unescape cs
  | c :: cs => c :: unescape cs
  | [] => []

/-- The text that a filter on `field` asks for. -/
def asked (field filter : String) : List Char :=
  let inner := filter.toList.drop (opening field).length
  unescape (unescape (inner.take (inner.length - closing.length)))

end Filter
end Vector
end NoteAgent
