import NoteAgent.Text.Digit
import NoteAgent.Text.HiddenRange
import NoteAgent.Text.Word
/-!
# Quoted — a text quoted inside a message

Single quotes stand around the text, double ones when it holds single quotes and no double ones.  The backslash and
the quote in use are escaped, tab and the two line breaks have short escapes, and a character that shows nothing is
spelled by its number in two, four or eight hexadecimal digits.
-/
namespace NoteAgent
namespace Text

/-- A character that shows nothing on its own. -/
def isHidden (c : Char) : Bool :=
  c.toNat < 0x20 || c.toNat == 0x7F || (0x80 ≤ c.toNat && inRanges hiddenRanges c)

def quoteChar (q c : Char) : List Char :=
  if c == q || c == '\\' then ['\\', c]
  else if c == '\t' then ['\\', 't']
  else if c == '\n' then ['\\', 'n']
  else if c == '\r' then ['\\', 'r']
  else if isHidden c then
    if c.toNat < 0x100 then '\\' :: 'x' :: hex 2 c.toNat
    else if c.toNat < 0x10000 then '\\' :: 'u' :: hex 4 c.toNat
    else '\\' :: 'U' :: hex 8 c.toNat
  else [c]

def apostrophe : Char := Char.ofNat 39

def quoteFor (cs : List Char) : Char := if cs.contains apostrophe && !cs.contains '"' then '"' else apostrophe

def quoted (s : String) : String :=
  let q := quoteFor s.toList
  String.ofList (q :: s.toList.flatMap (quoteChar q) ++ [q])

end Text
end NoteAgent
