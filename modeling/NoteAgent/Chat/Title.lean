import NoteAgent.Text.Blank
import NoteAgent.Text.Cut
import NoteAgent.World.Chats
/-!
# Title — naming a session after its first message

The model is asked for a short title.  Blanks and quotes around its reply are dropped and the rest is cut to a length.  A
reply of which nothing is left, and any failure, leave the title as it is.
-/
namespace NoteAgent
namespace Chat
namespace Title

def maxLength : Nat := 80

def prompt (message : String) : String :=
  "Generate a short (5-7 word) title for a chat that starts with:\n\"" ++ message ++
    "\"\nReturn only the title, no quotes."

/-- The text without the quotes at either end. -/
def unquote (s : String) : String := String.ofList (Text.trimBy (· == '"') s.toList)

/-- The title that a reply is, if anything is left of it. -/
def ofReply? (reply : String) : Option String :=
  let title := Text.strip (unquote (Text.strip reply))
  if title.isEmpty then none else some (Text.cut maxLength title)

def ask (message : LooseText) : Attempt World (Option String) := do
  match ← (World.asking (Model.Client.complete .title (prompt (Json.nearestText message)))).settle with
  | .error _ => return none
  | .ok reply => return ofReply? reply

/-- Names a session after a message.  The answer is the title that was stored. -/
def find (uid : String) (message : LooseText) : Attempt World (Option String) := do
  match ← ask message with
  | none => return none
  | some title =>
    match ← (World.reviseSession uid (some title) none).settle with
    | .error _ => return none
    | .ok _ => return some title

end Title
end Chat
end NoteAgent
