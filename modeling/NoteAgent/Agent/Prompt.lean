import NoteAgent.Calendar.Stamp
import NoteAgent.Chat.Table
import NoteAgent.Model.Client
/-!
# Prompt — what the agent shows the model first

The conversation begins with instructions, which give the date and the summary of what was said earlier; then come the
entries that are kept of the history, and last the new text.
-/
namespace NoteAgent
namespace Agent

def greeting : String := "You are an AI assistant for the user's personal knowledge base of notes.\nToday's local date: "

def instructions : String :=
  ".\n\n" ++
    "You have access to tools that let you read the user's notes. YOU CURRENTLY HAVE ZERO KNOWLEDGE " ++
    "OF THE USER'S NOTES.\n" ++
    "CRITICAL INSTRUCTIONS:\n" ++
    "1. YOU MUST ALWAYS USE A TOOL to look up notes. NEVER answer questions about the user's notes " ++
    "from your own memory.\n" ++
    "2. For questions about a SPECIFIC DATE or exact keyword, YOU MUST use \"query_notes\".\n" ++
    "3. For general conceptual questions, use \"search_notes\".\n" ++
    "4. To create, append, tag, or delete notes, use the respective tools.\n" ++
    "5. NEVER hallucinate note content. If a tool returns no results, tell the user exactly that."

def summaryHeading : String := "\n\nSummary of earlier conversation:\n"

def systemPrompt (summary : String) (now : Calendar.Stamp) : String :=
  greeting ++ now.printSecond ++ instructions ++ if summary.isEmpty then "" else summaryHeading ++ summary

/-- The entry of a role, if the model is shown entries of that role. -/
def entryOf? (role content : String) : Option Model.Entry :=
  if role == Chat.userRole then some (.user content)
  else if role == Chat.assistantRole then some (.assistant content)
  else none

/-- The conversation that the model is shown, the history given as roles and contents. -/
def opening (summary : String) (history : List (String × String)) (text : LooseText) (now : Calendar.Stamp) :
    List Model.Entry :=
  .system (systemPrompt summary now) :: history.filterMap (fun m => entryOf? m.1 m.2) ++ [.user text]

/-- The roles and contents of stored messages. -/
def spoken (ms : List Chat.Message) : List (String × String) := ms.map fun m => (m.role, m.content)

end Agent
end NoteAgent
