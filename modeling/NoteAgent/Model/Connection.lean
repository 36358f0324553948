import NoteAgent.Settings
/-!
# Connection — reaching the model's service

Without a key there is no model.  A request is not repeated when it fails.  What is sent are records: one for each entry
of the conversation, and the declarations of the tools.
-/
namespace NoteAgent
namespace Model

/-- How the model's service is reached. -/
structure Connection where
  model : String
  key : String
  address : Option String
  timeout : Float
  retries : Nat

/-- The connection that the settings ask for. -/
def Connection.ofSettings? (s : Settings) : Option Connection :=
  if s.modelKey.isEmpty then none
  else some ⟨s.modelName, s.modelKey, if s.modelAddress.isEmpty then none else some s.modelAddress, s.modelTimeout, 0⟩

/-! ## What is sent -/

def roleRecord (role : String) (content : Json) (more : List (String × Json)) : Json :=
  .record ([("role", .text role), ("content", content)] ++ more)

def ToolCall.json (c : ToolCall) : Json :=
  .record [("id", c.id), ("type", .text "function"),
    ("function", .record [("name", c.name), ("arguments", c.arguments)])]

def Entry.json : Entry → Json
  | .system text => roleRecord "system" (.text text) []
  | .user text => roleRecord "user" (.text (Json.nearestText text)) []
  | .assistant text => roleRecord "assistant" (.text text) []
  | .calls turn => roleRecord "assistant" turn.content [("tool_calls", .list (turn.calls.map ToolCall.json))]
  | .result call text => roleRecord "tool" (.text text) [("tool_call_id", call)]

/-- The members of a request to a model: the tools are left out when there are none. -/
def requestMembers (model : String) (messages tools : List Json) : List (String × Json) :=
  [("model", .text model), ("messages", .list messages)] ++ if tools.isEmpty then [] else [("tools", .list tools)]

/-- The messages of a request that is a single prompt. -/
def promptMessages (prompt : String) : List Json := [(Entry.user prompt).json]

end Model
end NoteAgent
