import NoteAgent.Agent.Loop
import NoteAgent.Chat.Turn
import NoteAgent.Numeral.Real
/-!
# Settings — what can be set from outside, and what is fixed

A setting is read from an environment of texts, without the blanks around it; one that is blank has its default.  The
first setting that is no number where a number is meant is a failure.
-/
namespace NoteAgent

/-- The settings. -/
structure Settings where
  chatPath : String
  notesPath : String
  indexAddress : String
  indexToken : String
  embeddingKey : String
  modelTimeout : Float
  modelKey : String
  modelAddress : String
  modelName : String
  maxRounds : Int
  tokenDelay : Float
  keepsResults : Bool
  threshold : Int
  keepRecent : Int

namespace Settings

/-! ## What is fixed -/

def embeddingModel : String := "sentence-transformers/all-MiniLM-L6-v2"

def dimension : Int := 384

/-- The texts that are embedded with one request. -/
def batchSize : Nat := 32

/-- The seconds that a request for embeddings may take. -/
def embeddingTimeout : Float := 30

/-- The name of a user's collection, with the user left open. -/
def collectionTemplate : String := Vector.collectionNamed "\x7buser_id\x7d"

/-! ## What is read -/

/-- An environment: the texts that are set. -/
abbrev Environment := List (String × String)

/-- A setting without the blanks around it; one that is not set is empty. -/
def raw (env : Environment) (name : String) : String := Text.strip ((Json.lookup name env).getD "")

def text (env : Environment) (name fallback : String) : String :=
  let s := raw env name
  if s.isEmpty then fallback else s

def whole (env : Environment) (name : String) (fallback : Int) : Except Failure Int :=
  let s := raw env name
  if s.isEmpty then .ok fallback else (Json.Value.text s).toWhole

def real (env : Environment) (name : String) (fallback : Float) : Except Failure Float :=
  let s := raw env name
  if s.isEmpty then .ok fallback else (Json.Value.text s).toReal

def saysYes (s : String) : Bool :=
  let s := String.ofList (s.toList.map Char.toLower)
  s == "1" || s == "true" || s == "yes"

def read (env : Environment) : Except Failure Settings := do
  let modelTimeout ← real env "LLM_API_TIMEOUT" 60
  let maxRounds ← whole env "MAX_AGENT_ROUNDS" 6
  let tokenDelay ← real env "TOKEN_DELAY_SECONDS" 0.008
  let threshold ← whole env "COMPACT_THRESHOLD" 400000
  let keepRecent ← whole env "KEEP_RECENT_MESSAGES" 10
  return {
    chatPath := text env "CHAT_DB_PATH" "data/chat.db"
    notesPath := text env "NOTES_DB_PATH" "data/notes.db"
    indexAddress := text env "MILVUS_URI" "data/vectors.db"
    indexToken := raw env "MILVUS_TOKEN"
    embeddingKey := raw env "HF_API_KEY"
    modelTimeout := modelTimeout
    modelKey := raw env "OPENAI_API_KEY"
    modelAddress := raw env "OPENAI_BASE_URL"
    modelName := text env "OPENAI_LLM_MODEL" "gpt-4o-mini"
    maxRounds := maxRounds
    tokenDelay := tokenDelay
    keepsResults := saysYes (raw env "PERSIST_TOOL_RESULTS")
    threshold := threshold
    keepRecent := keepRecent }

/-- All settings, the fixed ones too, by name. -/
def listed (s : Settings) : List (String × Json) :=
  [("CHAT_DB_PATH", .text s.chatPath), ("NOTES_DB_PATH", .text s.notesPath), ("MILVUS_URI", .text s.indexAddress),
    ("MILVUS_TOKEN", .text s.indexToken), ("HF_API_KEY", .text s.embeddingKey), ("HF_EMBED_MODEL", .text embeddingModel),
    ("VECTOR_DIM", .int dimension), ("EMBED_BATCH_SIZE", .int batchSize),
    ("COLLECTION_NAME_TEMPLATE", .text collectionTemplate), ("SEARCH_TOP_K", .int Tool.defaultTopK),
    ("SOURCE_TOP_K", .int Chat.Turn.sourceCount), ("SOURCE_SNIPPET_CHARS", .int Chat.Event.snippetLength),
    ("EMBED_API_TIMEOUT", .real embeddingTimeout), ("LLM_API_TIMEOUT", .real s.modelTimeout),
    ("OPENAI_API_KEY", .text s.modelKey), ("OPENAI_BASE_URL", .text s.modelAddress),
    ("OPENAI_LLM_MODEL", .text s.modelName), ("MAX_AGENT_ROUNDS", .int s.maxRounds),
    ("TOKEN_DELAY_SECONDS", .real s.tokenDelay), ("PERSIST_TOOL_RESULTS", .bool s.keepsResults),
    ("COMPACT_THRESHOLD", .int s.threshold), ("KEEP_RECENT_MESSAGES", .int s.keepRecent),
    ("CHARS_PER_TOKEN", .int Chat.charsPerToken), ("DEFAULT_SESSION_TITLE", .text Chat.defaultTitle)]

end Settings
end NoteAgent
