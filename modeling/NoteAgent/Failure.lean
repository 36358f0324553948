import NoteAgent.Json.Shown
import NoteAgent.Text.Quoted
/-!
# Failure — why an operation breaks off

One cause per way of failing, and its wording in one function.  A cause holds what the wording needs and nothing else.
-/
namespace NoteAgent

/-- The name that messages give an object a model answers with. -/
def replyObject : String := "types.SimpleNamespace"

/-- The name that messages give the range of the first items of a value. -/
def itemRange : String := "slice"

/-- Why an operation breaks off. -/
inductive Failure
  /-- A store or a service broke off with this text. -/
  | broken (text : String)
  /-- The vector service refused a call with this text. -/
  | refused (text : String)
  /-- A whole number does not fit the store's columns. -/
  | wideInteger
  /-- A value of this kind, the one in this position, cannot be stored. -/
  | kindNotStored (position : Nat) (kind : Json.Kind)
  /-- A column that holds each value once holds this one already. -/
  | taken (column : String)
  /-- A row refers to a row that is not there. -/
  | dangling
  | unknownRole (role : String)
  | toolNameMismatch
  | noNote (uid : String)
  | noSession (uid : String)
  /-- The embedding gave no vector. -/
  | noVector
  /-- Every limit of a search was refused, the last with `last`, if one was refused at all. -/
  | searchFailed (collection : String) (last : Option String)
  /-- A text is no whole number. -/
  | notWhole (text : String)
  /-- A whole number has too many digits to be read. -/
  | tooManyDigits (digits : Nat)
  /-- A text is no real number. -/
  | notReal (text : String)
  | wholeOfNan
  | wholeOfInfinity
  | realTooLarge
  /-- A value of this kind stands where a whole number is meant. -/
  | kindNotWhole (kind : Json.Kind)
  /-- A value of this kind stands where a real number is meant. -/
  | kindNotReal (kind : Json.Kind)
  /-- An object of this kind has no member of this name. -/
  | noMember (owner member : String)
  /-- An object of this kind has no items to pick from. -/
  | noItems (owner : String)
  /-- An object of this kind cannot be gone through. -/
  | notIterable (owner : String)
  /-- An object of this kind has no length. -/
  | noLength (owner : String)
  /-- A value of this kind cannot be followed by a text. -/
  | notJoined (kind : Json.Kind)
  /-- A record has no such key. -/
  | noKey (shown : String)
  /-- An object of this kind cannot be looked up as a key. -/
  | notKey (owner : String)
  | noSuchItem
  /-- Two values of these kinds cannot be multiplied. -/
  | noProduct (kind : Json.Kind)
  /-- A day lies after the last day of the calendar. -/
  | dayTooLate
  | yearOutOfRange (year : Int)
  | noMoment
  | momentTooFar
  /-- The model could not be asked. -/
  | requestFailed (text : String)
  /-- The model's answer could not be read. -/
  | undecodable
  /-- The agent took more steps than it may. -/
  | tooManySteps (limit : Int)
  /-- The agent may take no step at all. -/
  | noSteps
  | summaryFailed (cause : String)
  | summaryBlank
  | summaryNotStored (cause : String)
  /-- The embedding service is still loading its model. -/
  | embeddingLoading (text : String)
  | embeddingKeyMissing
  | embeddingKeyRefused
  | embeddingStatus (status : Int) (text : String)
  | indexAddressMissing
  /-- A path holds the character of number zero. -/
  | nullInPath
  /-- A path, or a name in it, is too long. -/
  | nameTooLong (path : String)
  | batchSizeZero
  /-- A request answered with a status and a text. -/
  | http (status : Nat) (detail : String)
  /-- A session is not there, or not the caller's. -/
  | foreignSession (uid : String)
  /-- A service that the request needs is not there. -/
  | unavailable (message : String)
  /-- A store has not been opened. -/
  | storeMissing (name : String)
  /-- A value does not have the declared form. -/
  | invalid
  /-- A value to be sent stands too high. -/
  | tooHigh
  /-- The text given to the store is no Unicode text. -/
  | notUnicode
  deriving DecidableEq, Repr

/-- The wording of a refusal by the vector service. -/
def refusalMessage (text : String) : String := "<MilvusException: (code=1, message=" ++ text ++ ")>"

def Failure.message : Failure → String
  | .broken text => text
  | .refused text => refusalMessage text
  | .wideInteger => "Python int too large to convert to SQLite INTEGER"
  | .kindNotStored position kind =>
    "Error binding parameter " ++ toString position ++ ": type '" ++ kind.name ++ "' is not supported"
  | .taken column => "UNIQUE constraint failed: " ++ column
  | .dangling => "FOREIGN KEY constraint failed"
  | .unknownRole role => "invalid message role: " ++ Text.quoted role
  | .toolNameMismatch => "tool_name must be set exactly when role is 'tool'"
  | .noNote uid => "note not found: " ++ uid
  | .noSession uid => "session not found: " ++ uid
  | .noVector => "embedding function returned no vector"
  | .searchFailed collection last =>
    "vector search failed for " ++ collection ++ ": " ++ (last.map refusalMessage).getD "None"
  | .notWhole text =>
    "invalid literal for int() with base 10: " ++ String.ofList ((Text.quoted text).toList.take 200)
  | .tooManyDigits digits =>
    "Exceeds the limit (4300 digits) for integer string conversion: value has " ++ toString digits ++
      " digits; use sys.set_int_max_str_digits() to increase the limit"
  | .notReal text => "could not convert string to float: " ++ Text.quoted text
  | .wholeOfNan => "cannot convert float NaN to integer"
  | .wholeOfInfinity => "cannot convert float infinity to integer"
  | .realTooLarge => "int too large to convert to float"
  | .kindNotWhole kind =>
    "int() argument must be a string, a bytes-like object or a real number, not '" ++ kind.name ++ "'"
  | .kindNotReal kind => "float() argument must be a string or a real number, not '" ++ kind.name ++ "'"
  | .noMember owner member => "'" ++ owner ++ "' object has no attribute '" ++ member ++ "'"
  | .noItems owner => "'" ++ owner ++ "' object is not subscriptable"
  | .notIterable owner => "'" ++ owner ++ "' object is not iterable"
  | .noLength owner => "object of type '" ++ owner ++ "' has no len()"
  | .notJoined kind => "can only concatenate " ++ kind.name ++ " (not \"str\") to " ++ kind.name
  | .noKey shown => shown
  | .notKey owner => "unhashable type: '" ++ owner ++ "'"
  | .noSuchItem => "list index out of range"
  | .noProduct kind =>
    match kind with
    | .list => "can't multiply sequence by non-int of type 'list'"
    | .text => "can't multiply sequence by non-int of type 'str'"
    | kind => "unsupported operand type(s) for *: '" ++ kind.name ++ "' and '" ++ kind.name ++ "'"
  | .dayTooLate => "date value out of range"
  | .yearOutOfRange year => "year " ++ toString year ++ " is out of range"
  | .noMoment => "timestamp out of range for platform time_t"
  | .momentTooFar => "[Errno 75] Value too large for defined data type"
  | .requestFailed text => "LLM request failed: " ++ text
  | .undecodable => "failed to decode LLM response"
  | .tooManySteps limit =>
    "Recursion limit of " ++ toString limit ++ " reached without hitting a stop condition. You can increase the " ++
      "limit by setting the `recursion_limit` config key."
  | .noSteps => "recursion_limit must be at least 1"
  | .summaryFailed cause => "summarization failed: " ++ cause
  | .summaryBlank => "summarization returned an empty summary"
  | .summaryNotStored cause => "persisting compacted history failed: " ++ cause
  | .embeddingLoading text => "HF model is loading. Retry later. " ++ text
  | .embeddingKeyMissing =>
    "HF_API_KEY must be set in .env. Get a token from https://huggingface.co/settings/tokens"
  | .embeddingKeyRefused => "Invalid HF API key. Check HF_API_KEY at https://huggingface.co/settings/tokens"
  | .embeddingStatus status text => "HF API error " ++ toString status ++ ": " ++ text
  | .indexAddressMissing => "MILVUS_URI must be set in .env"
  | .nullInPath => "embedded null byte"
  | .nameTooLong path => "[Errno 36] File name too long: " ++ Text.quoted path
  | .batchSizeZero => "range() arg 3 must not be zero"
  | .http status detail => toString status ++ " " ++ detail
  | .foreignSession uid => "session not found: " ++ uid
  | .unavailable message => message
  | .storeMissing name => name ++ " store has not been initialised"
  | .invalid => ""
  | .tooHigh => "Error serializing to JSON: ValueError: Maximum serialization depth exceeded"
  | .notUnicode => "surrogates not allowed"

end NoteAgent
