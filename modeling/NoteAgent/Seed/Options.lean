import NoteAgent.Numeral.Whole
import NoteAgent.Text.Cut
import NoteAgent.Text.Quoted
/-!
# Options — the command line of the seeding

Two options and a request for help.  A long option may be cut short as long as it is told apart, and may have its value
after an equals sign.  The short request for help may be repeated within one word.  A word that looks like a negative
number or holds a space is no option.  Words that nothing takes are told all at once at the end.
-/
namespace NoteAgent
namespace Seed

/-- What the seeding is told: whose notes they are, and whether they are written to the index.  There is no user if the
separator was given as the value. -/
structure Options where
  user : Option Int := some 1
  indexes : Bool := true
  deriving DecidableEq, Repr

/-- An option. -/
inductive Flag
  | help
  | userId
  | noIndex
  deriving DecidableEq, Repr

/-- What is wrong with a command line. -/
inductive OptionError
  | ambiguous (word : String) (could : List String)
  | argumentMissing (flag : Flag)
  | notWhole (flag : Flag) (text : String)
  | argumentIgnored (flag : Flag) (text : String)
  | unrecognized (words : List String)
  deriving DecidableEq, Repr

def Flag.name : Flag → String
  | .help => "-h/--help"
  | .userId => "--user-id"
  | .noIndex => "--no-index"

def spellings : List (String × Flag) :=
  [("-h", .help), ("--help", .help), ("--user-id", .userId), ("--no-index", .noIndex)]

def OptionError.message : OptionError → String
  | .ambiguous word could => "ambiguous option: " ++ word ++ " could match " ++ ", ".intercalate could
  | .argumentMissing flag => "argument " ++ flag.name ++ ": expected one argument"
  | .notWhole flag text => "argument " ++ flag.name ++ ": invalid int value: " ++ Text.quoted text
  | .argumentIgnored flag text => "argument " ++ flag.name ++ ": ignored explicit argument " ++ Text.quoted text
  | .unrecognized words => "unrecognized arguments: " ++ " ".intercalate words

/-! ## Words -/

/-- What a word is. -/
inductive Word
  | plain (text : String)
  | flag (flag : Flag) (argument : Option String)
  /-- The short request for help with more after it in the same word. -/
  | shortHelp (rest : List Char)
  | unknown (text : String)
  /-- The word after which there are no options. -/
  | separator
  deriving DecidableEq, Repr

def flagOf? (spelling : String) : Option Flag := (spellings.find? (·.1 == spelling)).map (·.2)

/-- A text cut at its first equals sign: what stands before it, and what stands after it, if there is one. -/
def splitAtEquals (s : String) : String × Option String :=
  let cs := s.toList
  match cs.dropWhile (· != '=') with
  | [] => (s, none)
  | _ :: rest => (String.ofList (cs.takeWhile (· != '=')), some (String.ofList rest))

/-- The options that a word may be short for. -/
def shortFor (word : String) : List (String × Word) :=
  if word.startsWith "--" then
    let (start, argument) := splitAtEquals word
    (spellings.filter fun s => s.1.startsWith start).map fun s => (s.1, .flag s.2 argument)
  else if word.startsWith "-h" then [("-h", .shortHelp (word.toList.drop 2))]
  else []

/-- A decimal digit of any script. -/
def isDigit (c : Char) : Bool := (Text.digit? c).isSome

/-- Whether a word looks like a negative number, perhaps with a line break after it. -/
def isNegative (word : String) : Bool :=
  match Text.dropLineBreak word.toList with
  | '-' :: cs =>
    let rest := cs.dropWhile isDigit
    match rest with
    | [] => !cs.isEmpty
    | '.' :: places => !places.isEmpty && places.all isDigit
    | _ => false
  | _ => false

def classify (word : String) : Except OptionError Word :=
  if !word.startsWith "-" then .ok (.plain word)
  else match flagOf? word with
    | some flag => .ok (.flag flag none)
    | none =>
      if word == "-" then .ok (.plain word)
      else match splitAtEquals word with
        | (start, some argument) =>
          match flagOf? start with
          | some .help => .ok (if start == "-h" then .shortHelp argument.toList else .flag .help (some argument))
          | some flag => .ok (.flag flag (some argument))
          | none => guess word
        | _ => guess word
where
  /-- A word that is no option in full. -/
  guess (word : String) : Except OptionError Word :=
    match shortFor word with
    | [(_, w)] => .ok w
    | [] => .ok (if isNegative word || word.toList.contains ' ' then .plain word else .unknown word)
    | ws => .error (.ambiguous word (ws.map (·.1)))

/-- What the words are; after the separator all are plain. -/
def classifyAll : List String → Except OptionError (List Word)
  | [] => .ok []
  | word :: words =>
    if word == "--" then .ok (.separator :: words.map .plain)
    else do return (← classify word) :: (← classifyAll words)

/-! ## Reading -/

/-- What a command line asks for. -/
inductive Order
  | seed (options : Options)
  | help
  | wrong (error : OptionError)
  deriving DecidableEq, Repr

/-- Carries on with the user set to what a text writes, if it writes a whole number.  The separator is no value at all. -/
def withUser (text : String) (next : Option Int → Order) : Order :=
  if text == "--" then next none
  else match Numeral.readWhole text with
    | .ok user => next (some user)
    | .error _ => .wrong (.notWhole .userId text)

/-- What the short request for help asks for with more after it: the same again is all that may follow. -/
def helpAgain : List Char → Order
  | [] => .wrong (.argumentIgnored .help "")
  | ['h'] => .help
  | 'h' :: c :: rest => helpAgain (c :: rest)
  | rest => .wrong (.argumentIgnored .help (String.ofList rest))

/-- Follows the words; `extras` are the words that nothing took, last first. -/
def follow (o : Options) (extras : List String) : List Word → Order
  | [] => if extras.isEmpty then .seed o else .wrong (.unrecognized extras.reverse)
  | .plain text :: ws | .unknown text :: ws => follow o (text :: extras) ws
  | .separator :: ws => follow o ("--" :: extras) ws
  | .flag .help none :: _ => .help
  | .flag .help (some text) :: _ => .wrong (.argumentIgnored .help text)
  | .shortHelp rest :: _ => helpAgain rest
  | .flag .noIndex none :: ws => follow { o with indexes := false } extras ws
  | .flag .noIndex (some text) :: _ => .wrong (.argumentIgnored .noIndex text)
  | .flag .userId (some text) :: ws => withUser text fun user => follow { o with user := user } extras ws
  | .flag .userId none :: .plain text :: ws => withUser text fun user => follow { o with user := user } extras ws
  | .flag .userId none :: _ => .wrong (.argumentMissing .userId)

def read (words : List String) : Order :=
  match classifyAll words with
  | .ok ws => follow {} [] ws
  | .error e => .wrong e

def usage : String := "usage: seed_notes.py [-h] [--user-id USER_ID] [--no-index]"

def helpText : String :=
  usage ++ "\n\n" ++
    "Seed notes DB for demos/tests.\n\n" ++
    "options:\n" ++
    "  -h, --help         show this help message and exit\n" ++
    "  --user-id USER_ID  Owner of the seeded notes.\n" ++
    "  --no-index         Skip pushing the notes into the vector store (no\n" ++
    "                     HF_API_KEY needed).\n"

/-- The lines written for a command line that is wrong. -/
def errorLines (e : OptionError) : List String := [usage, "seed_notes.py: error: " ++ e.message]

/-- The exit code for a command line that is wrong. -/
def errorCode : Nat := 2

end Seed
end NoteAgent
