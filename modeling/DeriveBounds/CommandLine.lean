import DeriveBounds.Config
import DeriveBounds.Text.Digit

/-!
The command line: which words are options, what belongs to each, and what is wrong with the rest.
-/
namespace DeriveBounds

inductive Flag
  | help | input | output | derive | type | phantomType | listTypes | listCapabilities | verbose
  | logJson
  deriving DecidableEq, Repr

/-- How many values an option takes. -/
inductive Arity
  | none | one | many
  deriving DecidableEq, Repr

namespace Flag

/-- Every spelling of an option, in the order of declaration. -/
def spellings : List (String × Flag) := [
  ("-h", help), ("--help", help), ("--input", input), ("--output", output), ("--derive", derive),
  ("--type", type), ("--phantom-type", phantomType), ("--list-types", listTypes),
  ("--list-capabilities", listCapabilities), ("--verbose", verbose), ("--log-json", logJson)]

/-- The option under all its spellings, for messages. -/
def label (flag : Flag) : String :=
  Text.join "/" ((spellings.filter (·.2 = flag)).map (·.1))

def arity : Flag → Arity
  | input | output => .one
  | derive | type | phantomType => .many
  | help | listTypes | listCapabilities | verbose | logJson => .none

end Flag

inductive UsageError
  | ambiguous (word : String) (matching : List String)
  | expectedOne (flag : Flag)
  | expectedSome (flag : Flag)
  | unusedValue (flag : Flag) (value : String)
  | notAllowed (flag earlier : Flag)
  | unrecognized (words : List String)
  deriving DecidableEq, Repr

def UsageError.message : UsageError → String
  | ambiguous word matching =>
    "ambiguous option: " ++ word ++ " could match " ++ Text.join ", " matching
  | expectedOne flag => "argument " ++ flag.label ++ ": expected one argument"
  | expectedSome flag => "argument " ++ flag.label ++ ": expected at least one argument"
  | unusedValue flag value =>
    "argument " ++ flag.label ++ ": ignored explicit argument " ++ Text.quoted value
  | notAllowed flag earlier =>
    "argument " ++ flag.label ++ ": not allowed with argument " ++ earlier.label
  | unrecognized words => "unrecognized arguments: " ++ Text.join " " words

/-- Why a command line comes to no arguments: it asks for help, or it is wrong. -/
inductive CommandStop
  | help
  | misuse (error : UsageError)
  deriving DecidableEq, Repr

/-- A word of the command line. An option may have a value attached, by an equals sign or directly
behind a short option. -/
inductive Word
  | value (text : String)
  | option (flag : Flag) (long : Bool) (attached : Option String)
  | unknown (text : String)
  | separator
  deriving DecidableEq, Repr

/-- Whether a word is a negative number, which is a value. -/
def isNegativeNumber (word : String) : Bool :=
  let isDigits (digits : List Char) : Bool := !digits.isEmpty && digits.all Text.isDecimalDigit
  let isNumber (chars : List Char) : Bool :=
    match chars with
    | '-' :: rest =>
      isDigits rest ||
        match rest.dropWhile Text.isDecimalDigit with
        | '.' :: fraction => isDigits fraction
        | _ => false
    | _ => false
  let chars := word.toList
  isNumber chars || (chars.getLast? == some '\n' && isNumber chars.dropLast)

/-- The text before the first equals sign, and the one behind it, if there is one. -/
def splitEquals (word : String) : String × Option String :=
  match word.toList.span (· ≠ '=') with
  | (before, _ :: after) => (String.ofList before, some (String.ofList after))
  | (_, []) => (word, none)

/-- A word with two hyphens may shorten an option, as long as it can mean only one. -/
def longWord (word : String) : Except UsageError (Option Word) :=
  let (name, value) := splitEquals word
  match Flag.spellings.filter fun entry => name.toList.isPrefixOf entry.1.toList with
  | [] => .ok none
  | [(_, flag)] => .ok (some (.option flag true value))
  | several => .error (.ambiguous word (several.map (·.1)))

/-- A word with one hyphen begins with a short option. -/
def shortWord (word : String) : Option Word :=
  let short := String.ofList (word.toList.take 2)
  (Flag.spellings.lookup short).map fun flag =>
    .option flag false (some (String.ofList (word.toList.drop 2)))

/-- An exactly spelled option, perhaps with a value behind an equals sign. -/
def spelledWord (word : String) : Option Word :=
  let isLong (name : String) : Bool := "--".toList.isPrefixOf name.toList
  match Flag.spellings.lookup word with
  | some flag => some (.option flag (isLong word) none)
  | none =>
    match splitEquals word with
    | (name, some value) =>
      (Flag.spellings.lookup name).map fun flag => .option flag (isLong name) (some value)
    | (_, none) => none

/-- What a word that looks like an option may still be. -/
def otherWord (word : String) : Word :=
  if isNegativeNumber word || word.toList.contains ' ' then .value word else .unknown word

def readWord (word : String) : Except UsageError Word :=
  match word.toList with
  | '-' :: second :: _ =>
    match spelledWord word with
    | some found => .ok found
    | none =>
      if second = '-' then do return (← longWord word).getD (otherWord word)
      else .ok ((shortWord word).getD (otherWord word))
  | _ => .ok (.value word)

/-- The words of a command line. Behind `--` all are values. -/
def readWords : List String → Except UsageError (List Word)
  | [] => .ok []
  | word :: rest =>
    if word = "--" then .ok (.separator :: rest.map .value)
    else do
      let first ← readWord word
      return first :: (← readWords rest)

/-- What has been read of a command line: names group by group, and the words left over. -/
structure CommandState where
  input : PathArgument := .absent
  output : PathArgument := .absent
  derive : List (List String) := []
  types : List (List String) := []
  phantomTypes : List (List String) := []
  listTypes : Bool := false
  listCapabilities : Bool := false
  verbose : Bool := false
  logJson : Bool := false
  leftOver : List String := []

namespace CommandState

/-- The values of an option; of two for an option that takes one the later stays. -/
def setValues (state : CommandState) (flag : Flag) (values : List String) : CommandState :=
  match flag with
  | .input => { state with input := .ofTexts values }
  | .output => { state with output := .ofTexts values }
  | .derive => { state with derive := state.derive ++ [values] }
  | .type => { state with types := state.types ++ [values] }
  | .phantomType => { state with phantomTypes := state.phantomTypes ++ [values] }
  | _ => state

/-- Sets a switch. The two listings exclude each other. -/
def switchOn (state : CommandState) (flag : Flag) : Except CommandStop CommandState :=
  match flag with
  | .help => .error .help
  | .listTypes =>
    if state.listCapabilities then .error (.misuse (.notAllowed flag .listCapabilities))
    else .ok { state with listTypes := true }
  | .listCapabilities =>
    if state.listTypes then .error (.misuse (.notAllowed flag .listTypes))
    else .ok { state with listCapabilities := true }
  | .verbose => .ok { state with verbose := true }
  | .logJson => .ok { state with logJson := true }
  | _ => .ok state

def leave (state : CommandState) (word : String) : CommandState :=
  { state with leftOver := state.leftOver ++ [word] }

def arguments (state : CommandState) : Arguments :=
  let value (groups : List (List String)) : Value :=
    if groups.isEmpty then .null else .list (groups.map Value.texts)
  { input := state.input
    output := state.output
    derive := value state.derive
    types := value state.types
    phantomTypes := value state.phantomTypes
    listTypes := state.listTypes
    listCapabilities := state.listCapabilities
    verbose := state.verbose
    logJson := state.logJson }

end CommandState

/-- The outcome of a switch with something attached to it. Short switches may be written together,
and help is the only one there is. -/
def attachedSwitch (flag : Flag) (long : Bool) (value : String) : CommandStop :=
  if long || value = "" then .misuse (.unusedValue flag value)
  else
    match value.toList.dropWhile (· = 'h') with
    | [] => .help
    | rest => .misuse (.unusedValue flag (String.ofList rest))

/-- The values an option has where one is attached; a separator in its place leaves it none. -/
def attachedValues (value : String) : List String :=
  if value = "--" then [] else [value]

/-- The leading values of a command line. -/
def leadingValues : List Word → List String
  | .value text :: rest => text :: leadingValues rest
  | _ => []

def behindValues : (words : List Word) → { rest : List Word // rest.length ≤ words.length }
  | .value _ :: rest => ⟨behindValues rest, Nat.le_succ_of_le (behindValues rest).2⟩
  | words => ⟨words, Nat.le_refl _⟩

/-- Reads words in order. An option takes the values behind it as far as it can use them. -/
def readCommand (state : CommandState) (words : List Word) : Except CommandStop CommandState :=
  match words with
  | [] => .ok state
  | .value text :: rest => readCommand (state.leave text) rest
  | .unknown text :: rest => readCommand (state.leave text) rest
  | .separator :: rest => readCommand (state.leave "--") rest
  | .option flag long attached :: rest =>
    match flag.arity, attached with
    | .none, none =>
      match state.switchOn flag with
      | .error stop => .error stop
      | .ok next => readCommand next rest
    | .none, some attached => .error (attachedSwitch flag long attached)
    | _, some attached => readCommand (state.setValues flag (attachedValues attached)) rest
    | .one, none =>
      match rest with
      | .value text :: rest => readCommand (state.setValues flag [text]) rest
      | _ => .error (.misuse (.expectedOne flag))
    | .many, none =>
      match leadingValues rest with
      | [] => .error (.misuse (.expectedSome flag))
      | values =>
        have := (behindValues rest).2
        readCommand (state.setValues flag values) (behindValues rest).1
termination_by words.length

/-- The arguments a command line gives. -/
def parseCommandLine (words : List String) : Except CommandStop Arguments := do
  let words ← (readWords words).mapError .misuse
  let state ← readCommand {} words
  if state.leftOver.isEmpty then return state.arguments
  else throw (.misuse (.unrecognized state.leftOver))

def usage : String :=
  Text.join "\n" [
    "usage: boundgen [-h] [--input INPUT] [--output OUTPUT]",
    "                [--derive DERIVE [DERIVE ...]] [--type TYPE [TYPE ...]]",
    "                [--phantom-type PHANTOM_TYPE [PHANTOM_TYPE ...]]",
    "                [--list-types | --list-capabilities] [--verbose] [--log-json]",
    ""]

def helpText : String :=
  usage ++ Text.join "\n" [
    "",
    "Generate Rust derive impls with minimal inferred bounds",
    "",
    "options:",
    "  -h, --help            show this help message and exit",
    "  --input INPUT",
    "  --output OUTPUT",
    "  --derive DERIVE [DERIVE ...]",
    "  --type TYPE [TYPE ...]",
    "  --phantom-type PHANTOM_TYPE [PHANTOM_TYPE ...]",
    "  --list-types",
    "  --list-capabilities",
    "  --verbose",
    "  --log-json",
    ""]

end DeriveBounds
