import DeriveBounds.Capability
import DeriveBounds.ErrorCode
import DeriveBounds.Path

/-!
Why the arguments of a run are refused, and what to do about it.
-/
namespace DeriveBounds

inductive ConfigCode
  | invalidCapability | invalidTypeName | conflict | pathNotFound
  deriving DecidableEq, Repr

def ConfigCode.name : ConfigCode → String
  | invalidCapability => "INVALID_CAPABILITY"
  | invalidTypeName => "INVALID_TYPE_NAME"
  | conflict => "CONFLICT_GENERATE_DISCOVERY"
  | pathNotFound => "PATH_NOT_FOUND"

def ConfigCode.ofName? : String → Option ConfigCode
  | "INVALID_CAPABILITY" => some invalidCapability
  | "INVALID_TYPE_NAME" => some invalidTypeName
  | "CONFLICT_GENERATE_DISCOVERY" => some conflict
  | "PATH_NOT_FOUND" => some pathNotFound
  | _ => none

theorem ConfigCode.ofName?_eq_some_iff {name : String} {code : ConfigCode} :
    ofName? name = some code ↔ code.name = name := by
  constructor
  · intro found
    unfold ofName? at found
    split at found <;> cases found <;> rfl
  · intro same
    subst same
    cases code <;> rfl

/-- `flag` is the option in question. A path may come with advice of its own. `reported` carries an
error that was found elsewhere, in its own words. -/
inductive ConfigError
  | unknownCapability (name : String)
  | invalidName (name flag : String)
  | valueType (flag type : String)
  | entryType (flag type : String)
  | conflict
  | noPath (flag : String) (advice : Option String)
  | pathNotFound (flag : String) (path : Path) (advice : Option String)
  | typesNotFound (names : List String)
  | reported (code : ConfigCode) (message : String) (suggestion : Option String)
  deriving DecidableEq, Repr

namespace ConfigError

/-- An error that was found elsewhere, under the name of its code. -/
def report (code message : String) (suggestion : Option String) : Except UnknownCode ConfigError :=
  (codeNamed "config" ConfigCode.ofName? code).map (.reported · message suggestion)

theorem report_eq_ok_iff {name message : String} {suggestion : Option String}
    {error : ConfigError} : report name message suggestion = .ok error ↔
      ∃ code : ConfigCode, code.name = name ∧ reported code message suggestion = error := by
  simp only [report, map_codeNamed_eq_ok_iff, ConfigCode.ofName?_eq_some_iff]

def code : ConfigError → ConfigCode
  | unknownCapability _ => .invalidCapability
  | invalidName .. | valueType .. | entryType .. | typesNotFound _ => .invalidTypeName
  | conflict => .conflict
  | noPath .. | pathNotFound .. => .pathNotFound
  | reported code .. => code

def message : ConfigError → String
  | unknownCapability name => "Unknown capability: " ++ name
  | invalidName name flag => "Invalid type name for " ++ flag ++ ": " ++ name
  | valueType flag type => "Invalid " ++ flag ++ " value type: " ++ type
  | entryType flag type => "Invalid " ++ flag ++ " entry type: " ++ type
  | conflict => "Generate flags cannot be combined with discovery flags."
  | noPath flag _ => flag ++ " is required: no path provided."
  | pathNotFound flag path _ => "Path for " ++ flag ++ " does not exist: " ++ path.text
  | typesNotFound names => "Type not found in input: " ++ Text.join ", " names
  | reported _ message _ => message

/-- Advice that is given and not empty, and else a standing one. -/
def adviceOr (standing : String) (advice : Option String) : String :=
  match advice with
  | none | some "" => standing
  | some advice => advice

def suggestion? : ConfigError → Option String
  | unknownCapability _ =>
    some ("Use one of: " ++ Text.join ", " (Capability.all.map Capability.name) ++ ".")
  | invalidName .. =>
    some "Type names must be plain identifiers (for example Pair or PhantomData)."
  | valueType flag _ | entryType flag _ =>
    some ("Pass names as " ++ flag ++ " NAME [NAME ...].")
  | conflict => some "Choose either generate mode or one discovery command."
  | noPath flag advice =>
    some (adviceOr ("Pass the path explicitly: " ++ flag ++ " /path/to/types.xml") advice)
  | pathNotFound _ _ advice => some (adviceOr "Provide an existing path for this flag." advice)
  | typesNotFound _ => some "Run with --list-types to see the available types."
  | reported _ _ suggestion => suggestion

/-- The error as it is printed. -/
def text (error : ConfigError) : String :=
  "Config error [" ++ error.code.name ++ "]: " ++ error.message ++ "\n" ++
    match error.suggestion? with
    | none | some "" => ""
    | some advice => "Hint: " ++ advice ++ "\n"

end ConfigError

end DeriveBounds
