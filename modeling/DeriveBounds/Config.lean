import DeriveBounds.ConfigError
import DeriveBounds.Logging
import DeriveBounds.Registry

/-!
Configurations: what a run is to do, checked against the arguments it was given.
-/
namespace DeriveBounds

/-- A path as given with an option: none, a path, or a value that is no path. -/
inductive PathArgument
  | absent
  | path (path : Path)
  | other (value : Value)

namespace PathArgument

/-- The path, if it is one. -/
def path? : PathArgument → Option Path
  | .path given => some given
  | _ => none

/-- Whether there is something. An empty value counts as none. -/
def isGiven : PathArgument → Bool
  | .absent => false
  | .path _ => true
  | .other value => value.isTruthy

/-- The path given by the last of several texts. None at all are an empty list, which is no path. -/
def ofTexts (texts : List String) : PathArgument :=
  match texts.getLast? with
  | some text => .path (.ofString text)
  | none => .other (.list [])

end PathArgument

/-- The arguments of a run as given. Names come loosely typed: nothing, or a list of names and of
lists of names. -/
structure Arguments where
  input : PathArgument := .absent
  output : PathArgument := .absent
  derive : Value := .null
  types : Value := .null
  phantomTypes : Value := .null
  listTypes : Bool := false
  listCapabilities : Bool := false
  verbose : Bool := false
  logJson : Bool := false

/-- What to generate, from which registry, and where to. -/
structure GenerateJob where
  input : Path
  output : PathArgument
  capabilities : List Capability
  typeNames : List String
  phantoms : List String

inductive Job
  | listCapabilities
  | listTypes (input : Path)
  | generate (job : GenerateJob)

structure Config where
  job : Job
  logging : Logging

/-- Why a path cannot be used at all: it is a value of some other type, or a file operation fails
on it. -/
inductive PathFault
  | noPath (type : String)
  | file (error : FileError)
  deriving DecidableEq, Repr

def PathFault.message : PathFault → String
  | noPath type => Text.quoted type ++ " object has no attribute 'exists'"
  | file error => error.message

/-- Why arguments come to no configuration: they are refused, or a path cannot be used. -/
inductive ConfigStop
  | refused (error : ConfigError)
  | unusable (fault : PathFault)
  deriving DecidableEq, Repr

/-- The names in the entries of a group. -/
def groupNames (flag : String) : List Value → Except ConfigError (List String)
  | [] => .ok []
  | .text names :: rest => do return namesIn names ++ (← groupNames flag rest)
  | entry :: _ => .error (.entryType flag entry.typeName)

/-- The names in a list of names and groups. -/
def entryNames (flag : String) : List Value → Except ConfigError (List String)
  | [] => .ok []
  | .list group :: rest => do
    let names ← groupNames flag group
    return names ++ (← entryNames flag rest)
  | entry :: rest => do
    let names ← groupNames flag [entry]
    return names ++ (← entryNames flag rest)

/-- All names given with an option, however they are grouped. -/
def flattenNames (flag : String) : Value → Except ConfigError (List String)
  | .null => .ok []
  | .list entries => entryNames flag entries
  | value => .error (.valueType flag value.typeName)

def checkCapability (name : String) : Except ConfigError Capability :=
  match Capability.ofName? name with
  | some capability => .ok capability
  | none => .error (.unknownCapability name)

def checkName (flag name : String) : Except ConfigError String :=
  if isName name then .ok name else .error (.invalidName name flag)

def checkCapabilities : List String → Except ConfigError (List Capability)
  | [] => .ok []
  | name :: rest => do
    let capability ← checkCapability name
    return capability :: (← checkCapabilities rest)

def checkNames (flag : String) : List String → Except ConfigError (List String)
  | [] => .ok []
  | name :: rest => do
    let checked ← checkName flag name
    return checked :: (← checkNames flag rest)

/-- A path that is given and leads to something. -/
def checkPath (workspace : Workspace) (path : PathArgument) (flag : String)
    (advice : Option String) : Except ConfigStop Path :=
  match path with
  | .absent => .error (.refused (.noPath flag advice))
  | .path path => do
    let found ← (workspace.contains path).mapError fun error => .unusable (.file error)
    if found then .ok path else .error (.refused (.pathNotFound flag path advice))
  | .other value => .error (.unusable (.noPath value.typeName))

namespace Arguments

def logging (arguments : Arguments) : Logging := ⟨arguments.verbose, arguments.logJson⟩

/-- The names given with all three options that take names. -/
def flatten (arguments : Arguments) :
    Except ConfigError (List String × List String × List String) := do
  let capabilities ← flattenNames "--derive" arguments.derive
  let types ← flattenNames "--type" arguments.types
  let phantoms ← flattenNames "--phantom-type" arguments.phantomTypes
  return (capabilities, types, phantoms)

/-- What to generate from an input, once every name is found to be one. -/
def generateJob (arguments : Arguments) (input : Path) (capabilities types phantoms : List String) :
    Except ConfigError GenerateJob := do
  let capabilities ← checkCapabilities capabilities
  let types ← checkNames "--type" types
  let phantoms ← checkNames "--phantom-type" phantoms
  return {
    input := input
    output := arguments.output
    capabilities := Capability.ordered capabilities
    typeNames := sortedNames types
    phantoms := sortedNames (defaultPhantoms ++ phantoms) }

/-- The configuration the arguments ask for. Listing excludes all that only generating needs. -/
def check (arguments : Arguments) (workspace : Workspace) : Except ConfigStop Config := do
  let (capabilities, types, phantoms) ← arguments.flatten.mapError .refused
  let generates := !capabilities.isEmpty || !types.isEmpty || !phantoms.isEmpty ||
    arguments.output.isGiven
  if generates && (arguments.listTypes || arguments.listCapabilities) then
    throw (.refused .conflict)
  if arguments.listCapabilities then return ⟨.listCapabilities, arguments.logging⟩
  let input ← checkPath workspace arguments.input "--input" none
  if arguments.listTypes then return ⟨.listTypes input, arguments.logging⟩
  let job ← (arguments.generateJob input capabilities types phantoms).mapError .refused
  return ⟨.generate job, arguments.logging⟩

end Arguments

end DeriveBounds
