import DeriveBounds.Requirement
import DeriveBounds.Value

/-!
Log events. The library reports what it does as values; rendering them is a matter of `Logging`.
-/
namespace DeriveBounds

inductive Level
  | debug | info | warning | error | critical
  deriving DecidableEq, Repr

def Level.name : Level → String
  | debug => "debug"
  | info => "info"
  | warning => "warning"
  | error => "error"
  | critical => "critical"

def Level.ofName? : String → Option Level
  | "debug" => some debug
  | "info" => some info
  | "warning" => some warning
  | "error" => some error
  | "critical" => some critical
  | _ => none

structure Event where
  level : Level
  name : String
  fields : List (String × Value)

/-- Why fields make no event: one is named like something an event is made of, with what takes it,
or the value of `_record`, of some type, is no record. -/
inductive FieldError
  | repeated (taker argument : String)
  | noRecord (type : String)
  deriving DecidableEq, Repr

def FieldError.message : FieldError → String
  | repeated taker argument =>
    "BoundLogger." ++ taker ++ "() got multiple values for argument " ++ Text.quoted argument
  | noRecord type => Text.quoted type ++ " object has no attribute 'name'"

namespace Event

/-- An event with any fields. -/
def given (level : Level) (name : String) (fields : List (String × Value)) :
    Except FieldError Event :=
  let has (key : String) : Bool := fields.any (·.1 = key)
  if has "self" then .error (.repeated level.name "self")
  else if has "event" then .error (.repeated level.name "event")
  else if has "method_name" then .error (.repeated "_proxy_to_logger" "method_name")
  else
    match fields.lookup "_record" with
    | none | some .null => .ok ⟨level, name, fields⟩
    | some value => .error (.noRecord value.typeName)

def classified (definition : Definition) : Event where
  level := .debug
  name := "type.classified"
  fields := [
    ("type_name", .text definition.name),
    ("shape", .text definition.shape.kind),
    ("params", .texts (definition.params.map (·.name)))]

def consolidated (definition : Definition) (capability : Capability)
    (bounds : List Requirement) : Event where
  level := .debug
  name := "bounds.consolidated"
  fields := [
    ("type_name", .text definition.name),
    ("capability", .text capability.name),
    ("bounds", .texts (bounds.map (·.param)))]

def eqWithoutPartialEq (definition : Definition) : Event where
  level := .warning
  name := "derive.eq_without_partial_eq"
  fields := [
    ("type_name", .text definition.name),
    ("hint", .text "Eq requires a PartialEq impl for the same type")]

def capabilityFailed (definition : Definition) (capability : Capability)
    (error : DeriveError) : Event where
  level := .warning
  name := "derive.capability_failed"
  fields := [
    ("type_name", .text definition.name),
    ("capability", .text capability.name),
    ("code", .text error.code.name),
    ("field", .ofOption error.field?)]

def typeFailed (name : Option String) (error : DeriveError) : Event where
  level := .warning
  name := "derive.type_failed"
  fields := [("type_name", .ofOption name), ("code", .text error.code.name)]

end Event

end DeriveBounds
