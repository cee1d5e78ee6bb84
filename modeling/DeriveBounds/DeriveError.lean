import DeriveBounds.Definition
import DeriveBounds.ErrorCode
import DeriveBounds.TypeExpr.Fault

/-!
Why a type, or one capability of it, cannot be derived. An error holds its cause; its code, its
wording and what it is about are read off the cause.
-/
namespace DeriveBounds

inductive DeriveCode
  | unrecognizedShape | unsupportedShape | invalidOverride | invalidType | unknownCapability
  deriving DecidableEq, Repr

def DeriveCode.name : DeriveCode → String
  | unrecognizedShape => "UNRECOGNIZED_SHAPE"
  | unsupportedShape => "UNSUPPORTED_SHAPE_FOR_CAPABILITY"
  | invalidOverride => "INVALID_OVERRIDE"
  | invalidType => "INVALID_TYPE_EXPR"
  | unknownCapability => "UNKNOWN_CAPABILITY"

def DeriveCode.ofName? : String → Option DeriveCode
  | "UNRECOGNIZED_SHAPE" => some unrecognizedShape
  | "UNSUPPORTED_SHAPE_FOR_CAPABILITY" => some unsupportedShape
  | "INVALID_OVERRIDE" => some invalidOverride
  | "INVALID_TYPE_EXPR" => some invalidType
  | "UNKNOWN_CAPABILITY" => some unknownCapability
  | _ => none

theorem DeriveCode.ofName?_eq_some_iff {name : String} {code : DeriveCode} :
    ofName? name = some code ↔ code.name = name := by
  constructor
  · intro found
    unfold ofName? at found
    split at found <;> cases found <;> rfl
  · intro same
    subst same
    cases code <;> rfl

/-- Where a registry names a capability. -/
inductive CapabilityPlace
  | bound (owner : String) (key : FieldKey)
  | boundedTo
  | derive
  deriving DecidableEq, Repr

def CapabilityPlace.text : CapabilityPlace → String
  | bound owner key => "bound on " ++ owner ++ "." ++ key.label
  | boundedTo => "bounded-to"
  | derive => "derive"

/-- `type` is the name of the type in question, and `owner` that of the type or variant which holds
the members. `reported` carries a failure that was found elsewhere, in its own words. -/
inductive DeriveError
  | typeText (error : TypeTextError)
  | typeName (name : String)
  | category (type : String) (given : Option String)
  | paramKind (type param kind : String)
  | paramName (type : String) (kind : ParamKind) (param : String)
  | constWithoutType (type param : String)
  | duplicateParam (type param : String)
  | enumMembers (type : String)
  | variantName (type variant : String)
  | duplicateVariant (type variant : String)
  | memberWithoutType (type owner : String) (key : FieldKey)
  | memberType (type owner : String) (key : FieldKey) (error : TypeTextError)
  | mixedMembers (type owner : String)
  | duplicateField (type owner label : String)
  | boundedToType (type : String) (error : TypeTextError)
  | missingCapability (type : String) (place : CapabilityPlace)
  | unknownCapability (type : String) (place : CapabilityPlace) (name : String)
  | defaultForEnum (type : String)
  | overrideParam (type field : String) (capability : Capability) (param : String)
  | boundParam (type : String) (capability : Capability) (param : String)
  | reported (code : DeriveCode) (message : String) (type field : Option String)
    (capability : Option Capability)
  deriving DecidableEq, Repr

namespace DeriveError

/-- A failure that was found elsewhere, under the name of its code. -/
def report (code message : String) (type field : Option String) (capability : Option Capability) :
    Except UnknownCode DeriveError :=
  (codeNamed "derive" DeriveCode.ofName? code).map (.reported · message type field capability)

theorem report_eq_ok_iff {name message : String} {type field : Option String}
    {capability : Option Capability} {error : DeriveError} :
    report name message type field capability = .ok error ↔
      ∃ code : DeriveCode, code.name = name ∧
        reported code message type field capability = error := by
  simp only [report, map_codeNamed_eq_ok_iff, DeriveCode.ofName?_eq_some_iff]

def code : DeriveError → DeriveCode
  | typeText _ | memberType .. | boundedToType .. => .invalidType
  | missingCapability .. | unknownCapability .. => .unknownCapability
  | defaultForEnum _ => .unsupportedShape
  | overrideParam .. | boundParam .. => .invalidOverride
  | reported code .. => code
  | _ => .unrecognizedShape

def message : DeriveError → String
  | typeText error => error.message
  | typeName name => "Type element has an invalid name: " ++ Text.quoted name
  | category type given =>
    type ++ ": unsupported category " ++ Text.quotedOption given ++
      "; expected 'struct' or 'enum'"
  | paramKind type param kind =>
    type ++ ": generic parameter " ++ Text.quoted param ++ " has unknown kind " ++ Text.quoted kind
  | paramName type kind param =>
    type ++ ": invalid " ++ kind.name ++ " parameter name " ++ Text.quoted param
  | constWithoutType type param =>
    type ++ ": const parameter " ++ param ++ " needs a type attribute"
  | duplicateParam type param => type ++ ": duplicate generic parameter " ++ param
  | enumMembers type => type ++ ": enum members must be declared inside <variant>"
  | variantName type variant =>
    type ++ ": variant has an invalid name: " ++ Text.quoted variant
  | duplicateVariant type variant => type ++ ": duplicate variant " ++ variant
  | memberWithoutType _ owner key => owner ++ "." ++ key.label ++ ": member has no <type>"
  | memberType _ owner key error => owner ++ "." ++ key.label ++ ": " ++ error.message
  | mixedMembers _ owner => owner ++ ": mixes named and positional members"
  | duplicateField _ owner label => owner ++ ": duplicate field " ++ Text.quoted label
  | boundedToType type error => type ++ ": bounded-to " ++ error.message
  | missingCapability type place =>
    type ++ ": " ++ place.text ++ " is missing its capability attribute"
  | unknownCapability type place name =>
    type ++ ": " ++ place.text ++ " names unknown capability " ++ Text.quoted name
  | defaultForEnum type =>
    type ++ ": Default cannot be derived for an enum; there is no canonical default variant"
  | overrideParam type field capability param =>
    type ++ "." ++ field ++ ": " ++ capability.name ++ " bound override names " ++
      Text.quoted param ++ ", which is not a type parameter of " ++ type
  | boundParam type capability param =>
    type ++ ": " ++ capability.name ++ " bound names " ++ Text.quoted param ++
      ", which is not a type parameter of " ++ type
  | reported _ message .. => message

/-- The type the error is about, once its name is known. -/
def type? : DeriveError → Option String
  | typeText _ | typeName _ => none
  | category type _ | paramKind type .. | paramName type .. | constWithoutType type _
  | duplicateParam type _ | enumMembers type | variantName type _ | duplicateVariant type _
  | memberWithoutType type .. | memberType type .. | mixedMembers type _ | duplicateField type ..
  | boundedToType type _ | missingCapability type _ | unknownCapability type ..
  | defaultForEnum type | overrideParam type .. | boundParam type .. => some type
  | reported _ _ type .. => type

def field? : DeriveError → Option String
  | memberWithoutType _ _ key | memberType _ _ key _ => some key.label
  | duplicateField _ _ label => some label
  | overrideParam _ field .. => some field
  | reported _ _ _ field _ => field
  | _ => none

def capability? : DeriveError → Option Capability
  | defaultForEnum _ => some .default
  | overrideParam _ _ capability _ | boundParam _ capability _ => some capability
  | reported _ _ _ _ capability => capability
  | _ => none

end DeriveError

/-- A failure as it is reported. -/
structure Failure where
  type : String
  capability : Option Capability
  code : String
  message : String
  field : Option String
  deriving DecidableEq, Repr

/-- The first of the names that is there and not empty. -/
def firstName : List (Option String) → String
  | [] => "<unknown>"
  | name :: rest =>
    match name with
    | some "" | none => firstName rest
    | some name => name

/-- An error that names no type is reported under the fallback. -/
def Failure.ofError (error : DeriveError) (fallback : Option String) : Failure :=
  ⟨firstName [error.type?, fallback], error.capability?, error.code.name, error.message,
    error.field?⟩

end DeriveBounds
