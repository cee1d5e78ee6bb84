import DeriveBounds.Capability
import DeriveBounds.TypeExpr.Printer

/-!
Type definitions: what has to be known of a type to derive capabilities for it.
-/
namespace DeriveBounds

inductive ParamKind
  | type | lifetime | const
  deriving DecidableEq, Repr

def ParamKind.name : ParamKind → String
  | type => "type"
  | lifetime => "lifetime"
  | const => "const"

def ParamKind.ofName? : String → Option ParamKind
  | "type" => some type
  | "lifetime" => some lifetime
  | "const" => some const
  | _ => none

structure GenericParam where
  name : String
  kind : ParamKind
  bounds : Option String
  constType : Option String
  deriving DecidableEq, Repr

/-- The type parameters one field asks a bound of for one capability, in place of the inferred
ones. With no parameters the field asks for none. -/
structure Override where
  capability : Capability
  params : List String
  deriving DecidableEq, Repr

inductive FieldKey
  | named (name : String)
  | position (index : Int)
  deriving DecidableEq, Repr

def FieldKey.label : FieldKey → String
  | named name => name
  | position index => toString index

def FieldKey.isNamed : FieldKey → Bool
  | named _ => true
  | position _ => false

structure Field where
  key : FieldKey
  type : TypeExpr
  skip : Bool
  overrides : List Override

namespace Field

def label (field : Field) : String := field.key.label

/-- The label without a raw identifier mark. -/
def plainName (field : Field) : String :=
  match field.label.toList with
  | 'r' :: '#' :: name => String.ofList name
  | _ => field.label

def override? (field : Field) (capability : Capability) : Option (List String) :=
  (field.overrides.find? (·.capability = capability)).map (·.params)

/-- Whether the skip mark takes the field out of a capability. -/
def skippedFor (field : Field) (capability : Capability) : Bool :=
  field.skip && capability.honorsSkip

end Field

inductive Style
  | unit | tuple | struct
  deriving DecidableEq, Repr

def Style.name : Style → String
  | unit => "unit"
  | tuple => "tuple"
  | struct => "struct"

structure Variant where
  name : String
  style : Style
  fields : List Field

inductive Shape
  | struct (fields : List Field)
  | tuple (fields : List Field)
  | enum (variants : List Variant)

namespace Shape

def kind : Shape → String
  | struct _ => "struct"
  | tuple _ => "tuple"
  | enum _ => "enum"

def isEnum : Shape → Bool
  | enum _ => true
  | _ => false

/-- All fields, those of an enum variant by variant. -/
def fields : Shape → List Field
  | struct fields => fields
  | tuple fields => fields
  | enum variants => variants.flatMap (·.fields)

/-- How much there is of it, in words. -/
def size : Shape → String
  | struct fields => toString fields.length ++ " fields"
  | tuple fields => toString fields.length ++ " fields"
  | enum variants => toString variants.length ++ " variants"

end Shape

/-- A bound on a type that is declared for the whole definition, for one capability or for all. -/
structure BoundedTo where
  type : TypeExpr
  capability : Option Capability

def BoundedTo.covers (bound : BoundedTo) (capability : Capability) : Bool :=
  bound.capability.all (· = capability)

structure Definition where
  name : String
  params : List GenericParam
  shape : Shape
  boundedTo : List BoundedTo
  derives : List Capability

namespace Definition

def typeParams (definition : Definition) : List String :=
  (definition.params.filter (·.kind = .type)).map (·.name)

/-- The declared bounds that apply to a capability. `Eq` shares its bounds with `PartialEq`, so
what is declared for `PartialEq` alone applies to `Eq` as well. -/
def declaredBounds (definition : Definition) (capability : Capability) : List BoundedTo :=
  definition.boundedTo.filter fun bound =>
    bound.covers capability || (capability = .eq && bound.covers .partialEq)

end Definition

end DeriveBounds
