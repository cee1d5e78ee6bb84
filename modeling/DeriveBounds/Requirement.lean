import DeriveBounds.DeriveError
import DeriveBounds.TypeExpr.Mention

/-!
Bound requirements: which type parameters a definition needs a bound on, and why.
-/
namespace DeriveBounds

/-- Where a requirement comes from; requirements made elsewhere may carry another label. -/
inductive Origin
  | inferred
  | override
  | other (label : String)
  deriving DecidableEq, Repr

def Origin.label : Origin → String
  | inferred => "inferred"
  | override => "override"
  | other label => label

def Origin.ofLabel : String → Origin
  | "inferred" => inferred
  | "override" => override
  | label => other label

structure Requirement where
  param : String
  capability : Capability
  origin : Origin
  deriving DecidableEq, Repr

/-- What stops a derivation: a refused definition, or a tree that stands for no type. -/
inductive Stop
  | refused (error : DeriveError)
  | malformed (tree : MalformedTree)
  deriving DecidableEq, Repr

/-- The markers whose arguments need no bound, unless others are named. -/
def defaultPhantoms : List String := ["PhantomData", "PhantomMarker"]

namespace Definition

variable (definition : Definition)

/-- The requirements of an explicit override, each of which must name a type parameter. -/
def requirementsOfOverride (field : Field) (capability : Capability) (params : List String) :
    Except Stop (List Requirement) :=
  match params.find? fun param => !definition.typeParams.contains param with
  | some param => .error (.refused (.overrideParam definition.name field.label capability param))
  | none => .ok (params.map fun param => ⟨param, capability, .override⟩)

/-- One requirement for every type parameter that the type of the field mentions. -/
def inferredRequirements (phantoms : List String) (field : Field) (capability : Capability) :
    Except Stop (List Requirement) :=
  match field.type.mentioned phantoms definition.typeParams with
  | .error tree => .error (.malformed tree)
  | .ok params => .ok (params.map fun param => ⟨param, capability, .inferred⟩)

/-- The override of a capability where there is one, and what is inferred otherwise. -/
def ownRequirements (phantoms : List String) (field : Field) (capability : Capability) :
    Except Stop (List Requirement) :=
  match field.override? capability with
  | some params => definition.requirementsOfOverride field capability params
  | none => definition.inferredRequirements phantoms field capability

/-- What one field requires for one capability. An override is checked even where the field is
skipped. Without an override of its own, `Eq` takes over what `PartialEq` requires. -/
def fieldRequirements (phantoms : List String) (field : Field) (capability : Capability) :
    Except Stop (List Requirement) :=
  match field.override? capability with
  | some params => do
    let required ← definition.requirementsOfOverride field capability params
    return if field.skippedFor capability then [] else required
  | none =>
    if field.skippedFor capability then .ok []
    else if capability = .eq then do
      let required ← definition.ownRequirements phantoms field .partialEq
      return required.map ({ · with capability := .eq })
    else definition.inferredRequirements phantoms field capability

def requirementsOf (phantoms : List String) (capability : Capability) :
    List Field → Except Stop (List Requirement)
  | [] => .ok []
  | field :: rest => do
    let first ← definition.fieldRequirements phantoms field capability
    let others ← requirementsOf phantoms capability rest
    return first ++ others

/-- What all fields require for one capability. No enum has a default, so nothing is required. -/
def requirements (phantoms : List String) (capability : Capability) :
    Except Stop (List Requirement) :=
  if capability = .default ∧ definition.shape.isEnum then .ok []
  else definition.requirementsOf phantoms capability definition.shape.fields

end Definition

end DeriveBounds
