import DeriveBounds.Body
import DeriveBounds.Classify
import DeriveBounds.Consolidate
import DeriveBounds.Event
import DeriveBounds.ImplItem

/-!
Deriving capabilities for a type. A capability that is refused leaves the others as they are; a tree
that stands for no type stops the derivation.
-/
namespace DeriveBounds

namespace Definition

variable (definition : Definition)

/-- The bounds of one capability. They are looked for once there is a body. -/
def bounds (phantoms : List String) (capability : Capability) : Except Stop (List Requirement) := do
  let _ ← (body definition capability).mapError .refused
  let requirements ← definition.requirements phantoms capability
  definition.consolidate capability requirements

/-- The impl of one capability. -/
def implFor (phantoms : List String) (capability : Capability) : Except Stop ImplItem := do
  let lines ← (body definition capability).mapError .refused
  let requirements ← definition.requirements phantoms capability
  let bounds ← definition.consolidate capability requirements
  let predicates ← (definition.predicates capability bounds).mapError .malformed
  return ⟨definition.name, capability, bounds, predicates, Text.join "\n" lines⟩

end Definition

structure Derivation where
  definition : Definition
  impls : List ImplItem
  failures : List Failure

/-- A refusal is reported under the capability that was asked for, also where it arose from another
whose bounds are shared. -/
def Failure.ofRefusal (definition : Definition) (capability : Capability)
    (error : DeriveError) : Failure :=
  { Failure.ofError error (some definition.name) with capability := some capability }

/-- One capability asked for, and what it came to. -/
abbrev Attempt := Capability × Except Stop ImplItem

namespace Attempt

def impl? (attempt : Attempt) : Option ImplItem :=
  match attempt.2 with
  | .ok item => some item
  | .error _ => none

def failure? (definition : Definition) (attempt : Attempt) : Option Failure :=
  match attempt.2 with
  | .error (.refused error) => some (.ofRefusal definition attempt.1 error)
  | _ => none

def malformed? (attempt : Attempt) : Option MalformedTree :=
  match attempt.2 with
  | .error (.malformed tree) => some tree
  | _ => none

end Attempt

def attempts (definition : Definition) (capabilities : List Capability)
    (phantoms : List String) : List Attempt :=
  (Capability.ordered capabilities).map fun capability =>
    (capability, definition.implFor phantoms capability)

/-- Derives every capability asked for, in canonical order. -/
def derive (definition : Definition) (capabilities : List Capability)
    (phantoms : List String) : Except MalformedTree Derivation :=
  let attempts := attempts definition capabilities phantoms
  match attempts.findSome? Attempt.malformed? with
  | some tree => .error tree
  | none =>
    .ok ⟨definition, attempts.filterMap Attempt.impl?,
      attempts.filterMap (Attempt.failure? definition)⟩

/-- What one attempt logs. -/
def attemptEvents (definition : Definition) (phantoms : List String) (attempt : Attempt) :
    List Event :=
  (match definition.bounds phantoms attempt.1 with
    | .ok bounds => [.consolidated definition attempt.1 bounds]
    | .error _ => []) ++
  (match attempt.2 with
    | .error (.refused error) => [.capabilityFailed definition attempt.1 error]
    | _ => [])

/-- The attempts that are made: all up to the first that meets a malformed tree. -/
def attemptsMade : List Attempt → List Attempt
  | [] => []
  | attempt :: rest =>
    if attempt.malformed?.isSome then [attempt] else attempt :: attemptsMade rest

/-- What a derivation logs. -/
def deriveEvents (definition : Definition) (capabilities : List Capability)
    (phantoms : List String) : List Event :=
  (if capabilities.contains .eq && !capabilities.contains .partialEq then
    [.eqWithoutPartialEq definition] else []) ++
  (attemptsMade (attempts definition capabilities phantoms)).flatMap
    (attemptEvents definition phantoms)

/-- The capabilities asked for of a type: those named, or else those it declares itself. -/
def requestedFor (definition : Definition) (capabilities : Option (List Capability)) :
    List Capability :=
  capabilities.getD definition.derives

end DeriveBounds
