import DeriveBounds.Requirement

/-!
Consolidation: the requirements of all fields become one list of bounds, at most one for each
parameter and capability, in declaration order.
-/
namespace DeriveBounds

/-- Adds a requirement to a list with one for each parameter and capability: a new pair comes last,
and an override replaces what is no override. -/
def mergeRequirement (merged : List Requirement) (requirement : Requirement) :
    List Requirement :=
  match merged with
  | [] => [requirement]
  | first :: rest =>
    if first.param = requirement.param ∧ first.capability = requirement.capability then
      (if requirement.origin = .override ∧ first.origin ≠ .override then requirement else first)
        :: rest
    else first :: mergeRequirement rest requirement

/-- The last position of a name. -/
def lastIndex (names : List String) (name : String) : Nat :=
  names.length - 1 - names.reverse.idxOf name

/-- Order by the declaration of the parameter, then by the name of the capability. -/
def Requirement.before (names : List String) (first second : Requirement) : Bool :=
  let i := lastIndex names first.param
  let j := lastIndex names second.param
  i < j || (i == j && !(second.capability.name < first.capability.name))

namespace Definition

variable (definition : Definition)

def mentionedIn (names : List String) : List BoundedTo → Except MalformedTree (List String)
  | [] => .ok []
  | bound :: rest => do
    let first ← bound.type.mentioned [] names
    let others ← mentionedIn names rest
    return first ++ others

/-- The type parameters for which the declared bounds of a capability stand in. -/
def superseded (capability : Capability) : Except MalformedTree (List String) :=
  mentionedIn definition.typeParams (definition.declaredBounds capability)

/-- The bounds that requirements come to. An inferred requirement is dropped where a declared bound
stands in for it. -/
def consolidate (capability : Capability) (requirements : List Requirement) :
    Except Stop (List Requirement) := do
  let superseded ← (definition.superseded capability).mapError .malformed
  let names := definition.typeParams
  match requirements.find? fun requirement => !names.contains requirement.param with
  | some requirement =>
    throw (.refused (.boundParam definition.name requirement.capability requirement.param))
  | none =>
    let kept := requirements.filter fun requirement =>
      !(requirement.origin = .inferred && superseded.contains requirement.param)
    return (kept.foldl mergeRequirement []).mergeSort (Requirement.before names)

def renderBoundedTo (capability : Capability) :
    List BoundedTo → Except MalformedTree (List String)
  | [] => .ok []
  | bound :: rest => do
    let text ← bound.type.render
    let others ← renderBoundedTo capability rest
    return (text ++ ": " ++ capability.traitPath) :: others

/-- The predicates of a `where` clause: declared parameter bounds, declared bounds on types, then
the bounds found; each once. -/
def predicates (capability : Capability) (bounds : List Requirement) :
    Except MalformedTree (List String) := do
  let declared := definition.params.filterMap fun param =>
    param.bounds.bind fun text => if text = "" then none else some (param.name ++ ": " ++ text)
  let boundedTo ← renderBoundedTo capability (definition.declaredBounds capability)
  let found := bounds.map fun bound => bound.param ++ ": " ++ bound.capability.traitPath
  return (declared ++ boundedTo ++ found).eraseDups

end Definition

end DeriveBounds
