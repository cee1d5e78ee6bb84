import DeriveBounds.Proofs.Classified.Unreadable
import DeriveBounds.Proofs.Derivation.Accounts

/-!
Nothing breaks a batch off. An element is classified or refused in one of three ways, and whatever
is classified can be searched, rendered and derived: its trees all stand for types, and a capability
is refused only over an enum without a default or over an override.
-/
namespace DeriveBounds

open Xml (Element)

theorem Text.prefix_join (separator part : String) (rest : List String) :
    part.toList <+: (join separator (part :: rest)).toList := by
  cases rest with
  | nil => exact List.prefix_refl _
  | cons next rest =>
    rw [join_cons_cons, String.append_assoc, String.toList_append]
    exact List.prefix_append _ _

namespace ImplItem

/-- The first line of an impl begins with its header. -/
theorem exists_first_line (definition : Definition) (item : ImplItem) :
    ∃ first rest, item.renderedLines definition = first :: rest ∧
      (item.header definition).toList <+: first.toList := by
  have opened : ∀ brace, (item.header definition).toList <+:
      (item.header definition ++ brace).toList := by
    intro brace
    rw [String.toList_append]
    exact List.prefix_append _ _
  unfold renderedLines opening
  cases item.predicates with
  | nil =>
    cases Text.lines item.body with
    | nil => exact ⟨_, [], rfl, by rw [String.append_assoc]; exact opened _⟩
    | cons line lines => exact ⟨_, _, rfl, opened _⟩
  | cons predicate predicates =>
    cases Text.lines item.body with
    | nil => exact ⟨_, _, rfl, List.prefix_refl _⟩
    | cons line lines => exact ⟨_, _, rfl, List.prefix_refl _⟩

theorem header_prefix_render (definition : Definition) (item : ImplItem) :
    (item.header definition).toList <+: (item.render definition).toList := by
  obtain ⟨first, rest, lines, begins⟩ := item.exists_first_line definition
  rw [render, lines]
  exact begins.trans (Text.prefix_join "\n" first rest)

end ImplItem

namespace Definition

variable {definition : Definition} {phantoms : List String} {capability : Capability}
  {item : ImplItem} {error : DeriveError}

/-- The types of all fields and of all declared bounds. -/
def types (definition : Definition) : List TypeExpr :=
  definition.shape.fields.map (·.type) ++ definition.boundedTo.map (·.type)

theorem Typed.types (typed : definition.Typed) : ∀ type ∈ definition.types, type.Proper := by
  rw [Definition.types, List.forall_mem_append, List.forall_mem_map, List.forall_mem_map]
  exact ⟨typed.fields, typed.bounds⟩

/-- A capability is refused over a shape or over an override. -/
theorem refusal?_code (refused : definition.refusal? capability = some error) :
    error.code ∈ [DeriveCode.unsupportedShape, .invalidOverride] := by
  unfold refusal? at refused
  split at refused
  · cases refused
    simp [DeriveError.code]
  · obtain ⟨field, _, found⟩ := List.exists_of_findSome?_eq_some refused
    obtain ⟨checked, param, same⟩ := fieldError?_eq_some found
    subst same
    simp [DeriveError.code]

/-- What never fails for a definition, and how a single capability may. -/
structure Derivable (definition : Definition) : Prop where
  rendered : ∀ type ∈ definition.types, ∃ text, type.render = .ok text
  searched : ∀ type ∈ definition.types, ∀ phantoms names,
    ∃ found, type.mentioned phantoms names = .ok found
  predicates : ∀ capability bounds,
    ∃ predicates, definition.predicates capability bounds = .ok predicates
  attempted : ∀ phantoms capability,
    (∃ item, definition.implFor phantoms capability = .ok item) ∨
      ∃ error, definition.implFor phantoms capability = .error (.refused error) ∧
        error.code ∈ [DeriveCode.unsupportedShape, .invalidOverride]
  derived : ∀ requested phantoms, ∃ result, derive definition requested phantoms = .ok result ∧
    ∀ item ∈ result.impls,
      definition.predicates item.capability item.bounds = .ok item.predicates ∧
        (item.header definition).toList <+: (item.render definition).toList

theorem Typed.derivable (typed : definition.Typed) : definition.Derivable where
  rendered := fun type member => ⟨_, (typed.types type member).render⟩
  searched := fun type member _ names => ⟨_, (typed.types type member).mentioned names⟩
  predicates := predicates_eq_ok typed
  attempted := by
    intro phantoms capability
    cases refused : definition.refusal? capability with
    | none => exact .inl (implFor_eq_ok typed phantoms refused)
    | some error =>
      exact .inr ⟨error, implFor_eq_error typed phantoms refused, refusal?_code refused⟩
  derived := by
    intro requested phantoms
    refine ⟨_, derive_eq_ok typed requested phantoms, ?_⟩
    intro item member
    obtain ⟨_, derived⟩ := mem_impls.mp member
    exact ⟨implFor_predicates derived, item.header_prefix_render definition⟩

end Definition

/-- How an element may be refused. Only the error over an invalid name does not name the type. -/
structure Refuses (element : Element) (error : DeriveError) : Prop where
  code : error.code ∈ [DeriveCode.unrecognizedShape, .invalidType, .unknownCapability]
  capability : error.capability? = none
  type : error = .typeName (Text.strip (element.attributeD "name")) ∨
    error.type? = some (Text.strip (element.attributeD "name"))

/-- Every element is classified, and can be derived, or refused; nothing else can happen. -/
theorem classify_derivable_or_refuses (element : Element) :
    (∃ definition, classify element = .ok definition ∧ definition.Derivable) ∨
      ∃ error, classify element = .error error ∧ Refuses element error := by
  cases classified : classify element with
  | ok definition =>
    have typed := (Classified.of_classify classified).typed
    exact .inl ⟨definition, rfl, typed.derivable⟩
  | error error =>
    refine .inr ⟨error, rfl, ?_⟩
    rcases classify_failsOnly element error classified with unnamed | unreadable
    · subst unnamed
      exact ⟨by simp [DeriveError.code], rfl, .inl rfl⟩
    · exact ⟨unreadable.code, unreadable.capability, .inr unreadable.type⟩

end DeriveBounds
