import DeriveBounds.Proofs.Body.Texts
import DeriveBounds.Proofs.Bounds.Required
import DeriveBounds.Proofs.Classified.Shape
import DeriveBounds.Proofs.Derivation.Attempt

/-!
When a capability of a definition is refused. An enum has no default; otherwise the first field with
an override that names something undeclared decides. Nothing else can go wrong where all types of
the definition are proper.
-/
namespace DeriveBounds

/-- The capability whose override of the field is checked. `Eq` falls back on `PartialEq` where the
field is not skipped and has no override for `Eq`. -/
def Field.checkedFor (field : Field) (capability : Capability) : Capability :=
  if capability = .eq ∧ field.skip = false ∧ field.override? .eq = none then .partialEq
  else capability

namespace Definition

section

variable (definition : Definition)

/-- An override of the field for the capability names something that is no type parameter. -/
def Misnames (field : Field) (capability : Capability) : Prop :=
  ∃ params, field.override? capability = some params ∧
    ∃ param ∈ params, param ∉ definition.typeParams

/-- The field makes a capability fail: by its own override, or for `Eq` by that of `PartialEq` where
the field is not skipped and has no override for `Eq`. -/
def Offends (capability : Capability) (field : Field) : Prop :=
  definition.Misnames field capability ∨
    capability = .eq ∧ field.skip = false ∧ field.override? .eq = none ∧
      definition.Misnames field .partialEq

/-- The error over the first name in an override that is no type parameter. -/
def nameError? (field : Field) (capability : Capability) (params : List String) :
    Option DeriveError :=
  (params.find? fun param => !definition.typeParams.contains param).map
    (.overrideParam definition.name field.label capability)

/-- The error over the override of a capability, where the field has one. -/
def overrideError? (field : Field) (capability : Capability) : Option DeriveError :=
  (field.override? capability).bind (definition.nameError? field capability)

/-- Why a field makes a capability fail. -/
def fieldError? (capability : Capability) (field : Field) : Option DeriveError :=
  definition.overrideError? field (field.checkedFor capability)

/-- Why a capability is refused. -/
def refusal? (capability : Capability) : Option DeriveError :=
  if capability = .default ∧ definition.shape.isEnum then some (.defaultForEnum definition.name)
  else definition.shape.fields.findSome? (definition.fieldError? capability)

/-- What requirements come to, given the error that stands against them. -/
inductive Settled : Option DeriveError → Except Stop (List Requirement) → Prop where
  | refused (error : DeriveError) : Settled (some error) (.error (.refused error))
  | required (requirements : List Requirement)
      (declared : ∀ requirement ∈ requirements, requirement.param ∈ definition.typeParams) :
      Settled none (.ok requirements)

end

variable {definition : Definition} {phantoms : List String} {capability : Capability}
  {field : Field} {fields : List Field} {params : List String} {error : DeriveError}

theorem nameError?_isSome_iff : (definition.nameError? field capability params).isSome = true ↔
    ∃ param ∈ params, param ∉ definition.typeParams := by
  simp [nameError?]

theorem overrideError?_isSome_iff :
    (definition.overrideError? field capability).isSome = true ↔
      definition.Misnames field capability := by
  unfold overrideError? Misnames
  cases field.override? capability with
  | none => simp
  | some params => simp [nameError?_isSome_iff]

theorem misnames_of_override?_eq_none (absent : field.override? capability = none) :
    ¬ definition.Misnames field capability := by
  intro bad
  obtain ⟨params, present, _⟩ := bad
  rw [absent] at present
  cases present

theorem fieldError?_isSome_iff :
    (definition.fieldError? capability field).isSome = true ↔
      definition.Offends capability field := by
  rw [fieldError?, overrideError?_isSome_iff, Field.checkedFor, Offends]
  by_cases shares : capability = .eq ∧ field.skip = false ∧ field.override? .eq = none
  · rw [if_pos shares]
    obtain ⟨same, kept, absent⟩ := shares
    subst same
    have own : ¬ definition.Misnames field .eq := misnames_of_override?_eq_none absent
    simp [own, kept, absent]
  · rw [if_neg shares]
    constructor
    · exact .inl
    · intro either
      rcases either with own | ⟨same, kept, absent, _⟩
      · exact own
      · exact absurd ⟨same, kept, absent⟩ shares

theorem fieldError?_eq_none_iff :
    definition.fieldError? capability field = none ↔ ¬ definition.Offends capability field := by
  rw [← fieldError?_isSome_iff, Bool.not_eq_true, Option.isSome_eq_false_iff,
    Option.isNone_iff_eq_none]

/-- What stands against requirements is kept when they are changed without new parameters. -/
theorem Settled.map {found : Option DeriveError} {outcome : Except Stop (List Requirement)}
    (settled : definition.Settled found outcome)
    {change : List Requirement → List Requirement}
    (keeps : ∀ requirements, ∀ changed ∈ change requirements,
      ∃ requirement ∈ requirements, requirement.param = changed.param) :
    definition.Settled found (outcome >>= fun requirements => pure (change requirements)) := by
  cases settled with
  | refused error => exact .refused error
  | required requirements declared =>
    refine .required (change requirements) fun changed member => ?_
    obtain ⟨requirement, present, same⟩ := keeps requirements changed member
    exact same ▸ declared requirement present

theorem requirementsOfOverride_settled (field : Field) (capability : Capability)
    (params : List String) :
    definition.Settled (definition.nameError? field capability params)
      (definition.requirementsOfOverride field capability params) := by
  unfold nameError? requirementsOfOverride
  cases found : params.find? fun param => !definition.typeParams.contains param with
  | some param => exact .refused _
  | none =>
    refine .required _ fun requirement member => ?_
    obtain ⟨param, present, same⟩ := List.mem_map.mp member
    subst same
    simpa using List.find?_eq_none.mp found param present

section

variable (proper : field.type.Proper)

include proper

theorem inferredRequirements_settled (phantoms : List String) (capability : Capability) :
    definition.Settled none (definition.inferredRequirements phantoms field capability) := by
  rw [inferredRequirements, proper.mentioned]
  refine .required _ fun requirement member => ?_
  obtain ⟨param, present, same⟩ := List.mem_map.mp member
  subst same
  exact (List.mem_filter.mp present).1

theorem ownRequirements_settled (phantoms : List String) (capability : Capability) :
    definition.Settled (definition.overrideError? field capability)
      (definition.ownRequirements phantoms field capability) := by
  unfold overrideError? ownRequirements
  cases field.override? capability with
  | some params => exact requirementsOfOverride_settled field capability params
  | none => exact inferredRequirements_settled proper phantoms capability

/-- The requirements of a field fail exactly by the override that is checked. -/
theorem fieldRequirements_settled (phantoms : List String) (capability : Capability) :
    definition.Settled (definition.fieldError? capability field)
      (definition.fieldRequirements phantoms field capability) := by
  unfold fieldError? Field.checkedFor fieldRequirements
  cases explicit : field.override? capability with
  | some params =>
    have own : ¬ (capability = .eq ∧ field.skip = false ∧ field.override? .eq = none) := by
      intro shares
      obtain ⟨same, _, absent⟩ := shares
      rw [← same, explicit] at absent
      cases absent
    simp only [own, ↓reduceIte, overrideError?, explicit, Option.bind_some]
    refine (requirementsOfOverride_settled field capability params).map ?_
    intro requirements changed member
    split at member
    · simp at member
    · exact ⟨changed, member, rfl⟩
  | none =>
    cases skipped : field.skippedFor capability with
    | true =>
      have marked : field.skip = true := by
        simp only [Field.skippedFor, Bool.and_eq_true] at skipped
        exact skipped.1
      simp only [marked, overrideError?, explicit, Bool.true_eq_false, false_and, and_false,
        ↓reduceIte, Option.bind_none]
      exact .required [] (by simp)
    | false =>
      by_cases shares : capability = .eq
      · subst shares
        have kept : field.skip = false := by
          simpa [Field.skippedFor, Capability.honorsSkip] using skipped
        simp only [kept, explicit, and_self, ↓reduceIte, Bool.false_eq_true]
        refine (ownRequirements_settled proper phantoms .partialEq).map ?_
        intro requirements changed member
        obtain ⟨requirement, present, same⟩ := List.mem_map.mp member
        exact ⟨requirement, present, by rw [← same]⟩
      · simp only [shares, false_and, ↓reduceIte, overrideError?, explicit, Option.bind_none,
          Bool.false_eq_true]
        exact inferredRequirements_settled proper phantoms capability

end

/-- The first field that fails decides over all. -/
theorem requirementsOf_settled (proper : ∀ field ∈ fields, field.type.Proper)
    (phantoms : List String) (capability : Capability) :
    definition.Settled (fields.findSome? (definition.fieldError? capability))
      (definition.requirementsOf phantoms capability fields) := by
  induction fields with
  | nil => exact .required [] (by simp)
  | cons field rest ih =>
    obtain ⟨own, others⟩ := List.forall_mem_cons.mp proper
    have first : definition.Settled _ _ := fieldRequirements_settled own phantoms capability
    have after := ih others
    rw [List.findSome?_cons, requirementsOf]
    revert first
    generalize definition.fieldError? capability field = found
    generalize definition.fieldRequirements phantoms field capability = outcome
    intro first
    cases first with
    | refused error => exact .refused error
    | required requirements declared =>
      revert after
      generalize rest.findSome? (definition.fieldError? capability) = found
      generalize definition.requirementsOf phantoms capability rest = outcome
      intro after
      cases after with
      | refused error => exact .refused error
      | required more moreDeclared =>
        refine .required (requirements ++ more) fun requirement member => ?_
        rcases List.mem_append.mp member with early | late
        · exact declared requirement early
        · exact moreDeclared requirement late

/-- No body is missing but that of `Default` for an enum. -/
theorem body_eq_ok (possible : ¬ (capability = .default ∧ definition.shape.isEnum = true)) :
    ∃ lines, body definition capability = .ok lines := by
  obtain ⟨lines, derivable⟩ := exists_bodyLines_iff.mpr possible
  exact ⟨_, body_eq_ok_iff.mpr ⟨lines, derivable, rfl⟩⟩

theorem body_default_of_isEnum (enum : definition.shape.isEnum = true) :
    body definition .default = .error (.defaultForEnum definition.name) := by
  cases shape : definition.shape with
  | enum variants => simp [body, bodyLines, defaultBody, shape, Except.map]
  | struct fields => simp [shape, Shape.isEnum] at enum
  | tuple fields => simp [shape, Shape.isEnum] at enum

theorem mentionedIn_eq_ok {names : List String} {declared : List BoundedTo}
    (proper : ∀ bound ∈ declared, bound.type.Proper) :
    ∃ found, mentionedIn names declared = .ok found := by
  induction declared with
  | nil => exact ⟨[], rfl⟩
  | cons bound rest ih =>
    obtain ⟨own, others⟩ := List.forall_mem_cons.mp proper
    obtain ⟨found, restFound⟩ := ih others
    rw [mentionedIn, own.mentioned, restFound]
    exact ⟨_, rfl⟩

theorem renderBoundedTo_eq_ok (capability : Capability) {declared : List BoundedTo}
    (proper : ∀ bound ∈ declared, bound.type.Proper) :
    ∃ texts, renderBoundedTo capability declared = .ok texts := by
  induction declared with
  | nil => exact ⟨[], rfl⟩
  | cons bound rest ih =>
    obtain ⟨own, others⟩ := List.forall_mem_cons.mp proper
    obtain ⟨texts, restRendered⟩ := ih others
    rw [renderBoundedTo, own.render, restRendered]
    exact ⟨_, rfl⟩

/-- Requirements that name declared parameters only are consolidated. -/
theorem exists_consolidate {superseded : List String} {requirements : List Requirement}
    (found : definition.superseded capability = .ok superseded)
    (declared : ∀ requirement ∈ requirements, requirement.param ∈ definition.typeParams) :
    ∃ bounds, definition.consolidate capability requirements = .ok bounds := by
  have allDeclared : (requirements.find? fun requirement =>
      !definition.typeParams.contains requirement.param) = none := by
    simpa using declared
  simp only [consolidate, found, allDeclared]
  exact ⟨_, rfl⟩

section

variable (typed : definition.Typed)

include typed

theorem requirements_settled (possible : ¬ (capability = .default ∧ definition.shape.isEnum = true))
    (phantoms : List String) :
    definition.Settled (definition.refusal? capability)
      (definition.requirements phantoms capability) := by
  rw [refusal?, if_neg possible, requirements, if_neg possible]
  exact requirementsOf_settled typed.fields phantoms capability

theorem declaredBounds_proper {bound : BoundedTo}
    (member : bound ∈ definition.declaredBounds capability) : bound.type.Proper :=
  typed.bounds bound (List.mem_filter.mp member).1

theorem superseded_eq_ok (capability : Capability) :
    ∃ superseded, definition.superseded capability = .ok superseded :=
  mentionedIn_eq_ok fun _ member => declaredBounds_proper typed member

theorem consolidate_eq_ok (capability : Capability) {requirements : List Requirement}
    (declared : ∀ requirement ∈ requirements, requirement.param ∈ definition.typeParams) :
    ∃ bounds, definition.consolidate capability requirements = .ok bounds := by
  obtain ⟨superseded, found⟩ := superseded_eq_ok typed capability
  exact exists_consolidate found declared

theorem predicates_eq_ok (capability : Capability) (bounds : List Requirement) :
    ∃ predicates, definition.predicates capability bounds = .ok predicates := by
  obtain ⟨texts, rendered⟩ := renderBoundedTo_eq_ok capability fun _ member =>
    declaredBounds_proper typed member
  rw [Definition.predicates, rendered]
  exact ⟨_, rfl⟩

/-- A capability with an error against it is refused with that error. -/
theorem implFor_eq_error (phantoms : List String)
    (refused : definition.refusal? capability = some error) :
    definition.implFor phantoms capability = .error (.refused error) := by
  by_cases impossible : capability = .default ∧ definition.shape.isEnum = true
  · rw [refusal?, if_pos impossible] at refused
    cases refused
    obtain ⟨same, enum⟩ := impossible
    subst same
    rw [implFor, body_default_of_isEnum enum]
    rfl
  · obtain ⟨lines, derivable⟩ := body_eq_ok impossible
    have settled := requirements_settled typed impossible phantoms
    rw [refused] at settled
    rw [implFor, derivable]
    generalize definition.requirements phantoms capability = outcome at settled ⊢
    cases settled
    rfl

/-- A capability with no error against it has an impl. -/
theorem implFor_eq_ok (phantoms : List String) (free : definition.refusal? capability = none) :
    ∃ item, definition.implFor phantoms capability = .ok item := by
  have possible : ¬ (capability = .default ∧ definition.shape.isEnum = true) := by
    intro impossible
    rw [refusal?, if_pos impossible] at free
    cases free
  obtain ⟨lines, derivable⟩ := body_eq_ok possible
  have settled := requirements_settled typed possible phantoms
  rw [free] at settled
  generalize required : definition.requirements phantoms capability = outcome at settled
  cases settled with
  | required requirements declared =>
    obtain ⟨bounds, consolidated⟩ := consolidate_eq_ok typed capability declared
    obtain ⟨predicates, predicated⟩ := predicates_eq_ok typed capability bounds
    exact ⟨_, implFor_eq_ok_iff.mpr
      ⟨lines, requirements, bounds, predicates, derivable, required, consolidated, predicated, rfl⟩⟩

end

end Definition

end DeriveBounds
