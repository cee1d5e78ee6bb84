import DeriveBounds.Proofs.Outcome
import DeriveBounds.Requirement

/-!
Which requirements the fields of a definition make, said field by field: an override asks for the
parameters it names, and a field without one for those its type mentions.
-/
namespace DeriveBounds

/-- Whether an expression mentions one of the names. -/
def TypeExpr.mentions (phantoms names : List String) (type : TypeExpr) (name : String) : Bool :=
  match type.mentioned phantoms names with
  | .ok found => found.contains name
  | .error _ => false

theorem TypeExpr.mentions_eq_true_iff {type : TypeExpr} {found : List String}
    (mentioned : type.mentioned phantoms names = .ok found) :
    type.mentions phantoms names name = true ↔ name ∈ found := by
  simp [mentions, mentioned]

namespace Field

/-- A skipped field takes no part in `Debug`, `PartialEq` and `Eq`. -/
def activeFor (field : Field) (capability : Capability) : Bool :=
  !(field.skip && [Capability.debug, .partialEq, .eq].contains capability)

/-- The override that decides for a capability: its own, or for `Eq` that of `PartialEq`. -/
def effectiveOverride? (field : Field) (capability : Capability) : Option (List String) :=
  match field.override? capability with
  | some params => some params
  | none => if capability = .eq then field.override? .partialEq else none

theorem activeFor_eq_not_skippedFor (field : Field) (capability : Capability) :
    field.activeFor capability = !field.skippedFor capability := by
  cases capability <;> rfl

end Field

namespace Definition

/-- What a field asks for, given the override that decides for it. -/
def Asks (definition : Definition) (phantoms : List String) (field : Field) (param : String)
    (origin : Origin) : Option (List String) → Prop
  | some params => param ∈ params ∧ origin = .override
  | none => field.type.mentions phantoms definition.typeParams param = true ∧ origin = .inferred

/-- What one field requires for a capability. -/
structure Requires (definition : Definition) (phantoms : List String) (capability : Capability)
    (field : Field) (requirement : Requirement) : Prop where
  active : field.activeFor capability = true
  tagged : requirement.capability = capability
  asked : definition.Asks phantoms field requirement.param requirement.origin
    (field.effectiveOverride? capability)

variable {definition : Definition} {phantoms : List String} {capability : Capability}
  {field : Field} {params : List String} {requirement : Requirement}
  {requirements : List Requirement}

theorem requirementsOfOverride_eq_ok_iff :
    definition.requirementsOfOverride field capability params = .ok requirements ↔
      (∀ param ∈ params, param ∈ definition.typeParams) ∧
        requirements = params.map fun param => ⟨param, capability, .override⟩ := by
  unfold requirementsOfOverride
  split
  · rename_i param found
    have undeclared := List.find?_some found
    have member := List.mem_of_find?_eq_some found
    simp only [reduceCtorEq, false_iff, not_and]
    intro declared
    have present := declared param member
    simp [present] at undeclared
  · rename_i allDeclared
    have declared : ∀ param ∈ params, param ∈ definition.typeParams := by
      intro param member
      simpa using List.find?_eq_none.mp allDeclared param member
    constructor
    · intro same
      cases same
      exact ⟨declared, rfl⟩
    · intro parts
      obtain ⟨_, same⟩ := parts
      rw [same]

theorem inferredRequirements_eq_ok_iff :
    definition.inferredRequirements phantoms field capability = .ok requirements ↔
      ∃ found, field.type.mentioned phantoms definition.typeParams = .ok found ∧
        requirements = found.map fun param => ⟨param, capability, .inferred⟩ := by
  unfold inferredRequirements
  split
  · rename_i tree failed
    simp [failed]
  · rename_i found mentioned
    simp [mentioned, eq_comm]

theorem mem_requirementsOfOverride
    (required : definition.requirementsOfOverride field capability params = .ok requirements) :
    requirement ∈ requirements ↔ requirement.capability = capability ∧
      definition.Asks phantoms field requirement.param requirement.origin (some params) := by
  obtain ⟨_, same⟩ := requirementsOfOverride_eq_ok_iff.mp required
  subst same
  rw [List.mem_map, Asks]
  constructor
  · intro parts
    obtain ⟨param, named, same⟩ := parts
    subst same
    exact ⟨rfl, named, rfl⟩
  · intro parts
    obtain ⟨tagged, named, origin⟩ := parts
    exact ⟨requirement.param, named, by rw [← tagged, ← origin]⟩

theorem mem_inferredRequirements
    (required : definition.inferredRequirements phantoms field capability = .ok requirements) :
    requirement ∈ requirements ↔ requirement.capability = capability ∧
      definition.Asks phantoms field requirement.param requirement.origin none := by
  obtain ⟨found, mentioned, same⟩ := inferredRequirements_eq_ok_iff.mp required
  subst same
  rw [List.mem_map, Asks, TypeExpr.mentions_eq_true_iff mentioned]
  constructor
  · intro parts
    obtain ⟨param, member, same⟩ := parts
    subst same
    exact ⟨rfl, member, rfl⟩
  · intro parts
    obtain ⟨tagged, member, origin⟩ := parts
    exact ⟨requirement.param, member, by rw [← tagged, ← origin]⟩

theorem mem_ownRequirements
    (required : definition.ownRequirements phantoms field capability = .ok requirements) :
    requirement ∈ requirements ↔ requirement.capability = capability ∧
      definition.Asks phantoms field requirement.param requirement.origin
        (field.override? capability) := by
  unfold ownRequirements at required
  split at required
  · rename_i params explicit
    rw [explicit]
    exact mem_requirementsOfOverride required
  · rename_i absent
    rw [absent]
    exact mem_inferredRequirements required

theorem fieldRequirements_inactive (inactive : field.activeFor capability = false)
    (required : definition.fieldRequirements phantoms field capability = .ok requirements) :
    requirements = [] := by
  have skipped : field.skippedFor capability = true := by
    simpa [Field.activeFor_eq_not_skippedFor] using inactive
  simp only [fieldRequirements, skipped, ↓reduceIte] at required
  split at required
  · obtain ⟨_, _, same⟩ := bind_eq_ok_iff.mp required
    cases same
    rfl
  · cases required
    rfl

theorem mem_fieldRequirements
    (required : definition.fieldRequirements phantoms field capability = .ok requirements) :
    requirement ∈ requirements ↔ definition.Requires phantoms capability field requirement := by
  cases active : field.activeFor capability with
  | false =>
    rw [fieldRequirements_inactive active required]
    simp only [List.not_mem_nil, false_iff]
    intro requires
    exact absurd requires.active (by simp [active])
  | true =>
    have kept : field.skippedFor capability = false := by
      simpa [Field.activeFor_eq_not_skippedFor] using active
    have requires_iff : definition.Requires phantoms capability field requirement ↔
        requirement.capability = capability ∧
          definition.Asks phantoms field requirement.param requirement.origin
            (field.effectiveOverride? capability) :=
      ⟨fun requires => ⟨requires.tagged, requires.asked⟩, fun ⟨tagged, asked⟩ =>
        ⟨active, tagged, asked⟩⟩
    rw [requires_iff]
    simp only [fieldRequirements, kept, Bool.false_eq_true, ↓reduceIte] at required
    split at required
    · rename_i params explicit
      have chosen : field.effectiveOverride? capability = some params := by
        simp only [Field.effectiveOverride?, explicit]
      simp only [bind_eq_ok_iff, pure_eq_ok_iff, exists_eq_right] at required
      rw [chosen]
      exact mem_requirementsOfOverride required
    · rename_i absent
      have chosen : field.effectiveOverride? capability =
          if capability = .eq then field.override? .partialEq else none := by
        simp only [Field.effectiveOverride?, absent]
      rw [chosen]
      by_cases borrows : capability = .eq
      · subst borrows
        simp only [↓reduceIte, bind_eq_ok_iff, pure_eq_ok_iff] at required
        obtain ⟨borrowed, own, same⟩ := required
        subst same
        rw [List.mem_map]
        constructor
        · intro parts
          obtain ⟨source, member, same⟩ := parts
          subst same
          exact ⟨rfl, ((mem_ownRequirements own).mp member).2⟩
        · intro parts
          obtain ⟨tagged, asked⟩ := parts
          exact ⟨{ requirement with capability := .partialEq },
            (mem_ownRequirements own).mpr ⟨rfl, asked⟩, by rw [← tagged]⟩
      · simp only [borrows, ↓reduceIte] at required ⊢
        exact mem_inferredRequirements required

theorem mem_requirementsOf {fields : List Field}
    (required : definition.requirementsOf phantoms capability fields = .ok requirements) :
    requirement ∈ requirements ↔
      ∃ field ∈ fields, definition.Requires phantoms capability field requirement := by
  induction fields generalizing requirements with
  | nil =>
    cases required
    simp
  | cons field rest ih =>
    simp only [requirementsOf, bind_eq_ok_iff, pure_eq_ok_iff] at required
    obtain ⟨first, firstRead, others, othersRead, same⟩ := required
    subst same
    rw [List.mem_append, mem_fieldRequirements firstRead, ih othersRead]
    simp

end Definition

end DeriveBounds
