import DeriveBounds.Proofs.Bounds.RequirementSet

/-!
Fields and variants in another order. What a field requires does not depend on its key, and what is
required of all fields is consolidated as a set, so the bounds and predicates of an impl are those
of the definition in any other order.
-/
namespace DeriveBounds

/-- All of a field but its key. -/
def Field.unkeyed (field : Field) : Field := { field with key := .position 0 }

/-- The same fields in another order; positions may be counted anew. -/
def Reordered (fields others : List Field) : Prop :=
  (fields.map Field.unkeyed).Perm (others.map Field.unkeyed)

/-- The same variants, but for the order of their fields. -/
structure Variant.Reorders (variant other : Variant) : Prop where
  name : variant.name = other.name
  style : variant.style = other.style
  fields : Reordered variant.fields other.fields

/-- The same shape with its variants and the fields of each list in another order. -/
inductive Shape.Reorders : Shape → Shape → Prop where
  | struct {fields others : List Field} (moved : Reordered fields others) :
      Reorders (.struct fields) (.struct others)
  | tuple {fields others : List Field} (moved : Reordered fields others) :
      Reorders (.tuple fields) (.tuple others)
  | enum {variants moved others : List Variant} (order : variants.Perm moved)
      (each : List.Forall₂ Variant.Reorders moved others) :
      Reorders (.enum variants) (.enum others)

namespace Shape.Reorders

variable {shape other : Shape}

theorem isEnum (reorders : shape.Reorders other) : shape.isEnum = other.isEnum := by
  cases reorders <;> rfl

theorem fields (reorders : shape.Reorders other) : Reordered shape.fields other.fields := by
  cases reorders with
  | struct moved => exact moved
  | tuple moved => exact moved
  | @enum variants middle others order each =>
    have moved : Reordered (variants.flatMap (·.fields)) (middle.flatMap (·.fields)) :=
      (order.flatMap_right _).map _
    have alike : Reordered (middle.flatMap (·.fields)) (others.flatMap (·.fields)) := by
      clear order moved
      induction each with
      | nil => exact .nil
      | cons first rest ih =>
        rw [Reordered, List.flatMap_cons, List.flatMap_cons, List.map_append, List.map_append]
        exact first.fields.append ih
    exact moved.trans alike

end Shape.Reorders

namespace Definition

variable {definition : Definition} {phantoms : List String} {capability : Capability}
  {field other : Field} {fields others : List Field} {requirement : Requirement}
  {requirements : List Requirement} {shape : Shape} {item : ImplItem}

/-- The key of a field matters only to the error of a bad override. -/
theorem fieldRequirements_unkeyed :
    definition.fieldRequirements phantoms field.unkeyed capability = .ok requirements ↔
      definition.fieldRequirements phantoms field capability = .ok requirements := by
  have overridden (params : List String) (tag : Capability) (required : List Requirement) :
      definition.requirementsOfOverride field.unkeyed tag params = .ok required ↔
        definition.requirementsOfOverride field tag params = .ok required := by
    rw [requirementsOfOverride_eq_ok_iff, requirementsOfOverride_eq_ok_iff]
  have own (tag : Capability) (required : List Requirement) :
      definition.ownRequirements phantoms field.unkeyed tag = .ok required ↔
        definition.ownRequirements phantoms field tag = .ok required := by
    have explicit : field.unkeyed.override? tag = field.override? tag := rfl
    unfold ownRequirements
    rw [explicit]
    cases field.override? tag with
    | some params => exact overridden params tag required
    | none => rfl
  have explicit : field.unkeyed.override? capability = field.override? capability := rfl
  have skipped : field.unkeyed.skippedFor capability = field.skippedFor capability := rfl
  unfold fieldRequirements
  rw [explicit, skipped]
  cases field.override? capability with
  | some params => simp only [bind_eq_ok_iff, overridden]
  | none =>
    simp only
    split
    · rfl
    · split
      · simp only [bind_eq_ok_iff, own]
      · rfl

theorem exists_requirementsOf_iff :
    (∃ requirements, definition.requirementsOf phantoms capability fields = .ok requirements) ↔
      ∀ field ∈ fields, ∃ requirements,
        definition.fieldRequirements phantoms field capability = .ok requirements := by
  induction fields with
  | nil => simp [requirementsOf]
  | cons field rest ih =>
    rw [List.forall_mem_cons, ← ih]
    simp only [requirementsOf, bind_eq_ok_iff, pure_eq_ok_iff]
    constructor
    · intro all
      obtain ⟨_, first, firstRequired, more, moreRequired, _⟩ := all
      exact ⟨⟨first, firstRequired⟩, more, moreRequired⟩
    · intro parts
      obtain ⟨⟨first, firstRequired⟩, more, moreRequired⟩ := parts
      exact ⟨_, first, firstRequired, more, moreRequired, rfl⟩

end Definition

namespace Reordered

variable {fields others : List Field} {holds : Field → Prop}

/-- What holds of a field whatever its key is holds of some field in every order. -/
theorem exists_iff (moved : Reordered fields others)
    (keyless : ∀ field : Field, holds field.unkeyed ↔ holds field) :
    (∃ field ∈ fields, holds field) ↔ ∃ field ∈ others, holds field := by
  have unkeyed (fields : List Field) :
      (∃ field ∈ fields, holds field) ↔ ∃ field ∈ fields.map Field.unkeyed, holds field := by
    simp [keyless]
  rw [unkeyed fields, unkeyed others]
  exact exists_congr fun field => and_congr_left' moved.mem_iff

theorem forall_iff (moved : Reordered fields others)
    (keyless : ∀ field : Field, holds field.unkeyed ↔ holds field) :
    (∀ field ∈ fields, holds field) ↔ ∀ field ∈ others, holds field := by
  have unkeyed (fields : List Field) :
      (∀ field ∈ fields, holds field) ↔ ∀ field ∈ fields.map Field.unkeyed, holds field := by
    simp only [List.forall_mem_map, keyless]
  rw [unkeyed fields, unkeyed others]
  exact forall_congr' fun field => imp_congr_left moved.mem_iff

end Reordered

namespace Definition

variable {definition : Definition} {phantoms : List String} {capability : Capability}
  {superseded : List String} {requirements : List Requirement} {shape : Shape} {item : ImplItem}

/-- Fields are read with the name and the parameters of the definition only. -/
theorem requirementsOf_with_shape (fields : List Field) :
    { definition with shape }.requirementsOf phantoms capability fields =
      definition.requirementsOf phantoms capability fields := by
  induction fields with
  | nil => rfl
  | cons field rest ih =>
    have first : { definition with shape }.fieldRequirements phantoms field capability =
        definition.fieldRequirements phantoms field capability := rfl
    rw [requirementsOf, requirementsOf, first, ih]

/-- What is required of the fields is required of them in every order. -/
theorem requirements_reordered (reorders : definition.shape.Reorders shape)
    (required : definition.requirements phantoms capability = .ok requirements) :
    ∃ others, { definition with shape }.requirements phantoms capability = .ok others ∧
      ∀ record, record ∈ others ↔ record ∈ requirements := by
  by_cases impossible : capability = .default ∧ definition.shape.isEnum = true
  · have alsoImpossible : capability = .default ∧ shape.isEnum = true :=
      reorders.isEnum ▸ impossible
    rw [Definition.requirements, if_pos impossible] at required
    rw [Definition.requirements, if_pos alsoImpossible]
    cases required
    exact ⟨_, rfl, fun _ => .rfl⟩
  · have alsoPossible : ¬ (capability = .default ∧ shape.isEnum = true) :=
      reorders.isEnum ▸ impossible
    rw [Definition.requirements, if_neg impossible] at required
    rw [Definition.requirements, if_neg alsoPossible, requirementsOf_with_shape]
    have each := exists_requirementsOf_iff.mp ⟨_, required⟩
    rw [reorders.fields.forall_iff fun _ => exists_congr fun _ => fieldRequirements_unkeyed] at each
    obtain ⟨others, othersRequired⟩ := exists_requirementsOf_iff.mpr each
    refine ⟨others, othersRequired, fun record => ?_⟩
    rw [mem_requirementsOf othersRequired, mem_requirementsOf required]
    have keyless (field : Field) : definition.Requires phantoms capability field.unkeyed record ↔
        definition.Requires phantoms capability field record := by
      constructor <;> intro requires
      · obtain ⟨active, tagged, asked⟩ := requires
        exact ⟨active, tagged, asked⟩
      · obtain ⟨active, tagged, asked⟩ := requires
        exact ⟨active, tagged, asked⟩
    exact (reorders.fields.exists_iff keyless).symm

/-- No impl knows in which order its fields and variants come, but for its body. -/
theorem implFor_reordered (distinct : definition.typeParams.Nodup)
    (reorders : definition.shape.Reorders shape)
    (derived : definition.implFor phantoms capability = .ok item) :
    ∃ other, { definition with shape }.implFor phantoms capability = .ok other ∧
      other.bounds = item.bounds ∧ other.predicates = item.predicates := by
  obtain ⟨lines, requirements, bounds, predicates, written, required, consolidated, predicated,
    same⟩ := implFor_eq_ok_iff.mp derived
  subst same
  obtain ⟨others, othersRequired, alike⟩ := requirements_reordered reorders required
  obtain ⟨superseded, found, _⟩ := Consolidated.of_consolidate consolidated
  have known : ∀ requirement ∈ requirements, requirement.Known := by
    intro requirement member
    obtain ⟨_, _, requires⟩ := (mem_requirements written required).mp member
    exact requires.origin_eq
  have possible : ¬ (capability = .default ∧ shape.isEnum = true) := by
    rw [← reorders.isEnum]
    intro impossible
    obtain ⟨same, enum⟩ := impossible
    subst same
    rw [body_default_of_isEnum enum] at written
    cases written
  obtain ⟨otherLines, otherWritten⟩ :
      ∃ lines, body { definition with shape } capability = .ok lines :=
    body_eq_ok possible
  have bounded : definition.consolidate capability others = .ok bounds :=
    (Consolidates.of_eq_ok found distinct known consolidated).alike others alike
  refine ⟨_, implFor_eq_ok_iff.mpr ⟨otherLines, others, bounds, predicates, otherWritten,
    othersRequired, bounded, predicated, rfl⟩, rfl, rfl⟩

/-- Consolidation refuses exactly what names an undeclared parameter. Otherwise its outcome depends
on no more than which requirements there are, comes in strict order, and can be consolidated again,
alone or with another; so no order of fields or variants makes a difference to the bounds and
predicates of an impl. -/
theorem consolidate_canonical (distinct : definition.typeParams.Nodup)
    (parsed : ∀ bound ∈ definition.boundedTo, ∃ text, parseType text = .ok bound.type)
    (capability : Capability) :
    (∀ requirements : List Requirement, (∀ requirement ∈ requirements, requirement.Known) →
        ((∃ error, definition.consolidate capability requirements = .error (.refused error) ∧
            error.code = .invalidOverride) ↔
          ∃ requirement ∈ requirements, requirement.param ∉ definition.typeParams) ∧
        ((∀ requirement ∈ requirements, requirement.param ∈ definition.typeParams) →
          ∃ bounds, definition.Consolidates capability requirements bounds)) ∧
      (∀ first second : List Requirement, (∀ requirement ∈ first ++ second, requirement.Known) →
        (∀ requirement ∈ first ++ second, requirement.param ∈ definition.typeParams) →
        ∃ firstBounds secondBounds bounds,
          definition.consolidate capability first = .ok firstBounds ∧
          definition.consolidate capability second = .ok secondBounds ∧
          definition.consolidate capability (first ++ second) = .ok bounds ∧
          definition.consolidate capability (firstBounds ++ secondBounds) = .ok bounds) ∧
      ∀ shape phantoms item, definition.shape.Reorders shape →
        definition.implFor phantoms capability = .ok item →
        ∃ other, { definition with shape }.implFor phantoms capability = .ok other ∧
          other.bounds = item.bounds ∧ other.predicates = item.predicates := by
  have proper : ∀ bound ∈ definition.declaredBounds capability, bound.type.Proper := by
    intro bound member
    obtain ⟨_, read⟩ := parsed bound (List.mem_filter.mp member).1
    exact parseType_proper read
  obtain ⟨superseded, found⟩ : ∃ superseded, definition.superseded capability = .ok superseded :=
    mentionedIn_eq_ok proper
  refine ⟨?_, ?_, fun shape phantoms item => implFor_reordered distinct⟩
  · intro requirements known
    refine ⟨⟨?_, consolidate_undeclared found⟩, ?_⟩
    · intro refused
      obtain ⟨error, refused, _⟩ := refused
      by_contra declared
      obtain ⟨bounds, consolidated⟩ := exists_consolidate found (by simpa using declared)
      rw [refused] at consolidated
      cases consolidated
    · intro declared
      obtain ⟨bounds, consolidated⟩ := exists_consolidate found declared
      exact ⟨bounds, .of_eq_ok found distinct known consolidated⟩
  · intro first second known declared
    obtain ⟨firstKnown, secondKnown⟩ := List.forall_mem_append.mp known
    obtain ⟨firstDeclared, secondDeclared⟩ := List.forall_mem_append.mp declared
    obtain ⟨firstBounds, firstConsolidated⟩ := exists_consolidate found firstDeclared
    obtain ⟨secondBounds, secondConsolidated⟩ := exists_consolidate found secondDeclared
    obtain ⟨bounds, consolidated⟩ := exists_consolidate found declared
    refine ⟨firstBounds, secondBounds, bounds, firstConsolidated, secondConsolidated,
      consolidated, ?_⟩
    rw [← consolidated]
    exact Consolidates.append found distinct firstKnown secondKnown firstConsolidated
      secondConsolidated

/-- A struct whose parameter `T` has a declared bound in its stead. -/
private def orderedDefinition : Definition :=
  let field (index : Int) (name : String) (overrides : List Override) : Field :=
    ⟨.position index, .path false [.mk name []], false, overrides⟩
  ⟨"Pair", [⟨"T", .type, none, none⟩, ⟨"U", .type, none, none⟩, ⟨"V", .type, none, none⟩],
    .tuple [field 0 "V" [], field 1 "U" [⟨.clone, ["U"]⟩], field 2 "T" []],
    [⟨.path false [.mk "T" [], .mk "Item" []], none⟩], []⟩

private def orderedShape : Shape :=
  let field (index : Int) (name : String) (overrides : List Override) : Field :=
    ⟨.position index, .path false [.mk name []], false, overrides⟩
  .tuple [field 0 "U" [⟨.clone, ["U"]⟩], field 1 "V" [], field 2 "T" []]

private def orderedRequirements : List Requirement :=
  [⟨"V", .clone, .inferred⟩, ⟨"U", .clone, .override⟩, ⟨"T", .clone, .inferred⟩,
    ⟨"U", .clone, .inferred⟩]

private def orderedItem : ImplItem :=
  ⟨"Pair", .clone, [⟨"U", .clone, .override⟩, ⟨"V", .clone, .inferred⟩],
    ["T::Item: ::core::clone::Clone", "U: ::core::clone::Clone", "V: ::core::clone::Clone"],
    Text.join "\n" [
      "fn clone(&self) -> Self \x7b",
      "    Self(",
      "        ::core::clone::Clone::clone(&self.0),",
      "        ::core::clone::Clone::clone(&self.1),",
      "        ::core::clone::Clone::clone(&self.2),",
      "    )",
      "\x7d"]⟩

theorem consolidate_canonical_sample :
    orderedDefinition.typeParams.Nodup ∧
      (∀ bound ∈ orderedDefinition.boundedTo, ∃ text, parseType text = .ok bound.type) ∧
      (∃ bounds, orderedDefinition.Consolidates .clone orderedRequirements bounds) ∧
      (∃ bounds, orderedDefinition.consolidate .clone (orderedRequirements ++
          orderedRequirements) = .ok bounds) ∧
      orderedDefinition.implFor defaultPhantoms .clone = .ok orderedItem ∧
      ∃ other, { orderedDefinition with shape := orderedShape }.implFor defaultPhantoms .clone =
          .ok other ∧ other.bounds = orderedItem.bounds := by
  have distinct : orderedDefinition.typeParams.Nodup := by decide
  have read : parseType "T::Item" = .ok (.path false [.mk "T" [], .mk "Item" []]) := by cbv
  have parsed : ∀ bound ∈ orderedDefinition.boundedTo, ∃ text, parseType text = .ok bound.type :=
    List.forall_mem_singleton.mpr ⟨"T::Item", read⟩
  have known : ∀ requirement ∈ orderedRequirements, requirement.Known := by
    simp [orderedRequirements, Requirement.Known]
  have declared : ∀ requirement ∈ orderedRequirements,
      requirement.param ∈ orderedDefinition.typeParams := by decide
  have reorders : orderedDefinition.shape.Reorders orderedShape := .tuple (.swap ..)
  have derived : orderedDefinition.implFor defaultPhantoms .clone = .ok orderedItem := by cbv
  obtain ⟨consolidates, merges, moves⟩ := consolidate_canonical distinct parsed .clone
  obtain ⟨other, otherDerived, bounds, _⟩ := moves _ _ _ reorders derived
  obtain ⟨_, _, both, _, _, merged, _⟩ := merges orderedRequirements orderedRequirements
    (List.forall_mem_append.mpr ⟨known, known⟩) (List.forall_mem_append.mpr ⟨declared, declared⟩)
  exact ⟨distinct, parsed, (consolidates _ known).2 declared, ⟨both, merged⟩, derived, other,
    otherDerived, bounds⟩

end Definition

end DeriveBounds
