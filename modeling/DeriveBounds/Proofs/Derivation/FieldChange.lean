import DeriveBounds.Proofs.Body.FieldChange
import DeriveBounds.Proofs.Derivation.Batch

/-!
Derivations of two definitions that differ in their fields only. An attempt reads of a field what
its body shows and what it requires, so a change that keeps both keeps the attempt, and what a
derivation comes to for one capability depends on that attempt alone.
-/
namespace DeriveBounds

/-- What a derivation comes to for one capability. -/
def Derivation.outcome (result : Derivation) (capability : Capability) :
    List ImplItem × List Failure :=
  (result.impls.filter (·.capability = capability),
    result.failures.filter (·.capability = some capability))

variable {change : Field → Field} {phantoms : List String} {capability : Capability}
  {definition other : Definition} {requested : List Capability}

@[simp] theorem Shape.isEnum_mapFields (shape : Shape) :
    (shape.mapFields change).isEnum = shape.isEnum := by
  cases shape <;> rfl

theorem Shape.fields_mapFields (shape : Shape) :
    (shape.mapFields change).fields = shape.fields.map change := by
  cases shape with
  | struct fields => rfl
  | tuple fields => rfl
  | enum variants => simp [mapFields, fields, Variant.mapFields, List.map_flatMap, List.flatMap_map]

namespace Definition

section

variable (required : ∀ field, definition.fieldRequirements phantoms (change field) capability =
  definition.fieldRequirements phantoms field capability)

include required

theorem requirementsOf_mapFields (fields : List Field) :
    (definition.mapFields change).requirementsOf phantoms capability (fields.map change) =
      definition.requirementsOf phantoms capability fields := by
  induction fields with
  | nil => rfl
  | cons field rest ih =>
    -- what a field requires is read with the name and the parameters of the definition
    have first :
        (definition.mapFields change).fieldRequirements phantoms (change field) capability =
          definition.fieldRequirements phantoms field capability := required field
    rw [List.map_cons, requirementsOf, requirementsOf, first, ih]

theorem requirements_mapFields : (definition.mapFields change).requirements phantoms capability =
    definition.requirements phantoms capability := by
  rw [requirements, requirements, shape_mapFields, Shape.isEnum_mapFields, Shape.fields_mapFields,
    requirementsOf_mapFields required]

/-- An attempt sees of a changed field its key, its skip mark where the body looks at it, and what
it requires. -/
theorem implFor_mapFields (named : ∀ field, (change field).key = field.key)
    (kept : capability.honorsSkip = true → ∀ field, (change field).skip = field.skip) :
    (definition.mapFields change).implFor phantoms capability =
      definition.implFor phantoms capability := by
  rw [implFor, implFor, body_mapFields named kept, requirements_mapFields required]
  rfl

end

/-- What definitions share that are the same once their fields are changed. -/
structure SharesFrame (change : Field → Field) (other definition : Definition) : Prop where
  name : other.name = definition.name
  params : other.params = definition.params
  boundedTo : other.boundedTo = definition.boundedTo
  isEnum : other.shape.isEnum = definition.shape.isEnum
  fields : other.shape.fields.map change = definition.shape.fields.map change

theorem SharesFrame.of_eq (same : other.mapFields change = definition.mapFields change) :
    SharesFrame change other definition := by
  obtain ⟨name, params, shape, boundedTo, derives⟩ := other
  injection same with names parameters shapes bounds
  refine ⟨names, parameters, bounds, ?_, ?_⟩
  · rw [← Shape.isEnum_mapFields, shapes, Shape.isEnum_mapFields]
  · rw [← Shape.fields_mapFields, shapes, Shape.fields_mapFields]

theorem SharesFrame.source (frame : SharesFrame change other definition) {field : Field}
    (member : field ∈ other.shape.fields) :
    ∃ source ∈ definition.shape.fields, change source = change field := by
  have present : change field ∈ other.shape.fields.map change := List.mem_map_of_mem member
  rw [frame.fields] at present
  exact List.mem_map.mp present

/-- Definitions that are the same once their fields are changed come to the same attempt. -/
theorem implFor_congr (same : other.mapFields change = definition.mapFields change)
    (named : ∀ field, (change field).key = field.key)
    (kept : capability.honorsSkip = true → ∀ field, (change field).skip = field.skip)
    (required : ∀ (definition : Definition) field,
      definition.fieldRequirements phantoms (change field) capability =
        definition.fieldRequirements phantoms field capability) :
    other.implFor phantoms capability = definition.implFor phantoms capability := by
  rw [← implFor_mapFields (required other) named kept, same,
    implFor_mapFields (required definition) named kept]

end Definition

theorem attempts_congr (same : ∀ capability ∈ requested,
    other.implFor phantoms capability = definition.implFor phantoms capability) :
    attempts other requested phantoms = attempts definition requested phantoms := by
  apply List.map_congr_left
  intro capability member
  rw [same capability (Capability.mem_ordered_iff.mp member)]

/-- A failure mentions of the definition no more than its name. -/
theorem failure?_congr (named : other.name = definition.name) :
    Attempt.failure? other = Attempt.failure? definition := by
  funext attempt
  simp only [Attempt.failure?, Failure.ofRefusal, named]

theorem outcome_derivationOf_congr (named : other.name = definition.name)
    (same : other.implFor phantoms capability = definition.implFor phantoms capability) :
    (derivationOf other requested phantoms).outcome capability =
      (derivationOf definition requested phantoms).outcome capability := by
  have alike : (attempts other requested phantoms).filter (·.1 = capability) =
      (attempts definition requested phantoms).filter (·.1 = capability) := by
    rw [attempts, attempts, List.filter_map, List.filter_map]
    apply List.map_congr_left
    intro tried member
    have chosen : tried = capability := by simpa using (List.mem_filter.mp member).2
    rw [chosen, same]
  simp only [Derivation.outcome, derivationOf]
  rw [impls_filter, impls_filter, failures_filter, failures_filter, alike, failure?_congr named]

end DeriveBounds
