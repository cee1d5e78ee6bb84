import DeriveBounds.Proofs.Derivation.FieldChange
import DeriveBounds.Proofs.Derivation.SharedBounds
import DeriveBounds.Proofs.TypeExpr.Markers

/-!
Phantom markers in a derivation. With more markers there are fewer bounds and nothing else changes;
what stands behind a marker has no influence at all.
-/
namespace DeriveBounds

/-- The field without the arguments of the markers in its type. -/
def Field.cleared (phantoms : List String) (field : Field) : Field :=
  { field with type := field.type.cleared phantoms }

/-- The definition without the arguments of the markers in its fields. The declared bounds are kept
as they are. -/
def Definition.cleared (phantoms : List String) (definition : Definition) : Definition :=
  definition.mapFields (Field.cleared phantoms)

/-- The same impl but for its bounds, each of which the other has. -/
structure ImplItem.Relaxes (item other : ImplItem) : Prop where
  type : item.type = other.type
  capability : item.capability = other.capability
  body : item.body = other.body
  bounds : item.bounds.Sublist other.bounds
  predicates : ∀ predicate ∈ item.predicates, predicate ∈ other.predicates

/-- Results for the same capabilities, with the same failures, and impls with fewer bounds. -/
structure Derivation.Relaxes (result other : Derivation) : Prop where
  impls : List.Forall₂ ImplItem.Relaxes result.impls other.impls
  failures : result.failures = other.failures

variable {few many phantoms : List String} {capability : Capability}
  {definition other : Definition} {element : Xml.Element} {item wider : ImplItem} {param : String}

theorem TypeExpr.Proper.mentions_mono {type : TypeExpr} (proper : type.Proper) (more : few ⊆ many)
    {names : List String} (mentioned : type.mentions many names param = true) :
    type.mentions few names param = true := by
  rw [mentions_eq_true_iff (proper.mentioned names), List.mem_filter] at mentioned ⊢
  obtain ⟨named, found⟩ := mentioned
  rw [List.contains_iff_mem] at found ⊢
  exact ⟨named, (type.heads_sublist more).subset found⟩

theorem sublist_filterMap {items : List α} {first second : α → Option β}
    (less : ∀ item value, first item = some value → second item = some value) :
    (items.filterMap first).Sublist (items.filterMap second) := by
  induction items with
  | nil => exact .slnil
  | cons item rest ih =>
    rw [List.filterMap_cons, List.filterMap_cons]
    cases found : first item with
    | some value =>
      rw [less item value found]
      exact ih.cons_cons value
    | none =>
      cases second item with
      | none => exact ih
      | some value => exact ih.cons value

namespace Definition

section

variable (typed : definition.Typed) (more : few ⊆ many)

include typed more

theorem infers_mono (inferred : definition.infers many capability param = true) :
    definition.infers few capability param = true := by
  obtain ⟨field, member, due⟩ := List.any_eq_true.mp inferred
  obtain ⟨taking, mentioned⟩ := Bool.and_eq_true_iff.mp due
  have still := (typed.fields field member).mentions_mono more mentioned
  exact List.any_eq_true.mpr ⟨field, member, Bool.and_eq_true_iff.mpr ⟨taking, still⟩⟩

/-- Overrides and declared bounds do not look at the markers, so a bound only goes with its
inference. -/
theorem expectedBound_mono {requirement : Requirement}
    (expected : definition.expectedBound many capability param = some requirement) :
    definition.expectedBound few capability param = some requirement := by
  unfold expectedBound at expected ⊢
  split
  · rename_i overridden
    rwa [if_pos overridden] at expected
  · rename_i overridden
    rw [if_neg overridden] at expected
    split at expected
    · rename_i due
      obtain ⟨standing, inferred⟩ := Bool.and_eq_true_iff.mp due
      rwa [if_pos (Bool.and_eq_true_iff.mpr ⟨standing, infers_mono typed more inferred⟩)]
    · cases expected

end

theorem Predicate.mono {fewer bounds : List Requirement} (less : fewer ⊆ bounds)
    {predicate : String} (due : definition.Predicate capability fewer predicate) :
    definition.Predicate capability bounds predicate := by
  cases due with
  | declared member given => exact .declared member given
  | boundedTo member covers rendered => exact .boundedTo member covers rendered
  | found member => exact .found (less member)

theorem implFor_relaxes (parts : Classified element definition) (more : few ⊆ many)
    (narrow : definition.implFor many capability = .ok item)
    (wide : definition.implFor few capability = .ok wider) : item.Relaxes wider := by
  obtain ⟨bounds, predicates⟩ := implFor_bounds parts narrow
  obtain ⟨widerBounds, widerPredicates⟩ := implFor_bounds parts wide
  have less : item.bounds.Sublist wider.bounds := by
    rw [bounds, widerBounds]
    exact sublist_filterMap fun _ _ expected => expectedBound_mono parts.typed more expected
  obtain ⟨lines, _, _, _, written, _, _, _, same⟩ := implFor_eq_ok_iff.mp narrow
  obtain ⟨others, _, _, _, alsoWritten, _, _, _, alsoSame⟩ := implFor_eq_ok_iff.mp wide
  rw [written] at alsoWritten
  cases alsoWritten
  constructor
  case type => rw [same, alsoSame]
  case capability => rw [same, alsoSame]
  case body => rw [same, alsoSame]
  case bounds => exact less
  case predicates =>
    intro predicate member
    rw [widerPredicates]
    exact ((predicates predicate).mp member).mono less.subset

theorem fieldRequirements_cleared (definition : Definition) (field : Field) :
    definition.fieldRequirements phantoms (field.cleared phantoms) capability =
      definition.fieldRequirements phantoms field capability := by
  have inferred (capability : Capability) :
      definition.inferredRequirements phantoms (field.cleared phantoms) capability =
        definition.inferredRequirements phantoms field capability := by
    simp only [inferredRequirements, Field.cleared, TypeExpr.mentioned_cleared]
  rw [fieldRequirements, fieldRequirements, ownRequirements, ownRequirements, inferred, inferred]
  rfl

theorem implFor_of_cleared_eq (same : other.cleared phantoms = definition.cleared phantoms) :
    other.implFor phantoms capability = definition.implFor phantoms capability :=
  implFor_congr same (fun _ => rfl) (fun _ _ => rfl) fieldRequirements_cleared

end Definition

open Definition

theorem derivationOf_relaxes (parts : Classified element definition) (more : few ⊆ many)
    (requested : List Capability) :
    (derivationOf definition requested many).Relaxes (derivationOf definition requested few) where
  impls := by
    have attempted : List.Forall₂
        (fun narrow wide : Attempt => Option.Rel ImplItem.Relaxes narrow.impl? wide.impl?)
        (attempts definition requested many) (attempts definition requested few) := by
      rw [attempts, attempts, List.forall₂_map_left_iff, List.forall₂_map_right_iff,
        List.forall₂_same]
      intro capability _
      cases refused : definition.refusal? capability with
      | some error =>
        simp only [Attempt.impl?, implFor_eq_error parts.typed _ refused]
        exact .none
      | none =>
        obtain ⟨item, narrow⟩ := implFor_eq_ok parts.typed many refused
        obtain ⟨wider, wide⟩ := implFor_eq_ok parts.typed few refused
        simp only [Attempt.impl?, narrow, wide]
        exact .some (implFor_relaxes parts more narrow wide)
    exact List.rel_filterMap (fun _ _ related => related) attempted
  failures := by
    simp only [derivationOf, failures_eq_refusals parts.typed]

/-- Further markers only take bounds away, capability by capability; and definitions that differ
only behind markers are derived to the same impls and the same failures. -/
theorem derive_phantoms (classified : classify element = .ok definition)
    (requested : List Capability) :
    (∀ few many, few ⊆ many → ∃ wide narrow, derive definition requested few = .ok wide ∧
      derive definition requested many = .ok narrow ∧ narrow.Relaxes wide) ∧
    ∀ phantoms other, other.cleared phantoms = definition.cleared phantoms →
      ∃ result changed, derive definition requested phantoms = .ok result ∧
        derive other requested phantoms = .ok changed ∧
        changed.impls = result.impls ∧ changed.failures = result.failures := by
  have parts := Classified.of_classify classified
  have typed := parts.typed
  constructor
  · intro few many more
    exact ⟨_, _, derive_eq_ok typed requested few, derive_eq_ok typed requested many,
      derivationOf_relaxes parts more requested⟩
  · intro phantoms other same
    have named : other.name = definition.name := (SharesFrame.of_eq same).name
    have attempted : attempts other requested phantoms = attempts definition requested phantoms :=
      attempts_congr fun _ _ => implFor_of_cleared_eq same
    refine ⟨_, ⟨other, _, _⟩, derive_eq_ok typed requested phantoms, ?_, rfl, rfl⟩
    rw [derive, attempted, malformed?_attempts typed, failure?_congr named]

/-- A struct with a marker inside the type of its second field. -/
private def markedElement : Xml.Element :=
  let member (type : String) : Xml.Element := ⟨"member", [], none, [⟨"type", [], some type, []⟩]⟩
  ⟨"type", [("name", "Tagged"), ("category", "struct")], none, [
    ⟨"param", [("name", "T")], none, []⟩,
    ⟨"param", [("name", "U")], none, []⟩,
    member "Vec<T>",
    member "(core::PhantomData<U>, u8)"]⟩

/-- The definition of the struct, with the argument of its marker left open. -/
private def markedDefinition (argument : TypeExpr) : Definition :=
  let named (name : String) : TypeExpr := .path false [.mk name []]
  ⟨"Tagged", [⟨"T", .type, none, none⟩, ⟨"U", .type, none, none⟩],
    .tuple [⟨.position 0, .path false [.mk "Vec" [named "T"]], false, []⟩,
      ⟨.position 1,
        .tuple [.path false [.mk "core" [], .mk "PhantomData" [argument]], named "u8"], false, []⟩],
    [], []⟩

theorem derive_phantoms_sample :
    let definition := markedDefinition (.path false [.mk "U" []])
    let other := markedDefinition (.reference none true (.path false [.mk "T" []]))
    classify markedElement = .ok definition ∧
      ["PhantomData"] ⊆ ["Vec", "PhantomData"] ∧
      (∃ wide narrow, derive definition [.clone, .eq] ["PhantomData"] = .ok wide ∧
        derive definition [.clone, .eq] ["Vec", "PhantomData"] = .ok narrow ∧
        narrow.Relaxes wide) ∧
      other.cleared ["PhantomData"] = definition.cleared ["PhantomData"] ∧
      ∃ result changed, derive definition [.clone, .eq] ["PhantomData"] = .ok result ∧
        derive other [.clone, .eq] ["PhantomData"] = .ok changed ∧
        changed.impls = result.impls ∧ changed.failures = result.failures := by
  intro definition other
  have classified : classify markedElement = .ok definition := by cbv
  have more : ["PhantomData"] ⊆ ["Vec", "PhantomData"] := by decide
  have same : other.cleared ["PhantomData"] = definition.cleared ["PhantomData"] := by cbv
  obtain ⟨fewer, behind⟩ := derive_phantoms classified [.clone, .eq]
  exact ⟨classified, more, fewer _ _ more, same, behind _ _ same⟩

end DeriveBounds
