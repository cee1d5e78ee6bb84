import Mathlib
import DeriveBounds.Derive
import DeriveBounds.Proofs.Body.Texts
import DeriveBounds.Proofs.Bounds.Consolidated
import DeriveBounds.Proofs.Bounds.Required
import DeriveBounds.Proofs.Classified
import DeriveBounds.Proofs.Derivation.Attempt

/-!
The bounds and predicates of a derived impl, said without the passes that compute them. Each type
parameter has at most one bound, and whether it has one is read off the fields, their overrides and
the declared bounds of the definition.
-/
namespace DeriveBounds

namespace Definition

variable (definition : Definition) (phantoms : List String) (capability : Capability)

/-- A field that takes part names the parameter in the override that decides for it. -/
def overrides (param : String) : Bool :=
  definition.shape.fields.any fun field =>
    field.activeFor capability &&
      (field.effectiveOverride? capability).any (·.contains param)

/-- A field that takes part has no override, and its type mentions the parameter. -/
def infers (param : String) : Bool :=
  definition.shape.fields.any fun field =>
    field.activeFor capability && (field.effectiveOverride? capability).isNone &&
      field.type.mentions phantoms definition.typeParams param

/-- A declared bound for the capability, or for `Eq` one for `PartialEq`, mentions the parameter.
Phantom markers are looked into. -/
def standsIn (param : String) : Bool :=
  definition.boundedTo.any fun bound =>
    (bound.covers capability || capability = .eq && bound.covers .partialEq) &&
      bound.type.mentions [] definition.typeParams param

/-- The bound a type parameter is due, if any. -/
def expectedBound (param : String) : Option Requirement :=
  if definition.overrides capability param then some ⟨param, capability, .override⟩
  else if !definition.standsIn capability param && definition.infers phantoms capability param then
    some ⟨param, capability, .inferred⟩
  else none

/-- The predicates an impl with these bounds is due. -/
inductive Predicate (definition : Definition) (capability : Capability)
    (bounds : List Requirement) : String → Prop where
  | declared {param : GenericParam} {text : String} (member : param ∈ definition.params)
      (given : param.bounds = some text) :
      Predicate definition capability bounds (param.name ++ ": " ++ text)
  | boundedTo {bound : BoundedTo} {text : String} (member : bound ∈ definition.boundedTo)
      (covers : bound.covers capability = true ∨
        capability = .eq ∧ bound.covers .partialEq = true)
      (rendered : bound.type.render = .ok text) :
      Predicate definition capability bounds (text ++ ": " ++ capability.traitPath)
  | found {bound : Requirement} (member : bound ∈ bounds) :
      Predicate definition capability bounds (bound.param ++ ": " ++ capability.traitPath)

variable {definition phantoms capability} {requirements bounds : List Requirement}
  {requirement : Requirement} {param : String}

theorem overrides_iff (phantoms : List String) : definition.overrides capability param = true ↔
    ∃ field ∈ definition.shape.fields,
      definition.Requires phantoms capability field ⟨param, capability, .override⟩ := by
  simp only [overrides, List.any_eq_true, Bool.and_eq_true]
  apply exists_congr
  intro field
  apply and_congr_right
  intro _
  constructor
  · intro parts
    obtain ⟨active, named⟩ := parts
    refine ⟨active, rfl, ?_⟩
    cases effective : field.effectiveOverride? capability with
    | none => simp [effective] at named
    | some params => exact ⟨by simpa [effective] using named, rfl⟩
  · intro parts
    obtain ⟨active, _, asked⟩ := parts
    refine ⟨active, ?_⟩
    cases effective : field.effectiveOverride? capability with
    | none =>
      rw [effective] at asked
      cases asked.2
    | some params =>
      rw [effective] at asked
      simpa using asked.1

theorem infers_iff : definition.infers phantoms capability param = true ↔
    ∃ field ∈ definition.shape.fields,
      definition.Requires phantoms capability field ⟨param, capability, .inferred⟩ := by
  simp only [infers, List.any_eq_true, Bool.and_eq_true]
  apply exists_congr
  intro field
  apply and_congr_right
  intro _
  constructor
  · intro parts
    obtain ⟨⟨active, absent⟩, mentioned⟩ := parts
    refine ⟨active, rfl, ?_⟩
    rw [Option.isNone_iff_eq_none.mp absent]
    exact ⟨mentioned, rfl⟩
  · intro parts
    obtain ⟨active, _, asked⟩ := parts
    cases effective : field.effectiveOverride? capability with
    | none =>
      rw [effective] at asked
      exact ⟨⟨active, rfl⟩, asked.1⟩
    | some params =>
      rw [effective] at asked
      cases asked.2

theorem mem_declaredBounds {bound : BoundedTo} :
    bound ∈ definition.declaredBounds capability ↔ bound ∈ definition.boundedTo ∧
      (bound.covers capability = true ∨ capability = .eq ∧ bound.covers .partialEq = true) := by
  simp [declaredBounds]

theorem mem_mentionedIn {names found : List String} {declared : List BoundedTo}
    (mentioned : mentionedIn names declared = .ok found) :
    param ∈ found ↔ ∃ bound ∈ declared, bound.type.mentions [] names param = true := by
  induction declared generalizing found with
  | nil =>
    cases mentioned
    simp
  | cons bound rest ih =>
    simp only [mentionedIn, bind_eq_ok_iff, pure_eq_ok_iff] at mentioned
    obtain ⟨first, firstFound, others, othersFound, same⟩ := mentioned
    subst same
    rw [List.mem_append, ih othersFound, ← TypeExpr.mentions_eq_true_iff firstFound]
    simp

theorem standsIn_iff {superseded : List String}
    (found : definition.superseded capability = .ok superseded) :
    definition.standsIn capability param = true ↔ param ∈ superseded := by
  rw [mem_mentionedIn found]
  simp [standsIn, mem_declaredBounds, and_assoc]

/-- The bound is one of that parameter for that capability. -/
theorem expectedBound_key
    (expected : definition.expectedBound phantoms capability param = some requirement) :
    requirement.param = param ∧ requirement.capability = capability := by
  unfold expectedBound at expected
  split at expected
  · cases expected
    exact ⟨rfl, rfl⟩
  · split at expected
    · cases expected
      exact ⟨rfl, rfl⟩
    · cases expected

theorem Requires.origin_eq (requires : definition.Requires phantoms capability field requirement) :
    requirement.origin = .inferred ∨ requirement.origin = .override := by
  have asked := requires.asked
  cases effective : field.effectiveOverride? capability with
  | none =>
    rw [effective] at asked
    exact .inl asked.2
  | some params =>
    rw [effective] at asked
    exact .inr asked.2

section

variable {superseded : List String}
  (consolidated : definition.Consolidated superseded requirements bounds)
  (stands : definition.superseded capability = .ok superseded)
  (required : ∀ requirement, requirement ∈ requirements ↔
    ∃ field ∈ definition.shape.fields, definition.Requires phantoms capability field requirement)

include consolidated stands required

/-- Where the fields make the requirements, a record is kept if a field asks for it and neither a
declared bound nor an override takes its place. -/
theorem Consolidated.mem_bounds_iff : requirement ∈ bounds ↔
    (∃ field ∈ definition.shape.fields, definition.Requires phantoms capability field requirement) ∧
      (requirement.origin = .override ∨ definition.standsIn capability requirement.param = false ∧
        definition.overrides capability requirement.param = false) := by
  have known : ∀ record ∈ unsuperseded superseded requirements,
      record.origin = .inferred ∨ record.origin = .override := by
    intro record member
    obtain ⟨_, _, requires⟩ := (required record).mp (mem_unsuperseded.mp member).1
    exact requires.origin_eq
  rw [consolidated.merged.mem_iff known, mem_unsuperseded, required, and_assoc]
  refine and_congr_right fun ⟨field, _, requires⟩ => ?_
  rcases requires.origin_eq with inferred | override
  · simp only [inferred, reduceCtorEq, true_and, false_or, ← standsIn_iff stands,
      Bool.not_eq_true]
    apply and_congr_right
    intro _
    rw [← Bool.not_eq_true, overrides_iff phantoms, not_exists]
    constructor
    · intro alone field parts
      obtain ⟨member, named⟩ := parts
      refine alone ⟨requirement.param, capability, .override⟩ (mem_unsuperseded.mpr ⟨?_, ?_⟩)
        ⟨rfl, requires.tagged.symm⟩ rfl
      · exact (required _).mpr ⟨field, member, named⟩
      · simp
    · intro free other source key preferred
      obtain ⟨field, member, named⟩ := (required other).mp (mem_unsuperseded.mp source).1
      refine free field ⟨member, ?_⟩
      obtain ⟨param, tag, origin⟩ := other
      cases key.1
      cases preferred
      cases named.tagged
      exact named
  · simp [override]

/-- The bounds are those expected of the type parameters. -/
theorem Consolidated.mem_expected : requirement ∈ bounds ↔
    requirement ∈ definition.typeParams.filterMap
      (definition.expectedBound phantoms capability) := by
  rw [consolidated.mem_bounds_iff stands required, List.mem_filterMap]
  constructor
  · intro parts
    obtain ⟨⟨field, member, requires⟩, decided⟩ := parts
    refine ⟨requirement.param, ?_, ?_⟩
    · exact consolidated.declared requirement ((required requirement).mpr ⟨field, member, requires⟩)
    · obtain ⟨param, tag, origin⟩ := requirement
      cases requires.tagged
      rcases requires.origin_eq with inferred | override
      · cases inferred
        obtain ⟨standing, overridden⟩ := decided.resolve_left (by simp)
        have infers := infers_iff.mpr ⟨field, member, requires⟩
        simp only at standing overridden
        simp [expectedBound, standing, overridden, infers]
      · cases override
        have overridden := (overrides_iff phantoms).mpr ⟨field, member, requires⟩
        simp [expectedBound, overridden]
  · intro parts
    obtain ⟨param, _, expected⟩ := parts
    unfold expectedBound at expected
    split at expected
    · rename_i overridden
      cases expected
      exact ⟨(overrides_iff phantoms).mp overridden, .inl rfl⟩
    · rename_i overridden
      split at expected
      · rename_i due
        cases expected
        obtain ⟨standing, infers⟩ := Bool.and_eq_true_iff.mp due
        exact ⟨infers_iff.mp infers, .inr ⟨by simpa using standing, by simpa using overridden⟩⟩
      · cases expected

/-- The bounds of a capability are those expected of the type parameters, in their order. -/
theorem Consolidated.eq_expected (distinct : definition.typeParams.Nodup) :
    bounds = definition.typeParams.filterMap (definition.expectedBound phantoms capability) := by
  have tagged : ∀ bound ∈ bounds, bound.capability = capability := by
    intro bound member
    obtain ⟨⟨_, _, requires⟩, _⟩ := (consolidated.mem_bounds_iff stands required).mp member
    exact requires.tagged
  have ordered := consolidated.increasing distinct tagged
  have expectedOrdered : (definition.typeParams.filterMap
      (definition.expectedBound phantoms capability)).Pairwise fun first second =>
        lastIndex definition.typeParams first.param <
          lastIndex definition.typeParams second.param := by
    rw [List.pairwise_filterMap]
    apply (lastIndex_increasing distinct).imp
    intro param other earlier first expected second next
    rw [(expectedBound_key expected).1, (expectedBound_key next).1]
    exact earlier
  have irreflexive : Std.Irrefl fun first second : Requirement =>
      lastIndex definition.typeParams first.param < lastIndex definition.typeParams second.param :=
    ⟨fun _ => Nat.lt_irrefl _⟩
  have antisymmetric : Std.Antisymm fun first second : Requirement =>
      lastIndex definition.typeParams first.param < lastIndex definition.typeParams second.param :=
    ⟨fun _ _ earlier later => absurd earlier (Nat.lt_asymm later)⟩
  exact ordered.eq_of_mem_iff expectedOrdered
    fun requirement => consolidated.mem_expected stands required

end

theorem mem_renderBoundedTo {declared : List BoundedTo} {texts : List String} {text : String}
    (rendered : renderBoundedTo capability declared = .ok texts) :
    text ∈ texts ↔ ∃ bound ∈ declared, ∃ type, bound.type.render = .ok type ∧
      text = type ++ ": " ++ capability.traitPath := by
  induction declared generalizing texts with
  | nil =>
    cases rendered
    simp
  | cons bound rest ih =>
    simp only [renderBoundedTo, bind_eq_ok_iff, pure_eq_ok_iff] at rendered
    obtain ⟨type, typeRendered, others, othersRendered, same⟩ := rendered
    subst same
    simp [ih othersRendered, typeRendered]

theorem predicates_nodup {predicates : List String}
    (found : definition.predicates capability bounds = .ok predicates) : predicates.Nodup := by
  simp only [Definition.predicates, bind_eq_ok_iff, pure_eq_ok_iff] at found
  obtain ⟨_, _, same⟩ := found
  exact same ▸ eraseDups_nodup _

theorem mem_predicates {predicates : List String} {predicate : String}
    (found : definition.predicates capability bounds = .ok predicates)
    (filled : ∀ param ∈ definition.params, param.bounds ≠ some "")
    (tagged : ∀ bound ∈ bounds, bound.capability = capability) :
    predicate ∈ predicates ↔ definition.Predicate capability bounds predicate := by
  simp only [Definition.predicates, bind_eq_ok_iff, pure_eq_ok_iff] at found
  obtain ⟨texts, rendered, same⟩ := found
  subst same
  simp only [List.mem_eraseDups, List.mem_append, mem_renderBoundedTo rendered, mem_declaredBounds]
  constructor
  · intro either
    rcases either with (declared | ⟨bound, ⟨member, covers⟩, type, typeRendered, same⟩) | bounded
    · obtain ⟨param, member, given⟩ := List.mem_filterMap.mp declared
      obtain ⟨text, bounds, same⟩ := Option.bind_eq_some_iff.mp given
      split at same
      · cases same
      · cases same
        exact .declared member bounds
    · exact same ▸ .boundedTo member covers typeRendered
    · obtain ⟨bound, member, same⟩ := List.mem_map.mp bounded
      subst same
      rw [tagged bound member]
      exact .found member
  · intro due
    cases due with
    | @declared param text member given =>
      refine .inl (.inl (List.mem_filterMap.mpr ⟨param, member, ?_⟩))
      have nonempty : text ≠ "" := fun empty => filled param member (empty ▸ given)
      simp [given, nonempty]
    | boundedTo member covers typeRendered =>
      exact .inl (.inr ⟨_, ⟨member, covers⟩, _, typeRendered, rfl⟩)
    | @found bound member =>
      exact .inr (List.mem_map.mpr ⟨bound, member, by rw [tagged bound member]⟩)

/-- Only fields that can be derived for make requirements: an enum has no `Default`. -/
theorem mem_requirements {lines : List String} (derivable : body definition capability = .ok lines)
    (required : definition.requirements phantoms capability = .ok requirements) :
    requirement ∈ requirements ↔
      ∃ field ∈ definition.shape.fields,
        definition.Requires phantoms capability field requirement := by
  obtain ⟨_, written, _⟩ := body_eq_ok_iff.mp derivable
  have possible := exists_bodyLines_iff.mp ⟨_, written⟩
  rw [Definition.requirements, if_neg possible] at required
  exact mem_requirementsOf required

/-- The bounds of an impl are those expected of the type parameters. -/
theorem implFor_expected {item : ImplItem} (distinct : definition.typeParams.Nodup)
    (derived : definition.implFor phantoms capability = .ok item) :
    item.bounds =
      definition.typeParams.filterMap (definition.expectedBound phantoms capability) := by
  obtain ⟨lines, requirements, bounds, _, derivable, required, consolidated, _, same⟩ :=
    implFor_eq_ok_iff.mp derived
  subst same
  obtain ⟨superseded, stands, consolidated⟩ := Consolidated.of_consolidate consolidated
  exact consolidated.eq_expected stands (fun _ => mem_requirements derivable required) distinct

/-- The bounds and predicates of an impl of a classified definition. -/
theorem implFor_bounds {element : Xml.Element} {item : ImplItem}
    (parts : Classified element definition)
    (derived : definition.implFor phantoms capability = .ok item) :
    item.bounds = definition.typeParams.filterMap (definition.expectedBound phantoms capability) ∧
      ∀ predicate, predicate ∈ item.predicates ↔
        definition.Predicate capability item.bounds predicate := by
  have exactly := implFor_expected parts.typeParams_nodup derived
  have predicated := implFor_predicates derived
  rw [implFor_capability derived] at predicated
  refine ⟨exactly, fun predicate => mem_predicates predicated ?_ ?_⟩
  · exact fun _ member => parts.bounds_ne_empty member
  · intro bound member
    rw [exactly, List.mem_filterMap] at member
    obtain ⟨param, _, expected⟩ := member
    exact (expectedBound_key expected).2

/-- The bounds of an impl of a classified definition are those expected of its type parameters, in
declaration order, and its predicates are, each once, the declared bounds of its parameters, those
on types for the capability, and one for each bound. -/
theorem implFor_exact {element : Xml.Element} {item : ImplItem}
    (classified : classify element = .ok definition)
    (derived : definition.implFor phantoms capability = .ok item) :
    item.bounds = definition.typeParams.filterMap (definition.expectedBound phantoms capability) ∧
      item.predicates.Nodup ∧
      ∀ predicate, predicate ∈ item.predicates ↔
        definition.Predicate capability item.bounds predicate := by
  have parts := Classified.of_classify classified
  obtain ⟨exactly, members⟩ := implFor_bounds parts derived
  exact ⟨exactly, predicates_nodup (implFor_predicates derived), members⟩

/-- A struct of four parameters: `T` is inferred, `U` asked for by an override, `V` needed only
where the field is skipped or the type a marker, and `W` stood in for by a declared bound. -/
private def sampleElement : Xml.Element :=
  let leaf (tag text : String) : Xml.Element := ⟨tag, [], some text, []⟩
  let member (type skip : String) (bounds : List Xml.Element) : Xml.Element :=
    ⟨"member", [("skip", skip)], none, leaf "type" type :: bounds⟩
  ⟨"type", [("name", "Sample"), ("category", "struct")], none, [
    ⟨"param", [("name", "T")], none, []⟩,
    ⟨"param", [("name", "U")], none, []⟩,
    ⟨"param", [("name", "V")], none, []⟩,
    ⟨"param", [("name", "W"), ("bounds", "Iterator")], none, []⟩,
    member "Vec<W>" "" [⟨"bound", [("capability", "PartialEq")], some "U", []⟩],
    member "(W, PhantomData<V>)" "" [],
    member "V" "true" [],
    member "[T; 4]" "" [],
    ⟨"bounded-to", [("capability", "PartialEq")], some "W::Item", []⟩]⟩

theorem implFor_exact_sample : ∃ definition item,
    classify sampleElement = .ok definition ∧
      definition.implFor defaultPhantoms .eq = .ok item ∧
      item.bounds = [⟨"T", .eq, .inferred⟩, ⟨"U", .eq, .override⟩] ∧
      item.bounds = definition.typeParams.filterMap (definition.expectedBound defaultPhantoms .eq) ∧
      item.predicates.Nodup ∧
      ∀ predicate, predicate ∈ item.predicates ↔
        definition.Predicate .eq item.bounds predicate := by
  have computed : (match classify sampleElement with
      | .ok definition => definition.implFor defaultPhantoms .eq
      | .error error => .error (.refused error)) =
      .ok ⟨"Sample", .eq, [⟨"T", .eq, .inferred⟩, ⟨"U", .eq, .override⟩],
        ["W: Iterator", "W::Item: ::core::cmp::Eq", "T: ::core::cmp::Eq", "U: ::core::cmp::Eq"],
        ""⟩ := by cbv
  cases classified : classify sampleElement with
  | error error =>
    rw [classified] at computed
    cases computed
  | ok definition =>
    rw [classified] at computed
    exact ⟨definition, _, rfl, computed, rfl, implFor_exact classified computed⟩

end Definition

end DeriveBounds
