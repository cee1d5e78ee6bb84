import DeriveBounds.Proofs.Bounds.Refusal
import DeriveBounds.Proofs.Capability

/-!
A derivation accounts for what was asked: every capability has one impl or one failure, whatever
else is asked for, and it has a failure exactly when a rule of the definition refuses it.
-/
namespace DeriveBounds

namespace Definition

variable (definition : Definition) (capability : Capability)

/-- What refuses a capability: no enum has a default, and no field may offend. -/
def Refused : Prop :=
  capability = .default ∧ definition.shape.isEnum = true ∨
    ∃ field ∈ definition.shape.fields, definition.Offends capability field

/-- The failure of a refused capability. An enum without a default comes first; otherwise the first
field that offends is named. -/
inductive Reported : Failure → Prop where
  | shape (default : capability = .default) (enum : definition.shape.isEnum = true) :
      Reported ⟨definition.name, some capability, "UNSUPPORTED_SHAPE_FOR_CAPABILITY",
        (DeriveError.defaultForEnum definition.name).message, none⟩
  | override (possible : ¬ (capability = .default ∧ definition.shape.isEnum = true))
      (before : List Field) (field : Field) (after : List Field)
      (order : definition.shape.fields = before ++ field :: after)
      (clean : ∀ earlier ∈ before, ¬ definition.Offends capability earlier)
      (offends : definition.Offends capability field) (error : DeriveError)
      (found : definition.fieldError? capability field = some error) :
      Reported ⟨definition.name, some capability, "INVALID_OVERRIDE", error.message,
        some field.label⟩

variable {definition capability} {phantoms : List String} {error : DeriveError} {field : Field}
  {item : ImplItem} {requested : List Capability}

theorem refusal?_isSome_iff :
    (definition.refusal? capability).isSome = true ↔ definition.Refused capability := by
  unfold refusal? Refused
  split
  · rename_i impossible
    simp [impossible]
  · rename_i possible
    simp [possible, List.findSome?_isSome_iff, fieldError?_isSome_iff]

theorem fieldError?_eq_some (found : definition.fieldError? capability field = some error) :
    ∃ checked param, error = .overrideParam definition.name field.label checked param := by
  obtain ⟨params, _, found⟩ := Option.bind_eq_some_iff.mp found
  obtain ⟨param, _, same⟩ := Option.map_eq_some_iff.mp found
  exact ⟨_, param, same.symm⟩

/-- The failure made of the error that refuses a capability. -/
theorem reported_ofRefusal (named : definition.name ≠ "")
    (refused : definition.refusal? capability = some error) :
    definition.Reported capability (.ofRefusal definition capability error) := by
  unfold refusal? at refused
  split at refused
  · rename_i impossible
    cases refused
    have reported : definition.Reported capability _ := .shape impossible.1 impossible.2
    simpa [Failure.ofRefusal, Failure.ofError, DeriveError.type?, firstName, named,
      DeriveError.code, DeriveCode.name, DeriveError.field?] using reported
  · rename_i possible
    obtain ⟨before, field, after, order, found, clean⟩ := List.findSome?_eq_some_iff.mp refused
    have offends : definition.Offends capability field :=
      fieldError?_isSome_iff.mp (by rw [found]; rfl)
    have reported : definition.Reported capability _ := .override possible before field after order
      (fun earlier member => fieldError?_eq_none_iff.mp (clean earlier member)) offends error found
    obtain ⟨checked, param, same⟩ := fieldError?_eq_some found
    subst same
    simpa [Failure.ofRefusal, Failure.ofError, DeriveError.type?, firstName, named,
      DeriveError.code, DeriveCode.name, DeriveError.field?] using reported

end Definition

open Definition

variable {definition : Definition} {phantoms : List String} {requested : List Capability}

theorem mem_attempts {attempt : Attempt} : attempt ∈ attempts definition requested phantoms ↔
    attempt.1 ∈ requested ∧ attempt.2 = definition.implFor phantoms attempt.1 := by
  rw [attempts, List.mem_map]
  constructor
  · intro parts
    obtain ⟨capability, member, same⟩ := parts
    subst same
    exact ⟨Capability.mem_ordered_iff.mp member, rfl⟩
  · intro parts
    obtain ⟨asked, same⟩ := parts
    exact ⟨attempt.1, Capability.mem_ordered_iff.mpr asked, Prod.ext rfl same.symm⟩

/-- What is generated is what the attempts asked for come to. -/
theorem mem_impls {item : ImplItem} :
    item ∈ (attempts definition requested phantoms).filterMap Attempt.impl? ↔
      item.capability ∈ requested ∧ definition.implFor phantoms item.capability = .ok item := by
  rw [List.mem_filterMap]
  constructor
  · intro parts
    obtain ⟨attempt, tried, found⟩ := parts
    obtain ⟨asked, outcome⟩ := mem_attempts.mp tried
    unfold Attempt.impl? at found
    split at found
    · rename_i result derived
      cases found
      have derived := outcome.symm.trans derived
      have tagged := implFor_capability derived
      exact ⟨tagged ▸ asked, tagged ▸ derived⟩
    · cases found
  · intro parts
    obtain ⟨asked, derived⟩ := parts
    exact ⟨(item.capability, .ok item), mem_attempts.mpr ⟨asked, derived.symm⟩, rfl⟩

/-- The attempt at one capability is the same in every request. -/
theorem filter_attempts {capability : Capability} (asked : capability ∈ requested) :
    (attempts definition requested phantoms).filter (·.1 = capability) =
      attempts definition [capability] phantoms := by
  rw [attempts, attempts, List.filter_map, ← Capability.filter_ordered asked]
  rfl

/-- The impls for one capability come from the attempts at it. -/
theorem impls_filter (capability : Capability) :
    ((attempts definition requested phantoms).filterMap Attempt.impl?).filter
        (·.capability = capability) =
      ((attempts definition requested phantoms).filter (·.1 = capability)).filterMap
        Attempt.impl? := by
  rw [List.filter_filterMap, List.filterMap_filter]
  apply List.filterMap_congr
  intro attempt member
  obtain ⟨_, outcome⟩ := mem_attempts.mp member
  unfold Attempt.impl?
  cases result : attempt.2 with
  | error stop => simp
  | ok item =>
    have tagged := implFor_capability (outcome.symm.trans result)
    simp [Option.filter, tagged]

theorem failures_filter (capability : Capability) :
    ((attempts definition requested phantoms).filterMap (Attempt.failure? definition)).filter
        (·.capability = some capability) =
      ((attempts definition requested phantoms).filter (·.1 = capability)).filterMap
        (Attempt.failure? definition) := by
  rw [List.filter_filterMap, List.filterMap_filter]
  apply List.filterMap_congr
  intro attempt _
  unfold Attempt.failure?
  split
  · simp [Option.filter, Failure.ofRefusal]
  · simp

theorem filter_impls {capability : Capability} (asked : capability ∈ requested) :
    ((attempts definition requested phantoms).filterMap Attempt.impl?).filter
        (·.capability = capability) =
      (attempts definition [capability] phantoms).filterMap Attempt.impl? := by
  rw [impls_filter, filter_attempts asked]

theorem filter_failures {capability : Capability} (asked : capability ∈ requested) :
    ((attempts definition requested phantoms).filterMap (Attempt.failure? definition)).filter
        (·.capability = some capability) =
      (attempts definition [capability] phantoms).filterMap (Attempt.failure? definition) := by
  rw [failures_filter, filter_attempts asked]

section

variable (typed : definition.Typed)

include typed

theorem malformed?_attempts (requested : List Capability) (phantoms : List String) :
    (attempts definition requested phantoms).findSome? Attempt.malformed? = none := by
  rw [List.findSome?_eq_none_iff]
  intro attempt member
  obtain ⟨_, outcome⟩ := mem_attempts.mp member
  unfold Attempt.malformed?
  rw [outcome]
  cases refused : definition.refusal? attempt.1 with
  | some error => rw [implFor_eq_error typed phantoms refused]
  | none =>
    obtain ⟨item, derived⟩ := implFor_eq_ok typed phantoms refused
    rw [derived]

/-- A derivation lists its impls and its failures in the order of the attempts. -/
theorem derive_eq_ok (requested : List Capability) (phantoms : List String) :
    derive definition requested phantoms =
      .ok ⟨definition, (attempts definition requested phantoms).filterMap Attempt.impl?,
        (attempts definition requested phantoms).filterMap (Attempt.failure? definition)⟩ := by
  rw [derive, malformed?_attempts typed]

theorem impls_capabilities (requested : List Capability) (phantoms : List String) :
    ((attempts definition requested phantoms).filterMap Attempt.impl?).map (·.capability) =
      (Capability.ordered requested).filter fun capability =>
        (definition.refusal? capability).isNone := by
  rw [List.map_filterMap, attempts, List.filterMap_map, ← List.filterMap_eq_filter]
  apply List.filterMap_congr
  intro capability _
  cases refused : definition.refusal? capability with
  | some error =>
    simp [Attempt.impl?, implFor_eq_error typed phantoms refused, refused, Option.guard]
  | none =>
    obtain ⟨item, derived⟩ := implFor_eq_ok typed phantoms refused
    simp [Attempt.impl?, derived, refused, implFor_capability derived, Option.guard]

/-- The failures of a derivation are made of the errors that refuse what is asked for. -/
theorem failures_eq_refusals (requested : List Capability) (phantoms : List String) :
    (attempts definition requested phantoms).filterMap (Attempt.failure? definition) =
      (Capability.ordered requested).filterMap fun capability =>
        (definition.refusal? capability).map (Failure.ofRefusal definition capability) := by
  rw [attempts, List.filterMap_map]
  apply List.filterMap_congr
  intro capability _
  cases refused : definition.refusal? capability with
  | some error => simp [Attempt.failure?, implFor_eq_error typed phantoms refused]
  | none =>
    obtain ⟨item, derived⟩ := implFor_eq_ok typed phantoms refused
    simp [Attempt.failure?, derived]

theorem failures_capabilities (requested : List Capability) (phantoms : List String) :
    ((attempts definition requested phantoms).filterMap (Attempt.failure? definition)).map
        (·.capability) =
      ((Capability.ordered requested).filter fun capability =>
        (definition.refusal? capability).isSome).map some := by
  rw [failures_eq_refusals typed, List.map_filterMap, ← List.filterMap_eq_filter,
    List.map_filterMap]
  apply List.filterMap_congr
  intro capability _
  cases refused : definition.refusal? capability <;> simp [refused, Failure.ofRefusal]

end

/-- What a derivation owes to a request: one impl or one failure for every capability asked for, in
canonical order, each as it would be alone. -/
structure Accounts (definition : Definition) (requested : List Capability) (phantoms : List String)
    (result : Derivation) : Prop where
  implsOnce : (result.impls.map (·.capability)).Nodup
  implsOrdered : (result.impls.map (·.capability)).Sublist Capability.all
  failuresOnce : (result.failures.map (·.capability)).Nodup
  failuresOrdered : (result.failures.map (·.capability)).Sublist (Capability.all.map some)
  separate : ∀ item ∈ result.impls, ∀ failure ∈ result.failures,
    failure.capability ≠ some item.capability
  covered : ∀ capability, capability ∈ requested ↔
    (∃ item ∈ result.impls, item.capability = capability) ∨
      ∃ failure ∈ result.failures, failure.capability = some capability
  alone : ∀ capability ∈ requested, ∃ single,
    derive definition [capability] phantoms = .ok single ∧
      result.impls.filter (·.capability = capability) = single.impls ∧
      result.failures.filter (·.capability = some capability) = single.failures
  refused : ∀ capability ∈ requested,
    (∃ failure ∈ result.failures, failure.capability = some capability) ↔
      definition.Refused capability
  reported : ∀ failure ∈ result.failures, ∃ capability, failure.capability = some capability ∧
    definition.Reported capability failure

section

variable (typed : definition.Typed)

include typed

theorem exists_impl_iff {capability : Capability} :
    (∃ item ∈ (attempts definition requested phantoms).filterMap Attempt.impl?,
        item.capability = capability) ↔
      capability ∈ requested ∧ ¬ definition.Refused capability := by
  rw [← List.mem_map, impls_capabilities typed, List.mem_filter, Capability.mem_ordered_iff,
    ← refusal?_isSome_iff, Option.isNone_iff_eq_none, Option.isSome_iff_ne_none, not_not]

theorem exists_failure_iff {capability : Capability} :
    (∃ failure ∈ (attempts definition requested phantoms).filterMap (Attempt.failure? definition),
        failure.capability = some capability) ↔
      capability ∈ requested ∧ definition.Refused capability := by
  rw [← List.mem_map, failures_capabilities typed, List.mem_map_of_injective (Option.some_injective _),
    List.mem_filter, Capability.mem_ordered_iff, refusal?_isSome_iff]

theorem mem_failures (named : definition.name ≠ "") {failure : Failure}
    (member : failure ∈ (attempts definition requested phantoms).filterMap
      (Attempt.failure? definition)) :
    ∃ capability, failure.capability = some capability ∧
      definition.Reported capability failure := by
  rw [failures_eq_refusals typed] at member
  obtain ⟨capability, _, found⟩ := List.mem_filterMap.mp member
  obtain ⟨error, refused, same⟩ := Option.map_eq_some_iff.mp found
  subst same
  exact ⟨capability, rfl, reported_ofRefusal named refused⟩

end

/-- A classified definition is derived for every request, and the outcome accounts for it. -/
theorem derive_accounts {element : Xml.Element} (classified : classify element = .ok definition)
    (requested : List Capability) (phantoms : List String) :
    ∃ result, derive definition requested phantoms = .ok result ∧
      Accounts definition requested phantoms result := by
  have parts := Classified.of_classify classified
  have typed := parts.typed
  have named : definition.name ≠ "" := by
    intro empty
    have valid := parts.validName
    rw [empty] at valid
    exact absurd valid (by decide)
  have implsOrdered := impls_capabilities typed requested phantoms
  have failuresOrdered := failures_capabilities typed requested phantoms
  have kept (p : Capability → Bool) : ((Capability.ordered requested).filter p).Sublist Capability.all :=
    List.filter_sublist.trans (Capability.ordered_sublist requested)
  refine ⟨_, derive_eq_ok typed requested phantoms, ?_⟩
  constructor
  case implsOnce =>
    rw [implsOrdered]
    exact (kept _).nodup Capability.all_nodup
  case implsOrdered =>
    rw [implsOrdered]
    exact kept _
  case failuresOnce =>
    rw [failuresOrdered]
    exact ((kept _).nodup Capability.all_nodup).map (Option.some_injective _)
  case failuresOrdered =>
    rw [failuresOrdered]
    exact (kept _).map some
  case separate =>
    intro item itemMember failure failureMember same
    have free := (exists_impl_iff typed).mp ⟨item, itemMember, rfl⟩
    have bad := (exists_failure_iff typed).mp ⟨failure, failureMember, same⟩
    exact free.2 bad.2
  case covered =>
    intro capability
    rw [exists_impl_iff typed, exists_failure_iff typed, ← and_or_left]
    simp [or_comm, em]
  case alone =>
    intro capability asked
    exact ⟨_, derive_eq_ok typed [capability] phantoms, filter_impls asked, filter_failures asked⟩
  case refused =>
    intro capability asked
    rw [exists_failure_iff typed]
    simp [asked]
  case reported => exact fun failure member => mem_failures typed named member

/-- A struct whose `Clone` names something undeclared behind a skip mark, and whose `PartialEq` does
so for a field that is kept. -/
private def accountedElement : Xml.Element :=
  let leaf (tag text : String) : Xml.Element := ⟨tag, [], some text, []⟩
  let member (name skip capability : String) : Xml.Element :=
    ⟨"member", [("skip", skip)], none, [leaf "name" name, leaf "type" "T",
      ⟨"bound", [("capability", capability)], some "Missing", []⟩]⟩
  ⟨"type", [("name", "Handle"), ("category", "struct")], none, [
    ⟨"param", [("name", "T")], none, []⟩,
    member "hidden" "true" "Clone",
    member "inner" "" "PartialEq"]⟩

private def accountedDefinition : Definition :=
  let field (name : String) (skip : Bool) (capability : Capability) : Field :=
    ⟨.named name, .path false [.mk "T" []], skip, [⟨capability, ["Missing"]⟩]⟩
  ⟨"Handle", [⟨"T", .type, none, none⟩],
    .struct [field "hidden" true .clone, field "inner" false .partialEq], [], []⟩

theorem derive_accounts_sample :
    classify accountedElement = .ok accountedDefinition ∧ ∃ result,
      derive accountedDefinition [.eq, .clone, .debug, .eq] defaultPhantoms = .ok result ∧
      result.impls.map (·.capability) = [.debug] ∧
      result.failures.map (·.capability) = [some .clone, some .eq] ∧
      Accounts accountedDefinition [.eq, .clone, .debug, .eq] defaultPhantoms result := by
  have classified : classify accountedElement = .ok accountedDefinition := by cbv
  have typed := (Classified.of_classify classified).typed
  obtain ⟨result, derived, accounts⟩ :=
    derive_accounts classified [.eq, .clone, .debug, .eq] defaultPhantoms
  have same := derived
  rw [derive_eq_ok typed] at same
  cases same
  refine ⟨classified, _, derived, ?_, ?_, accounts⟩
  · rw [impls_capabilities typed]
    decide
  · rw [failures_capabilities typed]
    decide

end DeriveBounds
