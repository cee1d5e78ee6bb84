import DeriveBounds.Batch
import DeriveBounds.Proofs.Derivation.Accounts
import DeriveBounds.Summary

/-!
What one element of a batch comes to. It is derived or refused, and the row of a derived element
splits what is asked of its type into what is generated and what has failed.
-/
namespace DeriveBounds

open Xml (Element)

/-- Each capability asked for is either generated or failed, each once and in canonical order. -/
structure TypeRow.Splits (row : TypeRow) (requested : List Capability) : Prop where
  generatedOrdered : row.generated.Sublist Capability.all
  failedOrdered : row.failed.Sublist Capability.all
  separate : ∀ capability ∈ row.generated, capability ∉ row.failed
  covered : ∀ capability,
    capability ∈ requested ↔ capability ∈ row.generated ∨ capability ∈ row.failed

/-- What a definition is derived to. -/
def derivationOf (definition : Definition) (requested : List Capability) (phantoms : List String) :
    Derivation :=
  ⟨definition, (attempts definition requested phantoms).filterMap Attempt.impl?,
    (attempts definition requested phantoms).filterMap (Attempt.failure? definition)⟩

section

variable {definition : Definition} (typed : definition.Typed) (requested : List Capability)
  (phantoms : List String)

include typed

theorem ofResult_generated :
    (TypeRow.ofResult (derivationOf definition requested phantoms)).generated =
      (Capability.ordered requested).filter fun capability =>
        (definition.refusal? capability).isNone :=
  impls_capabilities typed requested phantoms

theorem ofResult_failed :
    (TypeRow.ofResult (derivationOf definition requested phantoms)).failed =
      (Capability.ordered requested).filter fun capability =>
        (definition.refusal? capability).isSome := by
  have capabilities := failures_capabilities typed requested phantoms
  have same := congrArg (List.filterMap id) capabilities
  simpa [TypeRow.ofResult, derivationOf, List.filterMap_map] using same

/-- No failure of a derivation is missing from its row. -/
theorem ofResult_reported :
    (derivationOf definition requested phantoms).failures.map (·.capability) =
      (TypeRow.ofResult (derivationOf definition requested phantoms)).failed.map some := by
  rw [ofResult_failed typed]
  exact failures_capabilities typed requested phantoms

theorem ofResult_splits :
    (TypeRow.ofResult (derivationOf definition requested phantoms)).Splits requested where
  generatedOrdered := by
    rw [ofResult_generated typed]
    exact List.filter_sublist.trans (Capability.ordered_sublist requested)
  failedOrdered := by
    rw [ofResult_failed typed]
    exact List.filter_sublist.trans (Capability.ordered_sublist requested)
  separate := by
    intro capability generated failed
    rw [ofResult_generated typed, List.mem_filter] at generated
    rw [ofResult_failed typed, List.mem_filter] at failed
    cases refused : definition.refusal? capability <;> simp [refused] at generated failed
  covered := by
    intro capability
    rw [ofResult_generated typed, ofResult_failed typed, List.mem_filter, List.mem_filter,
      Capability.mem_ordered_iff]
    cases definition.refusal? capability <;> simp

end

namespace BatchOptions

variable (options : BatchOptions) {element : Element} {definition : Definition}
  {error : DeriveError}

theorem process_of_classified (classified : classify element = .ok definition) :
    options.process element = .ok (.derived (derivationOf definition
      (requestedFor definition options.capabilities) options.phantoms)) := by
  have typed := (Classified.of_classify classified).typed
  simp only [process, classified, derive_eq_ok typed, derivationOf]
  rfl

theorem process_of_refused (refused : classify element = .error error) :
    options.process element = .ok (.refused (.ofError error (element.attribute? "name"))) := by
  simp only [process, refused]

theorem exists_process (element : Element) :
    ∃ processed, options.process element = .ok processed := by
  cases classified : classify element with
  | ok definition => exact ⟨_, options.process_of_classified classified⟩
  | error error => exact ⟨_, options.process_of_refused classified⟩

end BatchOptions

end DeriveBounds
