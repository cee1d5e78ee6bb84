import DeriveBounds.Derive
import DeriveBounds.Proofs.Outcome

/-!
An attempt that succeeds: each of its passes has succeeded, and the impl holds what they come to.
-/
namespace DeriveBounds.Definition

variable {definition : Definition} {phantoms : List String} {capability : Capability}
  {item : ImplItem}

theorem implFor_eq_ok_iff : definition.implFor phantoms capability = .ok item ↔
    ∃ lines requirements bounds predicates,
      body definition capability = .ok lines ∧
      definition.requirements phantoms capability = .ok requirements ∧
      definition.consolidate capability requirements = .ok bounds ∧
      definition.predicates capability bounds = .ok predicates ∧
      item = ⟨definition.name, capability, bounds, predicates, Text.join "\n" lines⟩ := by
  simp only [implFor, bind_eq_ok_iff, mapError_eq_ok_iff, pure_eq_ok_iff]
  constructor
  · intro passes
    obtain ⟨lines, written, requirements, required, bounds, consolidated, predicates, predicated,
      same⟩ := passes
    exact ⟨lines, requirements, bounds, predicates, written, required, consolidated, predicated,
      same.symm⟩
  · intro passes
    obtain ⟨lines, requirements, bounds, predicates, written, required, consolidated, predicated,
      same⟩ := passes
    exact ⟨lines, written, requirements, required, bounds, consolidated, predicates, predicated,
      same.symm⟩

theorem implFor_capability (derived : definition.implFor phantoms capability = .ok item) :
    item.capability = capability := by
  obtain ⟨_, _, _, _, _, _, _, _, same⟩ := implFor_eq_ok_iff.mp derived
  rw [same]

theorem implFor_predicates (derived : definition.implFor phantoms capability = .ok item) :
    definition.predicates item.capability item.bounds = .ok item.predicates := by
  obtain ⟨_, _, _, _, _, _, _, predicated, same⟩ := implFor_eq_ok_iff.mp derived
  rw [same]
  exact predicated

end DeriveBounds.Definition
