import DeriveBounds.Capability

/-!
Requests: a list of capabilities comes to each of them once, in canonical order.
-/
namespace DeriveBounds.Capability

theorem all_nodup : all.Nodup := by decide

theorem mem_all (capability : Capability) : capability ∈ all := by
  cases capability <;> decide

theorem mem_ordered_iff {requested : List Capability} {capability : Capability} :
    capability ∈ ordered requested ↔ capability ∈ requested := by
  simp [ordered, mem_all]

theorem ordered_sublist (requested : List Capability) : (ordered requested).Sublist all :=
  List.filter_sublist

theorem ordered_nodup (requested : List Capability) : (ordered requested).Nodup :=
  (ordered_sublist requested).nodup all_nodup

/-- Of a request that holds a capability, what is asked for alone. -/
theorem filter_ordered {requested : List Capability} {capability : Capability}
    (asked : capability ∈ requested) :
    (ordered requested).filter (· = capability) = ordered [capability] := by
  rw [ordered, ordered, List.filter_filter]
  apply List.filter_congr
  intro other _
  by_cases same : other = capability
  · subst same
    simp [asked]
  · simp [same]

end DeriveBounds.Capability
