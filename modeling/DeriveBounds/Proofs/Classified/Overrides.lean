import DeriveBounds.Proofs.Classified

/-!
What the bounds of a member come to. However the bounds of several capabilities are mixed, each
capability that is named has one override, with the names of all its bounds in document order, and
the overrides stand in the order in which their capabilities are first named.
-/
namespace DeriveBounds

open Xml (Element)

/-- The capability that a bound names, in whatever spelling. -/
def boundCapability? (bound : Element) : Option Capability :=
  (bound.attribute? "capability").bind Capability.ofName?

/-- The bounds that name a capability. -/
def boundsOn (capability : Capability) (bounds : List Element) : List Element :=
  bounds.filter (boundCapability? · = some capability)

/-- The names listed in bounds, in document order and each once. -/
def boundNames (bounds : List Element) : List String :=
  (bounds.flatMap fun bound => namesIn (bound.text.getD "")).eraseDups

/-- The parameters that the first override of a capability asks for. -/
def overrideIn? (overrides : List Override) (capability : Capability) : Option (List String) :=
  (overrides.find? (·.capability = capability)).map (·.params)

/-- The overrides are what the bounds come to. -/
structure Accumulates (bounds : List Element) (overrides : List Override) : Prop where
  order : overrides.map (·.capability) = (bounds.filterMap boundCapability?).eraseDups
  absent : ∀ capability, overrideIn? overrides capability = none ↔ boundsOn capability bounds = []
  present : ∀ capability params, overrideIn? overrides capability = some params →
    params = boundNames (boundsOn capability bounds)

section Lists

variable {α : Type} [BEq α] [LawfulBEq α] {items more : List α} {item : α}

theorem eraseDups_of_nodup (once : items.Nodup) : items.eraseDups = items := by
  induction items with
  | nil => rfl
  | cons item rest ih =>
    obtain ⟨fresh, once⟩ := List.nodup_cons.mp once
    have kept : rest.filter (fun other => !other == item) = rest := by
      apply List.filter_eq_self.mpr
      intro other member
      have different : other ≠ item := fun same => fresh (same ▸ member)
      simp [different]
    rw [List.eraseDups_cons, kept, ih once]

/-- Repetitions that are removed already do not matter. -/
theorem eraseDups_eraseDups_append :
    (items.eraseDups ++ more).eraseDups = (items ++ more).eraseDups := by
  have same : more.removeAll items.eraseDups = more.removeAll items := by
    apply List.filter_congr
    intro item _
    simp [List.mem_eraseDups]
  rw [List.eraseDups_append, List.eraseDups_append, same,
    eraseDups_of_nodup (eraseDups_nodup items)]

theorem eraseDups_concat_of_mem (known : item ∈ items) :
    (items ++ [item]).eraseDups = items.eraseDups := by
  simp [List.eraseDups_append, List.removeAll, known]

theorem eraseDups_concat_of_notMem (new : item ∉ items) :
    (items ++ [item]).eraseDups = items.eraseDups ++ [item] := by
  simp [List.eraseDups_append, List.removeAll, List.eraseDups_cons, new]

end Lists

variable {bounds seen : List Element} {bound : Element} {overrides found : List Override}
  {capability other : Capability} {params : List String} {type owner : String} {key : FieldKey}

theorem boundsOn_append (seen bounds : List Element) :
    boundsOn capability (seen ++ bounds) = boundsOn capability seen ++ boundsOn capability bounds :=
  List.filter_append ..

theorem boundNames_append (seen bounds : List Element) :
    boundNames (seen ++ bounds) =
      (boundNames seen ++ bounds.flatMap fun bound => namesIn (bound.text.getD "")).eraseDups := by
  rw [boundNames, boundNames, List.flatMap_append, eraseDups_eraseDups_append]

/-- Adding to a capability that has an override keeps the order, and another one comes last. -/
theorem capabilities_addOverride :
    (addOverride capability params overrides).map (·.capability) =
      if capability ∈ overrides.map (·.capability) then overrides.map (·.capability)
      else overrides.map (·.capability) ++ [capability] := by
  induction overrides with
  | nil => rfl
  | cons first rest ih =>
    rw [addOverride]
    split
    · rename_i same
      simp [same]
    · rename_i different
      rw [List.map_cons, ih, List.map_cons]
      simp only [List.mem_cons, Ne.symm different, false_or]
      split <;> rfl

theorem overrideIn?_addOverride_self :
    overrideIn? (addOverride capability params overrides) capability =
      some (((overrideIn? overrides capability).getD [] ++ params).eraseDups) := by
  induction overrides with
  | nil => simp [addOverride, overrideIn?]
  | cons first rest ih =>
    rw [addOverride]
    split
    · rename_i same
      simp [overrideIn?, same]
    · rename_i different
      simpa [overrideIn?, different] using ih

/-- What is added to one capability does not change another. -/
theorem overrideIn?_addOverride_of_ne (different : other ≠ capability) :
    overrideIn? (addOverride capability params overrides) other = overrideIn? overrides other := by
  induction overrides with
  | nil => simp [addOverride, overrideIn?, Ne.symm different]
  | cons first rest ih =>
    rw [addOverride]
    split
    · rename_i same
      subst same
      simp [overrideIn?, Ne.symm different]
    · by_cases own : first.capability = other
      · simp [overrideIn?, own]
      · simpa [overrideIn?, own] using ih

namespace Accumulates

theorem empty : Accumulates [] [] := by
  constructor
  case order => rfl
  case absent => simp [overrideIn?, boundsOn]
  case present => simp [overrideIn?]

/-- Whether a capability has an override or not, the names asked of it so far are those listed. -/
theorem getD (accumulates : Accumulates bounds overrides) (capability : Capability) :
    (overrideIn? overrides capability).getD [] = boundNames (boundsOn capability bounds) := by
  cases read : overrideIn? overrides capability with
  | none =>
    rw [(accumulates.absent capability).mp read]
    rfl
  | some params => exact accumulates.present capability params read

/-- One more bound adds its names to the override of its capability. -/
theorem step (accumulates : Accumulates seen overrides)
    (named : boundCapability? bound = some capability) :
    Accumulates (seen ++ [bound])
      (addOverride capability (namesIn (bound.text.getD "")) overrides) := by
  have own : boundsOn capability [bound] = [bound] := by simp [boundsOn, named]
  have others (other : Capability) (different : other ≠ capability) :
      boundsOn other [bound] = [] := by
    simp [boundsOn, named, Ne.symm different]
  constructor
  case order =>
    have mentioned : capability ∈ overrides.map (·.capability) ↔
        capability ∈ seen.filterMap boundCapability? := by
      rw [accumulates.order, List.mem_eraseDups]
    rw [capabilities_addOverride, List.filterMap_append, accumulates.order]
    simp only [List.filterMap_cons, named, List.filterMap_nil]
    rw [accumulates.order] at mentioned
    split
    · rename_i known
      rw [eraseDups_concat_of_mem (mentioned.mp known)]
    · rename_i new
      rw [eraseDups_concat_of_notMem fun known => new (mentioned.mpr known)]
  case absent =>
    intro other
    rw [boundsOn_append]
    by_cases same : other = capability
    · subst same
      rw [overrideIn?_addOverride_self, own]
      simp
    · rw [overrideIn?_addOverride_of_ne same, others other same, List.append_nil]
      exact accumulates.absent other
  case present =>
    intro other params read
    rw [boundsOn_append]
    by_cases same : other = capability
    · subst same
      rw [overrideIn?_addOverride_self, accumulates.getD] at read
      cases read
      rw [own, boundNames_append]
      simp
    · rw [overrideIn?_addOverride_of_ne same] at read
      rw [others other same, List.append_nil]
      exact accumulates.present other params read

end Accumulates

theorem readCapability_of_named {place : CapabilityPlace}
    (named : boundCapability? bound = some capability) :
    readCapability (bound.attribute? "capability") type place = .ok capability := by
  obtain ⟨name, written, known⟩ := Option.bind_eq_some_iff.mp named
  simp only [readCapability, written, known]

theorem readCapability_of_unnamed {place : CapabilityPlace}
    (unnamed : boundCapability? bound = none) :
    ∃ error, readCapability (bound.attribute? "capability") type place = .error error ∧
      error.code = .unknownCapability := by
  unfold readCapability
  split
  · exact ⟨_, rfl, rfl⟩
  · rename_i name written
    rw [boundCapability?, written, Option.bind_some] at unnamed
    rw [unnamed]
    exact ⟨_, rfl, rfl⟩

theorem boundCapability?_of_read {place : CapabilityPlace}
    (read : readCapability (bound.attribute? "capability") type place = .ok capability) :
    boundCapability? bound = some capability := by
  cases named : boundCapability? bound with
  | none =>
    obtain ⟨_, failed, _⟩ := @readCapability_of_unnamed bound type place named
    rw [read] at failed
    cases failed
  | some other => exact congrArg some (Except.ok.inj ((readCapability_of_named named).symm.trans read))

/-- Bounds that are read come to their overrides, behind those of the bounds before them. -/
theorem Accumulates.readOverrides (accumulates : Accumulates seen overrides)
    (read : readOverrides type owner key overrides bounds = .ok found) :
    Accumulates (seen ++ bounds) found := by
  induction bounds generalizing seen overrides with
  | nil =>
    cases read
    rwa [List.append_nil]
  | cons bound rest ih =>
    obtain ⟨capability, named, read⟩ := bind_eq_ok_iff.mp read
    have next := accumulates.step (boundCapability?_of_read named)
    rw [List.append_cons]
    exact ih next read

/-- Where no capability has two overrides, each is found under its own. -/
theorem overrideIn?_of_mem {override : Override} (once : (overrides.map (·.capability)).Nodup)
    (member : override ∈ overrides) :
    overrideIn? overrides override.capability = some override.params := by
  induction overrides with
  | nil => simp at member
  | cons first rest ih =>
    obtain ⟨fresh, once⟩ := List.nodup_cons.mp once
    rcases List.mem_cons.mp member with own | later
    · subst own
      simp [overrideIn?]
    · have different : first.capability ≠ override.capability :=
        fun same => fresh (List.mem_map.mpr ⟨override, later, same.symm⟩)
      simpa [overrideIn?, different] using ih once later

/-- At most one override for each capability, and none that names a parameter twice. -/
structure OverridesOnce (overrides : List Override) : Prop where
  capabilities : (overrides.map (·.capability)).Nodup
  params : ∀ override ∈ overrides, override.params.Nodup

theorem Accumulates.once (accumulates : Accumulates bounds overrides) :
    OverridesOnce overrides := by
  have capabilities : (overrides.map (·.capability)).Nodup := by
    rw [accumulates.order]
    exact eraseDups_nodup _
  refine ⟨capabilities, ?_⟩
  intro override member
  rw [accumulates.present _ _ (overrideIn?_of_mem capabilities member)]
  exact eraseDups_nodup _

/-- Bounds are read when each of them names a capability. -/
theorem exists_readOverrides (named : ∀ bound ∈ bounds, boundCapability? bound ≠ none)
    (overrides : List Override) :
    ∃ found, readOverrides type owner key overrides bounds = .ok found := by
  induction bounds generalizing overrides with
  | nil => exact ⟨_, rfl⟩
  | cons bound rest ih =>
    obtain ⟨first, named⟩ := List.forall_mem_cons.mp named
    obtain ⟨capability, known⟩ := Option.ne_none_iff_exists'.mp first
    obtain ⟨found, read⟩ := ih named (addOverride capability (namesIn (bound.text.getD "")) overrides)
    exact ⟨found, bind_eq_ok_iff.mpr ⟨capability, readCapability_of_named known, read⟩⟩

/-- The first bound that names no capability is what reading fails on. -/
theorem readOverrides_refused (first : bounds.find? (boundCapability? · = none) = some bound)
    (overrides : List Override) :
    ∃ error, readCapability (bound.attribute? "capability") type (.bound owner key) = .error error ∧
      error.code = .unknownCapability ∧
      readOverrides type owner key overrides bounds = .error error := by
  induction bounds generalizing overrides with
  | nil => cases first
  | cons head rest ih =>
    cases known : boundCapability? head with
    | none =>
      rw [List.find?_cons_of_pos (by simpa using known)] at first
      have same : head = bound := Option.some.inj first
      subst same
      obtain ⟨error, failed, code⟩ := @readCapability_of_unnamed head type (.bound owner key) known
      refine ⟨error, failed, code, ?_⟩
      rw [readOverrides, failed]
      rfl
    | some capability =>
      rw [List.find?_cons_of_neg (by simp [known])] at first
      obtain ⟨error, failed, code, read⟩ := ih first
        (addOverride capability (namesIn (head.text.getD "")) overrides)
      refine ⟨error, failed, code, ?_⟩
      rw [readOverrides, readCapability_of_named known]
      exact read

end DeriveBounds
