import Mathlib.Data.List.Pairwise
import Mathlib.Data.List.Sort
import Mathlib.Data.String.Basic
import DeriveBounds.Consolidate
import DeriveBounds.Proofs.Outcome

/-!
What consolidation does to a list of requirements: one record is kept for each parameter and
capability, an override wherever there is one, and the records come in declaration order.
-/
namespace DeriveBounds

/-- Two requirements that consolidation makes one of. -/
def Requirement.SameKey (first second : Requirement) : Prop :=
  first.param = second.param ∧ first.capability = second.capability

variable {names : List String} {records merged bounds : List Requirement}
  {record other : Requirement}

namespace Requirement.SameKey

theorem symm (same : SameKey record other) : SameKey other record :=
  ⟨same.1.symm, same.2.symm⟩

theorem trans {third : Requirement} (same : SameKey record other) (next : SameKey other third) :
    SameKey record third :=
  ⟨same.1.trans next.1, same.2.trans next.2⟩

end Requirement.SameKey

/-- A list that stands for all the records: one for each key, and an override where the records
have one. -/
structure Merged (records merged : List Requirement) : Prop where
  distinct : merged.Pairwise fun first second => ¬ first.SameKey second
  source : ∀ record ∈ merged, record ∈ records
  covers : ∀ record ∈ records, ∃ kept ∈ merged, kept.SameKey record ∧
    (record.origin = .override → kept.origin = .override)

theorem mem_mergeRequirement (member : record ∈ mergeRequirement merged other) :
    record ∈ merged ∨ record = other := by
  induction merged with
  | nil => exact .inr (List.mem_singleton.mp member)
  | cons first rest ih =>
    simp only [mergeRequirement] at member
    split at member
    · rcases List.mem_cons.mp member with own | later
      · split at own
        · exact .inr own
        · exact .inl (own ▸ List.mem_cons_self ..)
      · exact .inl (List.mem_cons_of_mem _ later)
    · rcases List.mem_cons.mp member with own | later
      · exact .inl (own ▸ List.mem_cons_self ..)
      · exact (ih later).imp_left (List.mem_cons_of_mem _)

/-- Of two records an override is preferred. -/
private theorem preferred_origin (first second : Requirement) :
    let kept := if second.origin = .override ∧ first.origin ≠ .override then second else first
    first.origin = .override ∨ second.origin = .override → kept.origin = .override := by
  intro kept either
  by_cases own : first.origin = .override
  · simp [kept, own]
  · have other : second.origin = .override := either.resolve_left own
    simp [kept, own, other]

theorem mergeRequirement_covers (other : Requirement) (member : record ∈ merged ∨ record = other) :
    ∃ kept ∈ mergeRequirement merged other, kept.SameKey record ∧
      (record.origin = .override → kept.origin = .override) := by
  induction merged with
  | nil =>
    rcases member with none | same
    · simp at none
    · exact ⟨other, List.mem_singleton_self _, same ▸ ⟨rfl, rfl⟩, fun override => same ▸ override⟩
  | cons first rest ih =>
    simp only [mergeRequirement]
    split
    · rename_i same
      have origin := preferred_origin first other
      have key : (if other.origin = .override ∧ first.origin ≠ .override then other
          else first).SameKey first := by
        split
        · exact Requirement.SameKey.symm same
        · exact ⟨rfl, rfl⟩
      rcases member with old | new
      · rcases List.mem_cons.mp old with own | later
        · subst own
          exact ⟨_, List.mem_cons_self .., key, fun override => origin (.inl override)⟩
        · exact ⟨record, List.mem_cons_of_mem _ later, ⟨rfl, rfl⟩, id⟩
      · subst new
        exact ⟨_, List.mem_cons_self .., key.trans same, fun override => origin (.inr override)⟩
    · rcases member with old | new
      · rcases List.mem_cons.mp old with own | later
        · exact ⟨first, List.mem_cons_self .., own ▸ ⟨rfl, rfl⟩, fun override => own ▸ override⟩
        · obtain ⟨kept, present, covers⟩ := ih (.inl later)
          exact ⟨kept, List.mem_cons_of_mem _ present, covers⟩
      · obtain ⟨kept, present, covers⟩ := ih (.inr new)
        exact ⟨kept, List.mem_cons_of_mem _ present, covers⟩

theorem mergeRequirement_distinct
    (distinct : merged.Pairwise fun first second => ¬ first.SameKey second) :
    (mergeRequirement merged record).Pairwise fun first second => ¬ first.SameKey second := by
  induction merged with
  | nil => exact List.pairwise_singleton ..
  | cons first rest ih =>
    obtain ⟨apart, restDistinct⟩ := List.pairwise_cons.mp distinct
    simp only [mergeRequirement]
    split
    · rename_i same
      refine List.pairwise_cons.mpr ⟨?_, restDistinct⟩
      intro later member
      split
      · exact fun clash => apart later member (Requirement.SameKey.trans same clash)
      · exact apart later member
    · rename_i different
      refine List.pairwise_cons.mpr ⟨?_, ih restDistinct⟩
      intro later member
      rcases mem_mergeRequirement member with old | new
      · exact apart later old
      · exact new ▸ different

theorem Merged.step (merged : Merged records kept) :
    Merged (records ++ [record]) (mergeRequirement kept record) where
  distinct := mergeRequirement_distinct merged.distinct
  source := by
    intro result member
    rcases mem_mergeRequirement member with old | new
    · exact List.mem_append_left _ (merged.source result old)
    · exact new ▸ List.mem_append_right _ (List.mem_singleton_self _)
  covers := by
    intro result member
    rcases List.mem_append.mp member with old | new
    · obtain ⟨before, present, same, preferred⟩ := merged.covers result old
      obtain ⟨after, found, next, stays⟩ := mergeRequirement_covers record (.inl present)
      exact ⟨after, found, next.trans same, fun override => stays (preferred override)⟩
    · exact mergeRequirement_covers record (.inr (List.mem_singleton.mp new))

/-- Merging the records one after another stands for all of them. -/
theorem Merged.foldl (records : List Requirement) :
    Merged records (records.foldl mergeRequirement []) := by
  have run : ∀ rest done kept, Merged done kept →
      Merged (done ++ rest) (rest.foldl mergeRequirement kept) := by
    intro rest
    induction rest with
    | nil =>
      intro done kept merged
      simpa using merged
    | cons record rest ih =>
      intro done kept merged
      simpa using ih (done ++ [record]) _ merged.step
  exact run records [] [] ⟨.nil, by simp, by simp⟩

theorem Merged.perm (merged : Merged records kept) (same : List.Perm sorted kept) :
    Merged records sorted where
  distinct := (same.pairwise_iff fun apart clash => apart clash.symm).mpr merged.distinct
  source := fun record member => merged.source record (same.mem_iff.mp member)
  covers := by
    intro record member
    obtain ⟨found, present, rest⟩ := merged.covers record member
    exact ⟨found, same.mem_iff.mpr present, rest⟩

/-- Records with the same key are one. -/
theorem Merged.eq_of_sameKey (merged : Merged records kept) (first : record ∈ kept)
    (second : other ∈ kept) (same : record.SameKey other) : record = other := by
  by_contra different
  have symmetric : Std.Symm fun first second : Requirement => ¬ first.SameKey second :=
    ⟨fun _ _ apart clash => apart clash.symm⟩
  exact merged.distinct.forall first second different same

/-- What is kept: the overrides, and the other records whose key has no override. -/
theorem Merged.mem_iff (merged : Merged records kept)
    (known : ∀ record ∈ records, record.origin = .inferred ∨ record.origin = .override) :
    record ∈ kept ↔ record ∈ records ∧ (record.origin = .override ∨
      ∀ other ∈ records, other.SameKey record → other.origin ≠ .override) := by
  constructor
  · intro member
    refine ⟨merged.source record member, ?_⟩
    by_cases override : record.origin = .override
    · exact .inl override
    · refine .inr fun other present same preferred => override ?_
      obtain ⟨found, foundMember, key, origin⟩ := merged.covers other present
      rw [merged.eq_of_sameKey member foundMember (key.trans same).symm]
      exact origin preferred
  · intro parts
    obtain ⟨present, decided⟩ := parts
    obtain ⟨found, member, key, origin⟩ := merged.covers record present
    have sameOrigin : found.origin = record.origin := by
      rcases decided with override | free
      · rw [origin override, override]
      · have inferred (other : Requirement) (source : other ∈ records)
            (same : other.SameKey record) : other.origin = .inferred :=
          (known other source).resolve_right (free other source same)
        rw [inferred found (merged.source found member) key, inferred record present ⟨rfl, rfl⟩]
    have same : found = record := by
      cases found
      cases record
      cases key.1
      cases key.2
      cases sameOrigin
      rfl
    exact same ▸ member

/-- The position of a name in a list of distinct names. -/
theorem lastIndex_getElem (distinct : names.Nodup) (i : Nat) (bound : i < names.length) :
    lastIndex names names[i] = i := by
  have bound' : names.length - 1 - i < names.reverse.length := by
    rw [List.length_reverse]
    omega
  have reversed : names.reverse[names.length - 1 - i] = names[i] := by
    rw [List.getElem_reverse]
    congr 1
    omega
  rw [lastIndex, ← reversed, (List.nodup_reverse.mpr distinct).idxOf_getElem]
  omega

theorem lastIndex_injective {name name' : String} (distinct : names.Nodup) (first : name ∈ names)
    (second : name' ∈ names) (same : lastIndex names name = lastIndex names name') :
    name = name' := by
  obtain ⟨i, bound, rfl⟩ := List.getElem_of_mem first
  obtain ⟨j, bound', rfl⟩ := List.getElem_of_mem second
  rw [lastIndex_getElem distinct, lastIndex_getElem distinct] at same
  subst same
  rfl

theorem lastIndex_increasing (distinct : names.Nodup) :
    names.Pairwise fun first second => lastIndex names first < lastIndex names second := by
  rw [List.pairwise_iff_getElem]
  intro i j first second earlier
  rw [lastIndex_getElem distinct, lastIndex_getElem distinct]
  exact earlier

theorem Requirement.before_iff {first second : Requirement} :
    first.before names second = true ↔
      lastIndex names first.param < lastIndex names second.param ∨
        lastIndex names first.param = lastIndex names second.param ∧
          first.capability.name ≤ second.capability.name := by
  simp only [before, Bool.or_eq_true, Bool.and_eq_true, decide_eq_true_eq, beq_iff_eq,
    Bool.not_eq_true', decide_eq_false_iff_not, not_lt]

theorem Requirement.before_trans (a b c : Requirement) (first : a.before names b)
    (second : b.before names c) : a.before names c := by
  rw [before_iff] at *
  rcases first with earlier | ⟨same, named⟩
  · rcases second with next | ⟨equal, _⟩
    · exact .inl (earlier.trans next)
    · exact .inl (equal ▸ earlier)
  · rcases second with next | ⟨equal, later⟩
    · exact .inl (same ▸ next)
    · exact .inr ⟨same.trans equal, named.trans later⟩

theorem Requirement.before_total (a b : Requirement) :
    a.before names b || b.before names a := by
  rw [Bool.or_eq_true, before_iff, before_iff]
  rcases Nat.lt_trichotomy (lastIndex names a.param) (lastIndex names b.param) with
    earlier | same | later
  · exact .inl (.inl earlier)
  · rcases le_total a.capability.name b.capability.name with named | named
    · exact .inl (.inr ⟨same, named⟩)
    · exact .inr (.inr ⟨same.symm, named⟩)
  · exact .inr (.inl later)

namespace Definition

variable {definition : Definition} {capability : Capability} {requirements : List Requirement}

/-- The requirements that no declared bound stands in for. -/
def unsuperseded (superseded : List String) (requirements : List Requirement) : List Requirement :=
  requirements.filter fun requirement =>
    !(requirement.origin = .inferred && superseded.contains requirement.param)

theorem mem_unsuperseded {superseded : List String} :
    record ∈ unsuperseded superseded requirements ↔
      record ∈ requirements ∧ ¬ (record.origin = .inferred ∧ record.param ∈ superseded) := by
  simp [unsuperseded, imp_iff_not_or]

/-- What consolidation comes to: nothing undeclared is named, and the bounds are the sorted records
that stand for the requirements kept. -/
structure Consolidated (definition : Definition) (superseded : List String)
    (requirements bounds : List Requirement) : Prop where
  declared : ∀ requirement ∈ requirements, requirement.param ∈ definition.typeParams
  merged : Merged (unsuperseded superseded requirements) bounds
  sorted : bounds.Pairwise fun first second => first.before definition.typeParams second

theorem Consolidated.of_consolidate
    (consolidated : definition.consolidate capability requirements = .ok bounds) :
    ∃ superseded, definition.superseded capability = .ok superseded ∧
      definition.Consolidated superseded requirements bounds := by
  simp only [consolidate, bind_eq_ok_iff, mapError_eq_ok_iff] at consolidated
  obtain ⟨superseded, found, consolidated⟩ := consolidated
  split at consolidated
  · simp only [throw_ne_ok] at consolidated
  · rename_i allDeclared
    rw [pure_eq_ok_iff] at consolidated
    subst consolidated
    refine ⟨superseded, found, ?_, ?_, ?_⟩
    · intro requirement member
      simpa using List.find?_eq_none.mp allDeclared requirement member
    · exact (Merged.foldl _).perm (List.mergeSort_perm _ _)
    · exact List.pairwise_mergeSort Requirement.before_trans Requirement.before_total _

/-- The bounds of one capability come in declaration order. -/
theorem Consolidated.increasing {superseded : List String} {bounds : List Requirement}
    (consolidated : definition.Consolidated superseded requirements bounds)
    (distinct : definition.typeParams.Nodup)
    (tagged : ∀ bound ∈ bounds, bound.capability = capability) :
    bounds.Pairwise fun first second =>
      lastIndex definition.typeParams first.param <
        lastIndex definition.typeParams second.param := by
  have declared (bound : Requirement) (member : bound ∈ bounds) :
      bound.param ∈ definition.typeParams :=
    consolidated.declared bound
      (mem_unsuperseded.mp (consolidated.merged.source bound member)).1
  have both := consolidated.sorted.and consolidated.merged.distinct
  apply both.imp_of_mem
  intro first second firstMember secondMember parts
  obtain ⟨ordered, apart⟩ := parts
  rcases Requirement.before_iff.mp ordered with earlier | ⟨same, _⟩
  · exact earlier
  · have param := lastIndex_injective distinct (declared first firstMember)
      (declared second secondMember) same
    have capability := (tagged first firstMember).trans (tagged second secondMember).symm
    exact absurd ⟨param, capability⟩ apart

end Definition

end DeriveBounds
