import DeriveBounds.Proofs.Bounds.Exact
import DeriveBounds.Proofs.Bounds.Refusal

/-!
Consolidation depends on no more than which requirements there are. What is kept is said of the
requirements as a set, and the records come in a strict order, so their order and repetition make no
difference; what is consolidated already can be consolidated again, alone or together with others.
-/
namespace DeriveBounds

namespace Requirement

/-- The origins that requirements of fields have. -/
def Known (requirement : Requirement) : Prop :=
  requirement.origin = .inferred ∨ requirement.origin = .override

/-- The parameter is declared earlier, or it is the same and the capability has a smaller name. -/
def Precedes (names : List String) (first second : Requirement) : Prop :=
  names.idxOf first.param < names.idxOf second.param ∨
    names.idxOf first.param = names.idxOf second.param ∧
      first.capability.name < second.capability.name

variable {names : List String} {first second : Requirement}

theorem not_precedes_self : ¬ first.Precedes names first := by
  intro earlier
  rcases earlier with before | ⟨_, named⟩
  · exact Nat.lt_irrefl _ before
  · exact lt_irrefl _ named

theorem Precedes.asymm (earlier : first.Precedes names second) :
    ¬ second.Precedes names first := by
  intro later
  rcases earlier with before | ⟨same, named⟩
  · rcases later with after | ⟨alike, _⟩
    · exact Nat.lt_asymm before after
    · exact Nat.lt_irrefl _ (alike ▸ before)
  · rcases later with after | ⟨_, unnamed⟩
    · exact Nat.lt_irrefl _ (same ▸ after)
    · exact lt_asymm named unnamed

end Requirement

/-- Records in strict order are known by their members. -/
theorem eq_of_precedes {names : List String} {records others : List Requirement}
    (sorted : records.Pairwise (Requirement.Precedes names))
    (otherSorted : others.Pairwise (Requirement.Precedes names))
    (same : ∀ record, record ∈ records ↔ record ∈ others) : records = others := by
  have irreflexive : Std.Irrefl (Requirement.Precedes names) :=
    ⟨fun _ => Requirement.not_precedes_self⟩
  have antisymmetric : Std.Antisymm (Requirement.Precedes names) :=
    ⟨fun _ _ earlier later => absurd later earlier.asymm⟩
  exact sorted.eq_of_mem_iff otherSorted same

theorem Capability.name_injective {capability other : Capability}
    (same : capability.name = other.name) : capability = other := by
  cases capability <;> cases other <;> first | rfl | exact absurd same (by decide)

theorem lastIndex_eq_idxOf {names : List String} {name : String} (distinct : names.Nodup)
    (member : name ∈ names) : lastIndex names name = names.idxOf name := by
  have found := lastIndex_getElem distinct _ (List.idxOf_lt_length_iff.mpr member)
  rwa [List.getElem_idxOf] at found

/-- What of the requirements is kept: the overrides, and the others that neither a declared bound
nor an override stands in for. -/
structure Kept (superseded : List String) (requirements : List Requirement)
    (record : Requirement) : Prop where
  source : record ∈ requirements
  stands : record.origin = .override ∨ record.param ∉ superseded ∧
    ∀ other ∈ requirements, other.SameKey record → other.origin ≠ .override

namespace Kept

variable {superseded : List String} {requirements first second kept more : List Requirement}
  {record : Requirement}

theorem of_override (member : record ∈ requirements) (override : record.origin = .override) :
    Kept superseded requirements record :=
  ⟨member, .inl override⟩

/-- Only which requirements there are decides what is kept. -/
theorem congr (same : ∀ record, record ∈ first ↔ record ∈ second) :
    Kept superseded first record ↔ Kept superseded second record := by
  constructor
  · intro own
    refine ⟨(same record).mp own.source, own.stands.imp_right fun ⟨free, alone⟩ => ⟨free, ?_⟩⟩
    exact fun other member => alone other ((same other).mpr member)
  · intro own
    refine ⟨(same record).mpr own.source, own.stands.imp_right fun ⟨free, alone⟩ => ⟨free, ?_⟩⟩
    exact fun other member => alone other ((same other).mp member)

/-- Keeping each part first makes no difference for the whole: overrides are always kept, and what
stands in for a record in the whole stands in for it in its part, or is kept in the other. -/
theorem append (firstKept : ∀ record, record ∈ kept ↔ Kept superseded first record)
    (secondKept : ∀ record, record ∈ more ↔ Kept superseded second record) :
    Kept superseded (kept ++ more) record ↔ Kept superseded (first ++ second) record := by
  have included : ∀ other, other ∈ kept ++ more → other ∈ first ++ second := by
    intro other member
    rcases List.mem_append.mp member with early | late
    · exact List.mem_append_left _ ((firstKept other).mp early).source
    · exact List.mem_append_right _ ((secondKept other).mp late).source
  have overrides : ∀ other ∈ first ++ second, other.origin = .override → other ∈ kept ++ more := by
    intro other member override
    rcases List.mem_append.mp member with early | late
    · exact List.mem_append_left _ ((firstKept other).mpr (.of_override early override))
    · exact List.mem_append_right _ ((secondKept other).mpr (.of_override late override))
  constructor
  · intro own
    refine ⟨included record own.source, own.stands.imp_right fun ⟨free, alone⟩ => ⟨free, ?_⟩⟩
    intro other member same override
    exact alone other (overrides other member override) same override
  · intro own
    refine ⟨?_, own.stands.imp_right fun ⟨free, alone⟩ => ⟨free, ?_⟩⟩
    · rcases own.stands with override | ⟨free, alone⟩
      · exact overrides record own.source override
      · rcases List.mem_append.mp own.source with early | late
        · exact List.mem_append_left _ ((firstKept record).mpr
            ⟨early, .inr ⟨free, fun other member => alone other (List.mem_append_left _ member)⟩⟩)
        · exact List.mem_append_right _ ((secondKept record).mpr
            ⟨late, .inr ⟨free, fun other member => alone other (List.mem_append_right _ member)⟩⟩)
    · exact fun other member => alone other (included other member)

/-- What is kept is kept again. -/
theorem again (keptOf : ∀ record, record ∈ kept ↔ Kept superseded first record) :
    Kept superseded kept record ↔ Kept superseded first record := by
  have nothing : ∀ record, record ∈ [] ↔ Kept superseded [] record :=
    fun record => ⟨nofun, fun own => own.source⟩
  simpa using append keptOf nothing

end Kept

namespace Definition

variable {definition : Definition} {capability : Capability} {superseded : List String}
  {requirements others bounds : List Requirement} {record : Requirement}

theorem Consolidated.mem_iff_kept
    (consolidated : definition.Consolidated superseded requirements bounds)
    (known : ∀ requirement ∈ requirements, requirement.Known) :
    record ∈ bounds ↔ Kept superseded requirements record := by
  have knownToo : ∀ record ∈ unsuperseded superseded requirements, record.Known :=
    fun record member => known record (mem_unsuperseded.mp member).1
  rw [consolidated.merged.mem_iff knownToo, mem_unsuperseded]
  constructor
  · intro parts
    obtain ⟨⟨source, free⟩, decided⟩ := parts
    refine ⟨source, ?_⟩
    rcases known record source with inferred | override
    · refine .inr ⟨fun stands => free ⟨inferred, stands⟩, ?_⟩
      intro other member same preferred
      -- an override is never superseded
      have present : other ∈ unsuperseded superseded requirements :=
        mem_unsuperseded.mpr ⟨member, by simp [preferred]⟩
      exact (decided.resolve_left (by simp [inferred])) other present same preferred
    · exact .inl override
  · intro own
    rcases own.stands with override | ⟨free, alone⟩
    · exact ⟨⟨own.source, by simp [override]⟩, .inl override⟩
    · refine ⟨⟨own.source, fun superseded => free superseded.2⟩, .inr ?_⟩
      exact fun other member => alone other (mem_unsuperseded.mp member).1

/-- The bounds come in strict order, so there is one for each parameter and capability. -/
theorem Consolidated.precedes
    (consolidated : definition.Consolidated superseded requirements bounds)
    (distinct : definition.typeParams.Nodup) :
    bounds.Pairwise (Requirement.Precedes definition.typeParams) := by
  have declared (bound : Requirement) (member : bound ∈ bounds) :
      bound.param ∈ definition.typeParams :=
    consolidated.declared bound (mem_unsuperseded.mp (consolidated.merged.source bound member)).1
  have both := consolidated.sorted.and consolidated.merged.distinct
  apply both.imp_of_mem
  intro first second firstMember secondMember parts
  obtain ⟨ordered, apart⟩ := parts
  rw [Requirement.Precedes, ← lastIndex_eq_idxOf distinct (declared first firstMember),
    ← lastIndex_eq_idxOf distinct (declared second secondMember)]
  rcases Requirement.before_iff.mp ordered with earlier | ⟨same, named⟩
  · exact .inl earlier
  · refine .inr ⟨same, lt_of_le_of_ne named fun alike =>
      apart ⟨?_, Capability.name_injective alike⟩⟩
    exact lastIndex_injective distinct (declared first firstMember)
      (declared second secondMember) same

section

variable (found : definition.superseded capability = .ok superseded)

include found

/-- A requirement that names another parameter is refused. -/
theorem consolidate_undeclared
    (undeclared : ∃ requirement ∈ requirements, requirement.param ∉ definition.typeParams) :
    ∃ error, definition.consolidate capability requirements = .error (.refused error) ∧
      error.code = .invalidOverride := by
  have some : (requirements.find? fun requirement =>
      !definition.typeParams.contains requirement.param).isSome = true := by
    simpa using undeclared
  obtain ⟨requirement, first⟩ := Option.isSome_iff_exists.mp some
  simp only [consolidate, found, first]
  exact ⟨_, rfl, rfl⟩

theorem Consolidated.of_eq_ok
    (consolidated : definition.consolidate capability requirements = .ok bounds) :
    definition.Consolidated superseded requirements bounds := by
  obtain ⟨others, alsoFound, parts⟩ := Consolidated.of_consolidate consolidated
  cases found.symm.trans alsoFound
  exact parts

/-- Requirements of which the same is kept come to the same bounds. -/
theorem consolidate_congr (distinct : definition.typeParams.Nodup)
    (known : ∀ requirement ∈ requirements, requirement.Known)
    (othersKnown : ∀ requirement ∈ others, requirement.Known)
    (declared : ∀ requirement ∈ others, requirement.param ∈ definition.typeParams)
    (same : ∀ record, Kept superseded others record ↔ Kept superseded requirements record)
    (consolidated : definition.consolidate capability requirements = .ok bounds) :
    definition.consolidate capability others = .ok bounds := by
  obtain ⟨otherBounds, othersConsolidated⟩ := exists_consolidate found declared
  have parts := Consolidated.of_eq_ok found consolidated
  have otherParts := Consolidated.of_eq_ok found othersConsolidated
  rw [othersConsolidated]
  congr 1
  apply eq_of_precedes (otherParts.precedes distinct) (parts.precedes distinct)
  intro record
  rw [otherParts.mem_iff_kept othersKnown, parts.mem_iff_kept known, same]

end

theorem kept_iff (found : definition.superseded capability = .ok superseded) :
    Kept superseded requirements record ↔ record ∈ requirements ∧
      (record.origin = .override ∨ definition.standsIn capability record.param = false ∧
        ⟨record.param, record.capability, .override⟩ ∉ requirements) := by
  have free : definition.standsIn capability record.param = false ↔ record.param ∉ superseded := by
    rw [← standsIn_iff found, Bool.not_eq_true]
  rw [free]
  constructor
  · intro own
    refine ⟨own.source, own.stands.imp_right fun ⟨free, alone⟩ => ⟨free, ?_⟩⟩
    exact fun member => alone _ member ⟨rfl, rfl⟩ rfl
  · intro parts
    obtain ⟨source, decided⟩ := parts
    refine ⟨source, decided.imp_right fun ⟨free, absent⟩ => ⟨free, ?_⟩⟩
    intro other member same override
    obtain ⟨param, tag, origin⟩ := other
    cases same.1
    cases same.2
    cases override
    exact absent member

/-- What consolidation makes of requirements. -/
structure Consolidates (definition : Definition) (capability : Capability)
    (requirements bounds : List Requirement) : Prop where
  consolidated : definition.consolidate capability requirements = .ok bounds
  increasing : bounds.Pairwise (Requirement.Precedes definition.typeParams)
  single : (bounds.map fun bound => (bound.param, bound.capability)).Nodup
  kept : ∀ record, record ∈ bounds ↔ record ∈ requirements ∧
    (record.origin = .override ∨ definition.standsIn capability record.param = false ∧
      ⟨record.param, record.capability, .override⟩ ∉ requirements)
  overrides : ∀ param tag, ⟨param, tag, .override⟩ ∈ bounds ↔ ⟨param, tag, .override⟩ ∈ requirements
  alike : ∀ others, (∀ record, record ∈ others ↔ record ∈ requirements) →
    definition.consolidate capability others = .ok bounds
  again : definition.consolidate capability bounds = .ok bounds

section

variable (found : definition.superseded capability = .ok superseded)
  (distinct : definition.typeParams.Nodup)

include found distinct

theorem Consolidates.of_eq_ok (known : ∀ requirement ∈ requirements, requirement.Known)
    (consolidated : definition.consolidate capability requirements = .ok bounds) :
    definition.Consolidates capability requirements bounds := by
  have parts := Consolidated.of_eq_ok found consolidated
  have kept (record : Requirement) : record ∈ bounds ↔ Kept superseded requirements record :=
    parts.mem_iff_kept known
  have source (record : Requirement) (member : record ∈ bounds) : record ∈ requirements :=
    ((kept record).mp member).source
  have increasing := parts.precedes distinct
  constructor
  case consolidated => exact consolidated
  case increasing => exact increasing
  case single =>
    refine List.pairwise_map.mpr (increasing.imp ?_)
    intro first second earlier same
    obtain ⟨param, tag⟩ := Prod.mk.injEq .. ▸ same
    rcases earlier with before | ⟨_, named⟩
    · exact Nat.ne_of_lt before (by rw [param])
    · exact ne_of_lt named (by rw [tag])
  case kept => exact fun record => (kept record).trans (kept_iff found)
  case overrides =>
    exact fun param tag => ⟨source _, fun member => (kept _).mpr (.of_override member rfl)⟩
  case alike =>
    intro others same
    refine consolidate_congr found distinct known ?_ ?_ (fun _ => Kept.congr same) consolidated
    · exact fun record member => known record ((same record).mp member)
    · exact fun record member => parts.declared record ((same record).mp member)
  case again =>
    refine consolidate_congr found distinct known ?_ ?_ (fun _ => Kept.again kept) consolidated
    · exact fun record member => known record (source record member)
    · exact fun record member => parts.declared record (source record member)

/-- Bounds of two lists of requirements come together to the bounds of both lists. -/
theorem Consolidates.append {more moreBounds : List Requirement}
    (known : ∀ requirement ∈ requirements, requirement.Known)
    (moreKnown : ∀ requirement ∈ more, requirement.Known)
    (first : definition.consolidate capability requirements = .ok bounds)
    (second : definition.consolidate capability more = .ok moreBounds) :
    definition.consolidate capability (bounds ++ moreBounds) =
      definition.consolidate capability (requirements ++ more) := by
  have firstParts := Consolidated.of_eq_ok found first
  have secondParts := Consolidated.of_eq_ok found second
  have firstKept (record : Requirement) : record ∈ bounds ↔ Kept superseded requirements record :=
    firstParts.mem_iff_kept known
  have secondKept (record : Requirement) : record ∈ moreBounds ↔ Kept superseded more record :=
    secondParts.mem_iff_kept moreKnown
  have allKnown : ∀ requirement ∈ requirements ++ more, requirement.Known :=
    List.forall_mem_append.mpr ⟨known, moreKnown⟩
  have allDeclared : ∀ requirement ∈ requirements ++ more,
      requirement.param ∈ definition.typeParams :=
    List.forall_mem_append.mpr ⟨firstParts.declared, secondParts.declared⟩
  have source (record : Requirement) (member : record ∈ bounds ++ moreBounds) :
      record ∈ requirements ++ more := by
    rcases List.mem_append.mp member with early | late
    · exact List.mem_append_left _ ((firstKept record).mp early).source
    · exact List.mem_append_right _ ((secondKept record).mp late).source
  obtain ⟨both, consolidated⟩ := exists_consolidate found allDeclared
  rw [consolidated]
  refine consolidate_congr found distinct allKnown ?_ ?_ ?_ consolidated
  · exact fun record member => allKnown record (source record member)
  · exact fun record member => allDeclared record (source record member)
  · exact fun _ => Kept.append firstKept secondKept

end

end Definition

end DeriveBounds
