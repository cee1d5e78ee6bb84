import DeriveBounds.Proofs.Classified.Unreadable
import DeriveBounds.Proofs.Run.Conservation

/-!
The number of types that a report begins with. Classified elements are counted by their rows, and
the refused ones by the names they are reported under, so refused elements of one name count as one.
-/
namespace DeriveBounds

open Xml (Element)

/-- The name under which an element is reported where it is refused: its name without blanks around
it if that is accepted, and else the name as it is written, if there is one. -/
def reportedName (element : Element) : String :=
  if isName (Text.strip (element.attributeD "name")) then Text.strip (element.attributeD "name")
  else firstName [element.attribute? "name"]

/-- The names under which the elements are reported that are refused. -/
def refusedNames (elements : List Element) : List String :=
  (elements.filter fun element => (classify element).toOption.isNone).map reportedName

variable {element : Element} {elements : List Element} {error : DeriveError}

theorem length_eraseDups_eq_iff {names : List String} :
    names.eraseDups.length = names.length ↔ names.Nodup := by
  have once : names.eraseDups.toFinset = names.toFinset := by
    ext name
    simp
  rw [← List.toFinset_card_of_nodup (eraseDups_nodup names), once]
  exact Multiset.toFinset_card_eq_card_iff_nodup

theorem type_ofError (refused : classify element = .error error) :
    (Failure.ofError error (element.attribute? "name")).type = reportedName element := by
  unfold reportedName
  split
  · rename_i named
    have about := (classify_unreadable named error refused).type
    have filled : Text.strip (element.attributeD "name") ≠ "" := by
      intro empty
      rw [empty] at named
      exact absurd named (by decide)
    simp [Failure.ofError, about, firstName]
  · rename_i unnamed
    rw [Bool.not_eq_true] at unnamed
    rw [classify_of_unnamed unnamed] at refused
    cases refused
    rfl

theorem capability_ofError (refused : classify element = .error error) (name : Option String) :
    (Failure.ofError error name).capability = none := by
  rcases classify_failsOnly element error refused with unnamed | unreadable
  · subst unnamed
    rfl
  · exact unreadable.capability

theorem map_type_failuresOf (elements : List Element) :
    (failuresOf elements).map (·.type) = refusedNames elements := by
  rw [failuresOf, refusedNames, List.map_filterMap, ← List.filterMap_eq_filter, List.map_filterMap]
  apply List.filterMap_congr
  intro element _
  cases classified : classify element with
  | ok definition => simp [classified, Except.toOption, Option.guard]
  | error error => simp [classified, Except.toOption, Option.guard, type_ofError classified]

theorem length_definitionsOf_add_failuresOf (elements : List Element) :
    (definitionsOf elements).length + (failuresOf elements).length = elements.length := by
  have either := List.length_eq_countP_add_countP
    (fun element => (classify element).toOption.isSome) (l := elements)
  rw [definitionsOf, failuresOf, List.length_filterMap_eq_countP, List.length_filterMap_eq_countP,
    either]
  rw [Nat.add_left_cancel_iff]
  apply List.countP_congr
  intro element _
  cases classify element <;> simp [Except.toOption]

theorem Summary.text_eq (summary : Summary) : ∃ rest, summary.text =
    "boundgen: " ++ toString summary.typeCount ++ " types processed\n" ++ rest := by
  have first : "boundgen: " ++ toString summary.typeCount ++ " types processed\n" =
      "boundgen: " ++ toString summary.typeCount ++ " types processed" ++ "\n" := by
    simp only [String.append_assoc]
    rfl
  rw [first, text]
  simp only [List.cons_append]
  exact ⟨_, Text.join_cons_cons ..⟩

namespace GenerateJob

variable (job : GenerateJob)

theorem filterMap_typeFailure? (selected : List Element) :
    selected.filterMap job.typeFailure? = failuresOf selected := by
  apply List.filterMap_congr
  intro element _
  cases job.contributes element with
  | row definition result classified _ passed => rw [passed, classified]
  | failure error refused _ failed => rw [failed, refused]

theorem length_derivations (selected : List Element) :
    (selected.filterMap job.derivation?).length = (definitionsOf selected).length := by
  have definitions : (selected.filterMap job.derivation?).map (·.definition) =
      definitionsOf selected := by
    rw [List.map_filterMap]
    apply List.filterMap_congr
    intro element _
    cases job.contributes element with
    | row definition result classified derived _ same =>
      rw [derived, classified, Option.map_some, same]
      rfl
    | failure error refused underived =>
      rw [underived, refused]
      rfl
  rw [← definitions, List.length_map]

/-- Only elements that are refused are reported without a capability. -/
theorem filter_failures_summaryOf (selected : List Element) (written : Option Written) :
    (job.summaryOf selected written).failures.filter (·.capability.isNone) =
      failuresOf selected := by
  have refused : (failuresOf selected).filter (·.capability.isNone) = failuresOf selected := by
    rw [List.filter_eq_self]
    intro failure member
    obtain ⟨element, _, found⟩ := List.mem_filterMap.mp member
    split at found
    · rename_i error classified
      cases found
      rw [capability_ofError classified]
      rfl
    · cases found
  have derived : ((selected.filterMap job.derivation?).flatMap (·.failures)).filter
      (·.capability.isNone) = [] := by
    rw [List.filter_eq_nil_iff]
    intro failure member
    obtain ⟨result, produced, member⟩ := List.mem_flatMap.mp member
    obtain ⟨element, _, found⟩ := List.mem_filterMap.mp produced
    cases job.contributes element with
    | failure error refused underived =>
      rw [underived] at found
      cases found
    | row definition _ classified derived _ _ _ reported =>
      rw [derived] at found
      cases found
      have tagged : failure.capability ∈ result.failures.map (·.capability) :=
        List.mem_map_of_mem member
      rw [reported, List.mem_map] at tagged
      obtain ⟨capability, _, same⟩ := tagged
      simp [← same]
  rw [summaryOf, List.filter_append, filterMap_typeFailure?, refused, derived, List.append_nil]

theorem typeCount_summaryOf (selected : List Element) (written : Option Written) :
    (job.summaryOf selected written).typeCount =
      (definitionsOf selected).length + (refusedNames selected).eraseDups.length := by
  rw [Summary.typeCount, filter_failures_summaryOf, map_type_failuresOf, ← job.length_derivations]
  rw [summaryOf, List.length_map]

/-- A report begins with the number of classified elements and of the names under which others are
refused. This is the number of selected elements if and only if no two that are refused share a
name. -/
theorem summary_counts_iff (selected : List Element) (written : Option Written) :
    ∃ processed rest, job.batchOptions.processAll selected = .ok processed ∧
      (job.summary processed written).text =
        "boundgen: " ++ toString (job.summary processed written).typeCount ++
          " types processed\n" ++ rest ∧
      (job.summary processed written).typeCount =
        (definitionsOf selected).length + (refusedNames selected).eraseDups.length ∧
      ((job.summary processed written).typeCount = selected.length ↔
        (refusedNames selected).Nodup) := by
  obtain ⟨processed, all, summary, _⟩ := job.summarized selected
  obtain ⟨rest, text⟩ := (job.summary processed written).text_eq
  have counted : (job.summary processed written).typeCount = _ :=
    (congrArg Summary.typeCount (summary written)).trans (job.typeCount_summaryOf selected written)
  refine ⟨processed, rest, all, text, counted, ?_⟩
  have parts := length_definitionsOf_add_failuresOf selected
  have refused : (refusedNames selected).length = (failuresOf selected).length := by
    rw [← map_type_failuresOf, List.length_map]
  rw [counted, ← length_eraseDups_eq_iff]
  omega

/-- Two elements without a name. -/
private def unnamedElements : List Element := [⟨"type", [], none, []⟩, ⟨"type", [], none, []⟩]

private def printingJob : GenerateJob :=
  ⟨⟨"", ["types.xml"]⟩, .absent, [], [], defaultPhantoms⟩

/-- Elements that are refused without a name count as one. -/
theorem summary_merges_unnamed : ∃ processed rest,
    printingJob.batchOptions.processAll unnamedElements = .ok processed ∧
      (printingJob.summary processed none).text = "boundgen: 1 types processed\n" ++ rest ∧
      unnamedElements.length = 2 := by
  let failure : Failure := .ofError (.typeName "") none
  have refused : printingJob.batchOptions.process ⟨"type", [], none, []⟩ =
      .ok (.refused failure) :=
    printingJob.batchOptions.process_of_refused (classify_of_unnamed rfl)
  have all : printingJob.batchOptions.processAll unnamedElements =
      .ok [.refused failure, .refused failure] := by
    simp only [unnamedElements, BatchOptions.processAll, refused]
    rfl
  have counted : (printingJob.summary [.refused failure, .refused failure] none).typeCount = 1 := by
    cbv
  have begins : "boundgen: " ++ toString 1 ++ " types processed\n" =
      "boundgen: 1 types processed\n" := by decide
  obtain ⟨rest, text⟩ := (printingJob.summary [.refused failure, .refused failure] none).text_eq
  rw [counted, begins] at text
  exact ⟨_, rest, all, text, rfl⟩

end GenerateJob

end DeriveBounds
