import Mathlib.Data.List.TakeWhile
import DeriveBounds.Proofs.Classified.Overrides
import DeriveBounds.Proofs.Classified.Shape
import DeriveBounds.Proofs.Token.Lossless

/-!
What the bounds of a member make of its field. A member whose type is read has, for every
capability that its bounds name, the names of all of these, and fails over the first bound that
names no capability. Bounds of other capabilities in between change nothing.
-/
namespace DeriveBounds

open Xml (Element)

variable {element other : Element} {expr : TypeExpr} {text type owner : String} {position : Int}
  {bounds : List Element} {field field' : Field}

theorem isBlank_of_strip_eq_empty (empty : Text.strip text = "") :
    ∀ c ∈ text.toList, Text.isBlank c = true := by
  have inner : ∀ c ∈ text.toList.dropWhile Text.isBlank, Text.isBlank c = true := by
    have chars := congrArg String.toList empty
    rw [Text.strip, String.toList_ofList, String.toList_empty, List.reverse_eq_nil_iff,
      List.dropWhile_eq_nil_iff] at chars
    exact fun c member => chars c (List.mem_reverse.mpr member)
  intro c member
  rw [← List.takeWhile_append_dropWhile (p := Text.isBlank) (l := text.toList)] at member
  rcases List.mem_append.mp member with front | behind
  · exact List.mem_takeWhile_imp front
  · exact inner c behind

/-- A text that is read as a type is not blank. -/
theorem strip_ne_empty_of_parseType (parsed : parseType text = .ok expr) :
    Text.strip text ≠ "" := by
  intro empty
  have spelled := Spells.behind_blanks (isBlank_of_strip_eq_empty empty) .done
  rw [List.append_nil] at spelled
  rw [parseType, tokenize_eq_ok_iff.mpr spelled] at parsed
  cases parsed

/-- Once the type of a member is read, only its bounds can fail. -/
theorem readMember_eq_map (parsed : parseType ((element.childText? "type").getD "") = .ok expr) :
    readMember element position type owner =
      (readOverrides type owner (memberKey element position) []
          (element.childrenTagged "bound")).map fun overrides =>
        ⟨memberKey element position, expr, isTrueMark (element.attributeD "skip"), overrides⟩ := by
  simp only [readMember, strip_ne_empty_of_parseType parsed, ↓reduceIte, parsed]
  cases readOverrides type owner (memberKey element position) []
    (element.childrenTagged "bound") <;> rfl

/-- The overrides of a field are what the bounds come to: none for a capability that no bound
names, and otherwise the names of all bounds that do, each once. They stand in the order in which
their capabilities are first named. -/
structure Overridden (bounds : List Element) (field : Field) : Prop where
  absent : ∀ capability, field.override? capability = none ↔
    ∀ bound ∈ bounds, boundCapability? bound ≠ some capability
  present : ∀ capability, (∃ bound ∈ bounds, boundCapability? bound = some capability) →
    field.override? capability = some (boundNames (boundsOn capability bounds))
  once : (field.overrides.map (·.capability)).Nodup
  order : field.overrides.map (·.capability) = (bounds.filterMap boundCapability?).eraseDups

theorem Accumulates.overridden (accumulates : Accumulates bounds field.overrides) :
    Overridden bounds field := by
  have absent (capability : Capability) : field.override? capability = none ↔
      ∀ bound ∈ bounds, boundCapability? bound ≠ some capability := by
    have unnamed : field.override? capability = none ↔ boundsOn capability bounds = [] :=
      accumulates.absent capability
    rw [unnamed, boundsOn, List.filter_eq_nil_iff]
    simp only [decide_eq_true_eq, ne_eq]
  constructor
  case absent => exact absent
  case present =>
    intro capability named
    obtain ⟨bound, member, named⟩ := named
    cases read : field.override? capability with
    | none => exact absurd named ((absent capability).mp read bound member)
    | some params => exact congrArg some (accumulates.present capability params read)
  case once => exact accumulates.once.capabilities
  case order => exact accumulates.order

theorem MemberRead.accumulates (read : MemberRead element position type owner field) :
    Accumulates (element.childrenTagged "bound") field.overrides :=
  Accumulates.empty.readOverrides read.overrides

/-- The override of a capability depends on the bounds that name it, and on no others. -/
theorem Accumulates.override?_congr {others : List Element} {capability : Capability}
    (accumulates : Accumulates bounds field.overrides)
    (accumulates' : Accumulates others field'.overrides)
    (same : boundsOn capability bounds = boundsOn capability others) :
    field.override? capability = field'.override? capability := by
  cases read : field.override? capability with
  | none =>
    have none := (accumulates.absent capability).mp read
    exact ((accumulates'.absent capability).mpr (same ▸ none)).symm
  | some params =>
    have found : field'.override? capability ≠ none := by
      intro unnamed
      have none := (accumulates'.absent capability).mp unnamed
      have unnamed' := (accumulates.absent capability).mpr (same.trans none)
      cases read.symm.trans unnamed'
    obtain ⟨params', read'⟩ := Option.ne_none_iff_exists'.mp found
    rw [read', accumulates.present _ _ read, accumulates'.present _ _ read', same]

/-- A member whose type is read comes to the overrides of its bounds, or fails over the first bound
that names no capability. -/
theorem readMember_overridden (parsed : parseType ((element.childText? "type").getD "") = .ok expr)
    (position : Int) (type owner : String) :
    let bounds := element.childrenTagged "bound"
    ((∀ bound ∈ bounds, boundCapability? bound ≠ none) →
        ∃ field, readMember element position type owner = .ok field ∧ field.type = expr ∧
          Overridden bounds field) ∧
      ((∃ bound ∈ bounds, boundCapability? bound = none) →
        ∃ bound error, bounds.find? (boundCapability? · = none) = some bound ∧
          readCapability (bound.attribute? "capability") type
            (.bound owner (memberKey element position)) = .error error ∧
          error.code = .unknownCapability ∧
          readMember element position type owner = .error error) ∧
      ∀ (other : Element) (position' : Int) (type' owner' : String) (field field' : Field),
        readMember element position type owner = .ok field →
        readMember other position' type' owner' = .ok field' →
        ∀ capability, boundsOn capability bounds =
            boundsOn capability (other.childrenTagged "bound") →
          field.override? capability = field'.override? capability := by
  intro bounds
  rw [readMember_eq_map parsed]
  refine ⟨fun named => ?_, fun unnamed => ?_, ?_⟩
  · obtain ⟨overrides, read⟩ := exists_readOverrides named []
    rw [read]
    refine ⟨_, rfl, rfl, Accumulates.overridden ?_⟩
    exact Accumulates.empty.readOverrides read
  · obtain ⟨bound, first⟩ : ∃ bound, bounds.find? (boundCapability? · = none) = some bound := by
      rw [← Option.isSome_iff_exists, List.find?_isSome]
      simpa using unnamed
    obtain ⟨error, failed, code, read⟩ := readOverrides_refused first []
    rw [read]
    exact ⟨bound, error, first, failed, code, rfl⟩
  · rw [← readMember_eq_map parsed]
    intro other position' type' owner' field field' read read' capability same
    have accumulates := (MemberRead.of_readMember read).accumulates
    have accumulates' := (MemberRead.of_readMember read').accumulates
    exact accumulates.override?_congr accumulates' same

private def boundOn (name names : String) : Element :=
  ⟨"bound", [("capability", name)], some names, []⟩

private def boundedMember (bounds : List Element) : Element :=
  ⟨"member", [], none, ⟨"type", [], some "T", []⟩ :: bounds⟩

/-- Bounds in several spellings, some in between, one that asks for no names and one that names no
capability. -/
theorem readMember_overridden_sample :
    let mixed := boundedMember
      [boundOn "clone" "T, U", boundOn "Eq" "", boundOn "core::clone::Clone" "V T"]
    let plain := boundedMember [boundOn "clone" "T, U", boundOn "core::clone::Clone" "V T"]
    let wrong := boundedMember [boundOn "clone" "T", boundOn "Copy" "T"]
    parseType ((mixed.childText? "type").getD "") = .ok (.path false [.mk "T" []]) ∧
      ∃ field, readMember mixed 0 "Pair" "Pair" = .ok field ∧
        field.override? .clone = some ["T", "U", "V"] ∧ field.override? .eq = some [] ∧
        field.override? .debug = none ∧
        (∃ error, readMember wrong 0 "Pair" "Pair" = .error error ∧
          error.code = .unknownCapability) ∧
        ∃ field', readMember plain 0 "Pair" "Pair" = .ok field' ∧
          field.override? .clone = field'.override? .clone := by
  intro mixed plain wrong
  have parsed : parseType ((mixed.childText? "type").getD "") = .ok (.path false [.mk "T" []]) := by
    cbv
  have parsed' : parseType ((wrong.childText? "type").getD "") = .ok (.path false [.mk "T" []]) := by
    cbv
  obtain ⟨reads, _, interleaved⟩ := readMember_overridden parsed 0 "Pair" "Pair"
  obtain ⟨_, refused, _⟩ := readMember_overridden parsed' 0 "Pair" "Pair"
  obtain ⟨field, read, _, overridden⟩ := reads (by decide)
  obtain ⟨field', read'⟩ : ∃ field', readMember plain 0 "Pair" "Pair" = .ok field' :=
    ⟨⟨.position 0, .path false [.mk "T" []], false, [⟨.clone, ["T", "U", "V"]⟩]⟩, by cbv⟩
  have same : boundsOn .clone (mixed.childrenTagged "bound") =
      boundsOn .clone (plain.childrenTagged "bound") := by cbv
  have clone : boundOn "clone" "T, U" ∈ mixed.childrenTagged "bound" := List.mem_cons_self
  have eq : boundOn "Eq" "" ∈ mixed.childrenTagged "bound" :=
    List.mem_cons_of_mem _ List.mem_cons_self
  have copy : boundOn "Copy" "T" ∈ wrong.childrenTagged "bound" :=
    List.mem_cons_of_mem _ List.mem_cons_self
  obtain ⟨_, error, _, _, code, failed⟩ := refused ⟨_, copy, by decide⟩
  refine ⟨parsed, field, read, ?_, ?_, ?_, ⟨error, failed, code⟩, field', read',
    interleaved _ _ _ _ _ _ read read' _ same⟩
  · rw [overridden.present .clone ⟨_, clone, by decide⟩]
    decide
  · rw [overridden.present .eq ⟨_, eq, by decide⟩]
    decide
  · rw [overridden.absent]
    decide

end DeriveBounds
