import DeriveBounds.Proofs.Body.Arms
import DeriveBounds.Proofs.Classified.Coherent

/-!
The names that patterns give to fields. The names for one value never meet those for the other. For
one value they are distinct as long as no two fields are written alike but for the raw identifier
mark, which is left out of the names.
-/
namespace DeriveBounds

variable {variant : Variant} {fields : List Field} {first second : Field}

namespace Field

/-- The label has a raw identifier mark. -/
def isRaw (field : Field) : Bool := "r#".toList.isPrefixOf field.label.toList

theorem isRaw_iff : first.isRaw = true ↔ ∃ name, first.label = "r#" ++ name := by
  rw [isRaw, List.isPrefixOf_iff_prefix]
  constructor
  · intro begins
    obtain ⟨name, same⟩ := begins
    exact ⟨String.ofList name, String.toList_inj.mp (by simp [← same])⟩
  · intro marked
    obtain ⟨name, same⟩ := marked
    rw [same, String.toList_append]
    exact List.prefix_append _ _

theorem plainName_of_marked {name : String} (marked : first.label = "r#" ++ name) :
    first.plainName = name := by
  have chars : first.label.toList = 'r' :: '#' :: name.toList := by
    rw [marked, String.toList_append]
    rfl
  simp [plainName, chars]

theorem plainName_of_plain (plain : first.isRaw = false) : first.plainName = first.label := by
  unfold plainName
  split
  · rename_i name chars
    rw [isRaw, chars] at plain
    cases plain
  · rfl

/-- The same name, once without and once with the raw identifier mark. -/
def RawTwin (plain raw : Field) : Prop := plain.isRaw = false ∧ raw.label = "r#" ++ plain.label

instance : DecidableRel RawTwin := fun plain raw =>
  inferInstanceAs (Decidable (plain.isRaw = false ∧ raw.label = "r#" ++ plain.label))

theorem RawTwin.label_ne (twins : RawTwin first second) : first.label ≠ second.label := by
  obtain ⟨plain, marked⟩ := twins
  intro same
  have raw : first.isRaw = true := isRaw_iff.mpr ⟨first.label, same.trans marked⟩
  rw [plain] at raw
  cases raw

theorem RawTwin.plainName_eq (twins : RawTwin first second) :
    first.plainName = second.plainName := by
  rw [plainName_of_plain twins.1, plainName_of_marked twins.2]

/-- Labels that differ lose their difference only by the mark. -/
theorem rawTwin_of_plainName_eq (same : first.plainName = second.plainName)
    (different : first.label ≠ second.label) : RawTwin first second ∨ RawTwin second first := by
  cases raw : first.isRaw with
  | true =>
    obtain ⟨name, marked⟩ := isRaw_iff.mp raw
    rw [plainName_of_marked marked] at same
    cases alsoRaw : second.isRaw with
    | true =>
      obtain ⟨other, alsoMarked⟩ := isRaw_iff.mp alsoRaw
      rw [plainName_of_marked alsoMarked] at same
      exact absurd (by rw [marked, alsoMarked, same]) different
    | false =>
      rw [plainName_of_plain alsoRaw] at same
      exact .inr ⟨alsoRaw, same ▸ marked⟩
  | false =>
    rw [plainName_of_plain raw] at same
    cases alsoRaw : second.isRaw with
    | true =>
      obtain ⟨other, alsoMarked⟩ := isRaw_iff.mp alsoRaw
      rw [plainName_of_marked alsoMarked] at same
      exact .inl ⟨raw, same ▸ alsoMarked⟩
    | false =>
      rw [plainName_of_plain alsoRaw] at same
      exact absurd same different

end Field

/-- Two of the fields are twins. -/
def RawTwins (fields : List Field) : Prop :=
  ∃ plain ∈ fields, ∃ raw ∈ fields, plain.RawTwin raw

instance : DecidablePred RawTwins := fun fields =>
  inferInstanceAs (Decidable (∃ plain ∈ fields, ∃ raw ∈ fields, plain.RawTwin raw))

/-- Fields with distinct labels have distinct plain names exactly when no two are twins. -/
theorem plainNames_nodup_iff (distinct : (fields.map Field.label).Nodup) :
    (fields.map Field.plainName).Nodup ↔ ¬ RawTwins fields := by
  constructor
  · intro once twins
    obtain ⟨plain, plainMember, raw, rawMember, twin⟩ := twins
    have same := List.inj_on_of_nodup_map once plainMember rawMember twin.plainName_eq
    exact twin.label_ne (congrArg Field.label same)
  · intro apart
    refine List.Nodup.map_on ?_ distinct.of_map
    intro field member other otherMember same
    by_contra different
    have labels : field.label ≠ other.label :=
      fun alike => different (List.inj_on_of_nodup_map distinct member otherMember alike)
    rcases Field.rawTwin_of_plainName_eq same labels with twin | twin
    · exact apart ⟨field, member, other, otherMember, twin⟩
    · exact apart ⟨other, otherMember, field, member, twin⟩

namespace Pattern

variable {pattern other : Pattern}

/-- The names a pattern gives to fields, in order. -/
def names (pattern : Pattern) : List String := pattern.bindings.map Place.text

/-- A pattern binds the fields that it is told to bind. -/
theorem bindings_eq_filter (pattern : Pattern)
    (unit : pattern.variant.style = .unit → pattern.variant.fields = []) :
    pattern.bindings =
      (pattern.variant.fields.filter pattern.binds).map (.binding pattern.side) := by
  rw [bindings, marks_pattern _ unit]
  induction pattern.variant.fields with
  | nil => rfl
  | cons field rest ih =>
    cases bound : pattern.binds field with
    | true => simpa [bound, List.filterMap_cons, Piece.bound?] using ih
    | false => simpa [bound, List.filterMap_cons, Piece.bound?] using ih

/-- The names for `self` and for `other` differ before the name of the field begins. -/
theorem text_binding_ne {mine its : Side} (sides : mine ≠ its) :
    (Place.binding mine first).text ≠ (Place.binding its second).text := by
  intro same
  have chars := congrArg String.toList same
  cases mine <;> cases its <;> simp [Place.text, Side.name] at chars sides

section

variable (unit : pattern.variant.style = .unit → pattern.variant.fields = [])

include unit

theorem names_eq : pattern.names =
    (pattern.variant.fields.filter pattern.binds).map fun field =>
      (Place.binding pattern.side field).text := by
  rw [names, bindings_eq_filter _ unit, List.map_map]
  rfl

theorem names_nodup_iff (distinct : (pattern.variant.fields.map Field.label).Nodup) :
    pattern.names.Nodup ↔ ¬ RawTwins (pattern.variant.fields.filter pattern.binds) := by
  have kept : ((pattern.variant.fields.filter pattern.binds).map Field.label).Nodup :=
    (List.filter_sublist.map _).nodup distinct
  have prefixed : pattern.names =
      ((pattern.variant.fields.filter pattern.binds).map Field.plainName).map
        ("__" ++ pattern.side.name ++ "_" ++ ·) := by
    rw [names_eq unit, List.map_map]
    rfl
  have injective : Function.Injective ("__" ++ pattern.side.name ++ "_" ++ ·) :=
    fun _ _ same => by simpa using same
  rw [prefixed, List.nodup_map_iff injective, plainNames_nodup_iff kept]

theorem names_disjoint (otherUnit : other.variant.style = .unit → other.variant.fields = [])
    (sides : pattern.side ≠ other.side) : pattern.names.Disjoint other.names := by
  rw [names_eq unit, names_eq otherUnit]
  intro name own its
  obtain ⟨field, _, same⟩ := List.mem_map.mp own
  obtain ⟨otherField, _, alike⟩ := List.mem_map.mp its
  exact text_binding_ne sides (same.trans alike.symm)

end

/-- In the arms of a classified enum a pattern binds the fields that it is told to bind. The names
it gives them are distinct exactly when it binds no twins, and they never meet those of a pattern
for the other value. -/
theorem names_distinct_iff {element : Xml.Element} {definition : Definition}
    {variants : List Variant} (classified : classify element = .ok definition)
    (shape : definition.shape = .enum variants) (member : variant ∈ variants) :
    (∀ side binds,
        (Pattern.mk side variant binds).bindings =
            (variant.fields.filter binds).map (.binding side) ∧
          ((Pattern.mk side variant binds).names.Nodup ↔
            ¬ RawTwins (variant.fields.filter binds))) ∧
      (∀ mine its binds bindsToo, mine ≠ its →
        (Pattern.mk mine variant binds).names.Disjoint
          (Pattern.mk its variant bindsToo).names) ∧
      (equalArm variant).patterns.Pairwise fun mine its => mine.names.Disjoint its.names := by
  have parts := Classified.of_classify classified
  have unit := (parts.unit_iff shape member).mp
  obtain ⟨_, read⟩ := parts.variant_read shape member
  refine ⟨?_, ?_, ?_⟩
  · intro side binds
    exact ⟨bindings_eq_filter _ unit, names_nodup_iff unit read.fields.distinct⟩
  · intro mine its binds bindsToo sides
    exact names_disjoint unit unit sides
  · rw [equalArm, List.pairwise_pair]
    exact names_disjoint unit unit (by simp)

/-- An enum whose variant has the fields `kind` and `r#kind`, of which the latter is skipped. -/
private def twinElement : Xml.Element :=
  let leaf (tag text : String) : Xml.Element := ⟨tag, [], some text, []⟩
  let member (name skip : String) : Xml.Element :=
    ⟨"member", [("skip", skip)], none, [leaf "name" name, leaf "type" "u8"]⟩
  ⟨"type", [("name", "Token"), ("category", "enum")], none, [
    ⟨"variant", [("name", "Word")], none, [member "kind" "", member "r#kind" "true",
      member "r#type" ""]⟩]⟩

private def twinVariant : Variant :=
  let field (name : String) (skip : Bool) : Field :=
    ⟨.named name, .path false [.mk "u8" []], skip, []⟩
  ⟨"Word", .struct, [field "kind" false, field "r#kind" true, field "r#type" false]⟩

private def twinDefinition : Definition := ⟨"Token", [], .enum [twinVariant], [], []⟩

private theorem classify_twinElement : classify twinElement = .ok twinDefinition := by cbv

/-- Where the twin is skipped and left out, all names are distinct. -/
theorem names_distinct_iff_sample :
    classify twinElement = .ok twinDefinition ∧ twinDefinition.shape = .enum [twinVariant] ∧
      twinVariant ∈ [twinVariant] ∧ (Pattern.mk .self twinVariant (!·.skip)).names.Nodup := by
  have present : twinVariant ∈ [twinVariant] := List.mem_singleton_self _
  obtain ⟨own, _⟩ := names_distinct_iff classify_twinElement rfl present
  exact ⟨classify_twinElement, rfl, present, (own .self (!·.skip)).2.mpr (by decide)⟩

/-- A pattern that binds both twins, as for `Clone`, binds one name twice. -/
theorem names_clash :
    classify twinElement = .ok twinDefinition ∧ twinDefinition.shape = .enum [twinVariant] ∧
      (cloneArm twinVariant).patterns.map names =
        [["__self_kind", "__self_kind", "__self_type"]] ∧
      ¬ ["__self_kind", "__self_kind", "__self_type"].Nodup :=
  ⟨classify_twinElement, rfl, by cbv, by decide⟩

end Pattern

end DeriveBounds
