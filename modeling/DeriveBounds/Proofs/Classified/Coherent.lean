import DeriveBounds.Proofs.Capability
import DeriveBounds.Proofs.Classified.Keys
import DeriveBounds.Proofs.Classified.Overrides

/-!
What every classified definition promises. All names are identifiers, and no two parameters,
variants, fields of one list or overrides of one field are alike; the keys of a list of fields fit
its style; every type was read from a text. So what is made of a definition needs no checks of its
own.
-/
namespace DeriveBounds

open Xml (Element)

variable {element : Element} {elements : List Element} {definition : Definition}
  {variant : Variant} {variants : List Variant} {shape : Shape} {type owner text name : String}

section Names

theorem isBlank_eq_false_of_getLast?_strip
    (last : (Text.strip text).toList.getLast? = some c) : Text.isBlank c = false := by
  rw [Text.strip, String.toList_ofList, List.getLast?_reverse] at last
  exact not_of_head?_dropWhile last

theorem isIdent_of_isName (named : isName name = true)
    (closed : name.toList.getLast? ≠ some '\n') : isIdent name.toList = true := by
  simpa [isName, closed] using named

/-- A stripped text ends in no line feed, so as a name it is an identifier. -/
theorem getLast?_strip_ne_lineFeed (text : String) :
    (Text.strip text).toList.getLast? ≠ some '\n' := by
  intro last
  exact absurd (isBlank_eq_false_of_getLast?_strip last) (by decide)

theorem isIdent_of_isName_strip (named : isName (Text.strip text) = true) :
    isIdent (Text.strip text).toList = true :=
  isIdent_of_isName named (getLast?_strip_ne_lineFeed text)

/-- The names of a kind of parameters: identifiers, behind an apostrophe for lifetimes. -/
def ParamKind.Names (kind : ParamKind) (name : String) : Prop :=
  match kind with
  | .lifetime => ∃ ident, name.toList = '\x27' :: ident ∧ isIdent ident = true
  | .type | .const => isIdent name.toList = true

theorem ParamKind.names_strip {kind : ParamKind}
    (named : isParamName kind (Text.strip text) = true) : kind.Names (Text.strip text) := by
  have last := getLast?_strip_ne_lineFeed text
  generalize Text.strip text = name at named last
  cases kind with
  | type => exact isIdent_of_isName named last
  | const => exact isIdent_of_isName named last
  | lifetime =>
    simp only [isParamName, isLifetimeName] at named
    split at named
    · rename_i ident same
      refine ⟨ident, same, ?_⟩
      have inner : (String.ofList ident).toList.getLast? ≠ some '\n' := by
        intro found
        rw [String.toList_ofList] at found
        apply last
        rw [same, List.getLast?_cons, found]
        rfl
      simpa using isIdent_of_isName named inner
    · cases named

end Names

/-- What a parameter promises. -/
structure GenericParam.Coherent (param : GenericParam) : Prop where
  name : param.kind.Names param.name
  constType : param.kind = .const → ∃ type, param.constType = some type ∧ type ≠ ""

theorem GenericParam.Coherent.of_readParam {param : GenericParam}
    (read : readParam element type = .ok param) : param.Coherent := by
  obtain ⟨name, _, valid, _, typed, _⟩ := readParam_eq_ok read
  constructor
  case name =>
    rw [name] at valid ⊢
    exact ParamKind.names_strip valid
  case constType =>
    intro const
    obtain ⟨given, found⟩ := Option.ne_none_iff_exists'.mp (typed const)
    obtain ⟨type, same, filled⟩ := Option.bind_eq_some_iff.mp found
    obtain ⟨kept, filled⟩ := nonEmpty_eq_some_iff.mp filled
    exact ⟨type, same, kept ▸ filled⟩

/-- What a variant promises. -/
structure Variant.Coherent (variant : Variant) : Prop where
  name : isIdent variant.name.toList = true
  style : StyleFits variant.style variant.fields

/-- What a shape promises: its keys fit its kind, and no two variants have the same name. -/
def Shape.Coherent : Shape → Prop
  | .struct fields => KeyedByName fields
  | .tuple fields => fields ≠ [] ∧ KeyedByPosition fields
  | .enum variants =>
    (variants.map (·.name)).Nodup ∧ ∀ variant ∈ variants, variant.Coherent

theorem VariantRead.coherent (read : VariantRead element type variant) : variant.Coherent := by
  constructor
  case name =>
    have valid := read.validName
    rw [read.name] at valid ⊢
    exact isIdent_of_isName_strip valid
  case style => exact read.fields.styleFits

/-- A variant that is read takes its name from all that come behind it. -/
theorem readVariants_distinct {taken : List String}
    (read : readVariants type taken elements = .ok variants) :
    (variants.map (·.name)).Nodup ∧ ∀ variant ∈ variants, variant.name ∉ taken := by
  induction elements generalizing variants taken with
  | nil =>
    cases read
    simp
  | cons element rest ih =>
    simp only [readVariants] at read
    split at read
    · split at read
      · simp only [bind_eq_ok_iff, throw_ne_ok, false_and, exists_false] at read
      · rename_i free
        simp only [bind_eq_ok_iff, pure_eq_ok_iff] at read
        obtain ⟨⟨style, fields⟩, _, others, othersRead, same⟩ := read
        subst same
        obtain ⟨distinct, fresh⟩ := ih othersRead
        constructor
        · rw [List.map_cons, List.nodup_cons]
          refine ⟨?_, distinct⟩
          intro repeated
          obtain ⟨other, member, same⟩ := List.mem_map.mp repeated
          exact fresh other member (by simp [same])
        · rw [List.forall_mem_cons]
          refine ⟨by simpa using free, ?_⟩
          intro other member own
          exact fresh other member (List.mem_append_left _ own)
    · simp only [bind_eq_ok_iff, throw_ne_ok, false_and, exists_false] at read

theorem ShapeRead.coherent (read : ShapeRead element type shape) : shape.Coherent := by
  cases read with
  | record style fields fieldsRead =>
    have fits := fieldsRead.styleFits
    split
    · rename_i tuple
      exact fits.tuple.mp tuple
    · rename_i other
      by_cases empty : fields = []
      · subst empty
        exact ⟨by simp, by simp⟩
      · have struct : style = .struct := by
          cases style with
          | unit => exact absurd (fits.unit.mp rfl) empty
          | tuple => exact absurd rfl other
          | struct => rfl
        exact (fits.struct.mp struct).2
  | enum variants variantsRead =>
    refine ⟨(readVariants_distinct variantsRead).1, ?_⟩
    intro variant member
    obtain ⟨source, _, read⟩ := readVariants_mem variantsRead member
    exact read.coherent

/-- What a definition promises. -/
structure Definition.Coherent (definition : Definition) : Prop where
  name : isIdent definition.name.toList = true
  params : ∀ param ∈ definition.params, param.Coherent
  distinct : (definition.params.map (·.name)).Nodup
  shape : definition.shape.Coherent
  overrides : ∀ field ∈ definition.shape.fields, OverridesOnce field.overrides
  fieldTypes : ∀ field ∈ definition.shape.fields, ∃ text, parseType text = .ok field.type
  boundTypes : ∀ bound ∈ definition.boundedTo, ∃ text, parseType text = .ok bound.type
  derivesOnce : definition.derives.Nodup
  derivesOrdered : definition.derives.Sublist Capability.all

theorem Classified.coherent (classified : Classified element definition) :
    definition.Coherent := by
  have shape := ShapeRead.of_readShape classified.shape
  obtain ⟨requested, _, derives⟩ := classified.derives
  constructor
  case name =>
    have valid := classified.validName
    rw [classified.name] at valid ⊢
    exact isIdent_of_isName_strip valid
  case params =>
    intro param member
    obtain ⟨source, _, read⟩ := readParams_mem classified.params param member
    exact .of_readParam read
  case distinct => exact classified.distinct
  case shape => exact shape.coherent
  case overrides =>
    intro field member
    obtain ⟨_, _, _, read⟩ := shape.member member
    exact (Accumulates.empty.readOverrides read.overrides).once
  case fieldTypes =>
    intro field member
    obtain ⟨_, _, _, read⟩ := shape.member member
    exact ⟨_, read.parsed⟩
  case boundTypes => exact fun _ member => readBoundedTo_parsed classified.boundedTo member
  case derivesOnce =>
    rw [derives]
    exact Capability.ordered_nodup requested
  case derivesOrdered =>
    rw [derives]
    exact Capability.ordered_sublist requested

/-- Every classified definition is coherent. Members that are each read make fields exactly when
none of them has a name, or all have and no two the same. -/
theorem classify_coherent :
    (∀ element definition, classify element = .ok definition → definition.Coherent) ∧
      ∀ (members : List Element) (type owner : String),
        (∀ entry ∈ members.zipIdx,
          ∃ field, readMember entry.1 entry.2 type owner = .ok field) →
        ((∃ style fields, readFields members type owner = .ok (style, fields)) ↔
          (∀ member ∈ members, memberName member = "") ∨
            (∀ member ∈ members, memberName member ≠ "") ∧ (members.map memberName).Nodup) :=
  ⟨fun _ _ classified => (Classified.of_classify classified).coherent,
    fun _ _ _ accepted => readFields_succeeds_iff accepted⟩

private def pairMember (name : String) : Element :=
  let leaf (tag text : String) : Element := ⟨tag, [], some text, []⟩
  ⟨"member", [], none, [leaf "name" name, leaf "type" "T",
    ⟨"bound", [("capability", "clone")], some "T, T", []⟩]⟩

private def pairField (name : String) : Field :=
  ⟨.named name, .path false [.mk "T" []], false, [⟨.clone, ["T"]⟩]⟩

/-- A struct with a parameter of each kind, whose names have blanks around them. -/
private def pairElement : Element :=
  let param (attributes : List (String × String)) : Element := ⟨"param", attributes, none, []⟩
  ⟨"type", [("name", " Pair\n"), ("category", "struct"), ("derive", "Eq, Clone Eq")], none, [
    param [("name", "'a\n"), ("kind", "lifetime")],
    param [("name", "T")],
    param [("name", "N"), ("kind", "const"), ("type", "usize")],
    pairMember "left", pairMember " right\n"]⟩

private def pairDefinition : Definition :=
  ⟨"Pair", [⟨"'a", .lifetime, none, none⟩, ⟨"T", .type, none, none⟩,
      ⟨"N", .const, none, some "usize"⟩],
    .struct [pairField "left", pairField "right"], [], [.clone, .eq]⟩

theorem classify_coherent_sample :
    classify pairElement = .ok pairDefinition ∧ pairDefinition.Coherent ∧
      ∃ style fields, readFields [pairMember "left", pairMember "right"] "Pair" "Pair" =
        .ok (style, fields) := by
  have classified : classify pairElement = .ok pairDefinition := by cbv
  have left : readMember (pairMember "left") 0 "Pair" "Pair" = .ok (pairField "left") := by cbv
  have right : readMember (pairMember "right") 1 "Pair" "Pair" = .ok (pairField "right") := by
    cbv
  obtain ⟨coherent, fields⟩ := classify_coherent
  refine ⟨classified, coherent _ _ classified, (fields _ _ _ ?_).mpr (.inr ⟨?_, ?_⟩)⟩
  · simpa using ⟨⟨_, left⟩, _, right⟩
  · decide
  · decide

end DeriveBounds
