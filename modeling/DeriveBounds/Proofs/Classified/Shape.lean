import DeriveBounds.Proofs.Classified
import DeriveBounds.Proofs.TypeExpr.Mention

/-!
How the shape of a classified definition was read: every field is a member that was read, and every
list of fields has the style that its members call for. So all types of a classified definition are
proper, and a variant is a unit exactly when it has no fields.
-/
namespace DeriveBounds

open Xml (Element)

variable {element : Element} {elements members : List Element} {definition : Definition}
  {field : Field} {fields : List Field} {style : Style} {variant : Variant}
  {variants : List Variant} {shape : Shape} {type owner : String}

/-- Where each part of a field comes from. -/
structure MemberRead (element : Element) (position : Int) (type owner : String) (field : Field) :
    Prop where
  key : field.key = memberKey element position
  parsed : parseType ((element.childText? "type").getD "") = .ok field.type
  skip : field.skip = isTrueMark (element.attributeD "skip")
  overrides : readOverrides type owner field.key [] (element.childrenTagged "bound") =
    .ok field.overrides

theorem MemberRead.of_readMember {position : Int}
    (read : readMember element position type owner = .ok field) :
    MemberRead element position type owner field := by
  simp only [readMember] at read
  split at read
  · simp only [bind_eq_ok_iff, throw_ne_ok, false_and, exists_false] at read
  · simp only [bind_eq_ok_iff, mapError_eq_ok_iff, pure_eq_ok_iff] at read
    obtain ⟨expr, parsed, overrides, overridesRead, same⟩ := read
    subst same
    constructor
    case key => simp only
    case parsed => simpa only using parsed
    case skip => simp only
    case overrides => simpa only using overridesRead

theorem readMembers_mem {position : Nat}
    (read : readMembers type owner position members = .ok fields) (member : field ∈ fields) :
    ∃ element ∈ members, ∃ place, MemberRead element place type owner field := by
  induction members generalizing fields position with
  | nil =>
    cases read
    simp at member
  | cons element rest ih =>
    simp only [readMembers, bind_eq_ok_iff, pure_eq_ok_iff] at read
    obtain ⟨first, firstRead, others, othersRead, same⟩ := read
    subst same
    rcases List.mem_cons.mp member with own | later
    · subst own
      exact ⟨element, List.mem_cons_self .., _, .of_readMember firstRead⟩
    · obtain ⟨source, present, found⟩ := ih othersRead later
      exact ⟨source, List.mem_cons_of_mem _ present, found⟩

/-- The style that a list of fields calls for. -/
def styleOf (fields : List Field) : Style :=
  if fields.isEmpty then .unit
  else if fields.any (·.key.isNamed) then .struct
  else .tuple

theorem styleOf_eq_unit_iff : styleOf fields = .unit ↔ fields = [] := by
  unfold styleOf
  split
  · rename_i empty
    simpa using empty
  · rename_i filled
    split <;> simpa using filled

/-- What a list of members comes to. -/
structure FieldsRead (members : List Element) (type owner : String) (style : Style)
    (fields : List Field) : Prop where
  read : readMembers type owner 0 members = .ok fields
  uniform : fields.any (·.key.isNamed) = true → fields.all (·.key.isNamed) = true
  distinct : (fields.map Field.label).Nodup
  style : style = styleOf fields

theorem FieldsRead.of_readFields (read : readFields members type owner = .ok (style, fields)) :
    FieldsRead members type owner style fields := by
  simp only [readFields] at read
  split at read
  · rename_i empty
    obtain rfl := List.isEmpty_iff.mp empty
    cases pure_eq_ok_iff.mp read
    exact ⟨rfl, by simp, by simp, rfl⟩
  · rename_i some
    obtain ⟨found, foundRead, read⟩ := bind_eq_ok_iff.mp read
    split at read
    · simp only [bind_eq_ok_iff, throw_ne_ok, false_and, exists_false] at read
    · rename_i unmixed
      split at read
      · simp only [bind_eq_ok_iff, throw_ne_ok, false_and, exists_false] at read
      · rename_i single
        cases pure_eq_ok_iff.mp read
        have distinct : firstRepeated? (fields.map Field.label) = none :=
          Option.eq_none_iff_forall_ne_some.mpr single
        have filled : fields.isEmpty = false := by
          cases members with
          | nil => simp at some
          | cons first rest =>
            simp only [readMembers, bind_eq_ok_iff, pure_eq_ok_iff] at foundRead
            obtain ⟨_, _, _, _, same⟩ := foundRead
            subst same
            rfl
        refine ⟨foundRead, ?_, (firstRepeated?_eq_none_iff _).mp distinct, ?_⟩
        · intro named
          simpa [named] using unmixed
        · simp only [styleOf, filled, Bool.false_eq_true, ↓reduceIte]

/-- Where a variant comes from. -/
structure VariantRead (element : Element) (type : String) (variant : Variant) : Prop where
  name : variant.name = Text.strip (element.attributeD "name")
  validName : isName variant.name = true
  fields : FieldsRead (element.childrenTagged "member") type (type ++ "::" ++ variant.name)
    variant.style variant.fields

theorem readVariants_mem {taken : List String}
    (read : readVariants type taken elements = .ok variants) (member : variant ∈ variants) :
    ∃ element ∈ elements, VariantRead element type variant := by
  induction elements generalizing variants taken with
  | nil =>
    cases read
    simp at member
  | cons element rest ih =>
    simp only [readVariants] at read
    split at read
    · rename_i validName
      split at read
      · simp only [bind_eq_ok_iff, throw_ne_ok, false_and, exists_false] at read
      · simp only [bind_eq_ok_iff, pure_eq_ok_iff] at read
        obtain ⟨⟨style, fields⟩, fieldsRead, others, othersRead, same⟩ := read
        subst same
        rcases List.mem_cons.mp member with own | later
        · subst own
          exact ⟨element, List.mem_cons_self .., rfl, validName, .of_readFields fieldsRead⟩
        · obtain ⟨source, present, found⟩ := ih othersRead later
          exact ⟨source, List.mem_cons_of_mem _ present, found⟩
    · simp only [bind_eq_ok_iff, throw_ne_ok, false_and, exists_false] at read

/-- How a shape was read. -/
inductive ShapeRead (element : Element) (type : String) : Shape → Prop where
  | record (style : Style) (fields : List Field)
      (read : FieldsRead (element.childrenTagged "member") type type style fields) :
      ShapeRead element type (if style = .tuple then .tuple fields else .struct fields)
  | enum (variants : List Variant)
      (read : readVariants type [] (element.childrenTagged "variant") = .ok variants) :
      ShapeRead element type (.enum variants)

theorem ShapeRead.of_readShape (read : readShape element type = .ok shape) :
    ShapeRead element type shape := by
  simp only [readShape] at read
  split at read
  · simp only [bind_eq_ok_iff, pure_eq_ok_iff] at read
    obtain ⟨⟨style, fields⟩, fieldsRead, same⟩ := read
    subst same
    exact .record style fields (.of_readFields fieldsRead)
  · split at read
    · simp only [bind_eq_ok_iff, pure_eq_ok_iff] at read
      obtain ⟨variants, variantsRead, same⟩ := read
      subst same
      exact .enum variants variantsRead
    · simp only [bind_eq_ok_iff, throw_ne_ok, false_and, exists_false] at read
  · simp only [throw_ne_ok] at read

theorem ShapeRead.member (read : ShapeRead element type shape) (member : field ∈ shape.fields) :
    ∃ source position owner, MemberRead source position type owner field := by
  cases read with
  | record style fields fieldsRead =>
    have present : field ∈ fields := by
      split at member <;> exact member
    obtain ⟨source, _, position, read⟩ := readMembers_mem fieldsRead.read present
    exact ⟨source, position, type, read⟩
  | enum variants variantsRead =>
    obtain ⟨variant, present, own⟩ := List.mem_flatMap.mp member
    obtain ⟨source, _, variantRead⟩ := readVariants_mem variantsRead present
    obtain ⟨element, _, position, read⟩ := readMembers_mem variantRead.fields.read own
    exact ⟨element, position, _, read⟩

theorem readBoundedTo_parsed {bound : BoundedTo} {bounds : List BoundedTo}
    (read : readBoundedTo type elements = .ok bounds) (member : bound ∈ bounds) :
    ∃ text, parseType text = .ok bound.type := by
  induction elements generalizing bounds with
  | nil =>
    cases read
    simp at member
  | cons element rest ih =>
    -- the rest is read alike with and without a capability
    have parts : ∃ capability expr, parseType (element.text.getD "") = .ok expr ∧
        ∃ others, readBoundedTo type rest = .ok others ∧ ⟨expr, capability⟩ :: others = bounds := by
      simp only [readBoundedTo] at read
      split at read
      all_goals
        simp only [bind_eq_ok_iff, mapError_eq_ok_iff, pure_eq_ok_iff] at read
        obtain ⟨capability, _, expr, parts⟩ := read
        exact ⟨capability, expr, parts⟩
    obtain ⟨capability, expr, parsed, others, othersRead, same⟩ := parts
    subst same
    rcases List.mem_cons.mp member with own | later
    · subst own
      exact ⟨_, parsed⟩
    · exact ih othersRead later

/-- All types that a definition holds are proper. -/
structure Definition.Typed (definition : Definition) : Prop where
  fields : ∀ field ∈ definition.shape.fields, field.type.Proper
  bounds : ∀ bound ∈ definition.boundedTo, bound.type.Proper

theorem Classified.typed (classified : Classified element definition) : definition.Typed where
  fields := by
    intro field member
    obtain ⟨_, _, _, read⟩ := (ShapeRead.of_readShape classified.shape).member member
    exact parseType_proper read.parsed
  bounds := by
    intro bound member
    obtain ⟨_, parsed⟩ := readBoundedTo_parsed classified.boundedTo member
    exact parseType_proper parsed

theorem Classified.variant_read (classified : Classified element definition)
    (shape : definition.shape = .enum variants) (member : variant ∈ variants) :
    ∃ source, VariantRead source definition.name variant := by
  have read := ShapeRead.of_readShape classified.shape
  rw [shape] at read
  generalize same : Shape.enum variants = found at read
  cases read with
  | record style fields fieldsRead => split at same <;> cases same
  | enum found variantsRead =>
    cases same
    obtain ⟨source, _, read⟩ := readVariants_mem variantsRead member
    exact ⟨source, read⟩

/-- A variant has the style of a unit exactly when it has no fields. -/
theorem Classified.unit_iff (classified : Classified element definition)
    (shape : definition.shape = .enum variants) (member : variant ∈ variants) :
    variant.style = .unit ↔ variant.fields = [] := by
  obtain ⟨_, read⟩ := classified.variant_read shape member
  rw [read.fields.style, styleOf_eq_unit_iff]

end DeriveBounds
