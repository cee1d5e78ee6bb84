import DeriveBounds.Proofs.Body.Texts

/-!
Fields changed one by one. A body reads of a field no more than its key and, where the capability
passes over skipped fields, its skip mark, so its text stays the same under any change that keeps
these.
-/
namespace DeriveBounds

/-- The variant with its fields changed one by one. -/
def Variant.mapFields (change : Field → Field) (variant : Variant) : Variant :=
  { variant with fields := variant.fields.map change }

def Shape.mapFields (change : Field → Field) : Shape → Shape
  | struct fields => struct (fields.map change)
  | tuple fields => tuple (fields.map change)
  | enum variants => enum (variants.map (Variant.mapFields change))

/-- The definition with its fields changed one by one. -/
def Definition.mapFields (change : Field → Field) (definition : Definition) : Definition :=
  { definition with shape := definition.shape.mapFields change }

theorem Definition.shape_mapFields (change : Field → Field) (definition : Definition) :
    (definition.mapFields change).shape = definition.shape.mapFields change := rfl

section

variable {change : Field → Field}
  (named : ∀ field, (change field).key = field.key)
  {fields : List Field} {variant : Variant} {definition : Definition} {capability : Capability}

include named

theorem Field.label_change (field : Field) : (change field).label = field.label := by
  rw [label, label, named]

theorem Field.plainName_change (field : Field) : (change field).plainName = field.plainName := by
  rw [plainName, plainName, label_change named]

theorem Place.text_binding_change (side : Side) (field : Field) :
    (binding side (change field)).text = (binding side field).text := by
  rw [text, text, Field.plainName_change named]

theorem Place.text_member_change (side : Side) (field : Field) :
    (member side (change field)).text = (member side field).text := by
  rw [text, text, Field.label_change named]

theorem textsOf_structBlock_change {part : Field → Line}
    (same : ∀ field, (part (change field)).text = (part field).text) :
    textsOf (structBlock (fields.map change) part) = textsOf (structBlock fields part) := by
  rw [textsOf_structBlock, textsOf_structBlock]
  cases fields with
  | nil => rfl
  | cons first rest =>
    simp [Shape.builtText, same, Field.label_change named, Function.comp_def]

theorem text_inlineRecord_change {part : Field → Line}
    (same : ∀ field, (part (change field)).text = (part field).text) :
    (inlineRecord (variant.mapFields change) part).text = (inlineRecord variant part).text := by
  rw [text_inlineRecord, text_inlineRecord]
  unfold Variant.recordText Variant.mapFields
  cases variant.style <;> simp [same, Field.label_change named, Function.comp_def]

omit named in
theorem textsOf_tupleBlock_change {part : Field → Line}
    (same : ∀ field, (part (change field)).text = (part field).text) :
    textsOf (tupleBlock (fields.map change) part) = textsOf (tupleBlock fields part) := by
  rw [textsOf_tupleBlock, textsOf_tupleBlock]
  simp [Shape.builtText, same, Function.comp_def]

theorem text_cloneMember_change (field : Field) :
    (cloneMember (change field)).text = (cloneMember field).text := by
  simp [cloneMember, cloneOf, Piece.text, Place.text_member_change named]

theorem textsOf_cloneArm_change :
    textsOf (cloneArm (variant.mapFields change)).lines = textsOf (cloneArm variant).lines := by
  simp [cloneArm, Arm.lines, Arm.patternLine, Pattern.line, text_inlineRecord_change named, cloneOf,
    Piece.text, Place.text_binding_change named]

theorem textsOf_cloneBody_change :
    textsOf (cloneBody (definition.mapFields change)) = textsOf (cloneBody definition) := by
  unfold cloneBody Definition.mapFields
  rw [textsOf_functionBlock, textsOf_functionBlock]
  congr 3
  cases definition.shape with
  | tuple fields => exact textsOf_tupleBlock_change (text_cloneMember_change named)
  | struct fields => exact textsOf_structBlock_change named (text_cloneMember_change named)
  | enum variants =>
    cases variants with
    | nil => rfl
    | cons first rest =>
      simp [Shape.mapFields, textsOf_matchBlock, textsOf_cloneArm_change named, List.flatMap_map]

theorem textsOf_defaultBody_change :
    (defaultBody (definition.mapFields change)).map textsOf =
      (defaultBody definition).map textsOf := by
  unfold defaultBody Definition.mapFields
  cases definition.shape with
  | enum variants => rfl
  | tuple fields =>
    simp [Shape.mapFields, Except.map, textsOf_functionBlock, textsOf_tupleBlock_change, Piece.text]
  | struct fields =>
    simp [Shape.mapFields, Except.map, textsOf_functionBlock, textsOf_structBlock_change named,
      Piece.text]

section

variable (kept : ∀ field, (change field).skip = field.skip)

include kept

omit named in
theorem keptFields_change (fields : List Field) :
    keptFields (fields.map change) = (keptFields fields).map change := by
  simp [keptFields, List.filter_map, Function.comp_def, kept]

omit named in
theorem textsOf_comparisons_change {place : Side → Field → Place}
    (same : ∀ side field, (place side (change field)).text = (place side field).text) :
    textsOf (comparisons place (fields.map change)) = textsOf (comparisons place fields) := by
  simp [comparisons, keptFields_change kept, textsOf_map, Piece.text, same, Function.comp_def]

theorem text_pattern_change (side : Side) :
    (Pattern.mk side (variant.mapFields change) (!·.skip)).line.text =
      (Pattern.mk side variant (!·.skip)).line.text := by
  apply text_inlineRecord_change named
  intro field
  simp only [kept]
  split <;> simp [Piece.text, Place.text_binding_change named]

omit kept in
theorem text_quotedName_change (field : Field) :
    (quotedName (change field)).text = (quotedName field).text := by
  simp [quotedName, Piece.text, Field.plainName_change named]

theorem textsOf_debugArm_change :
    textsOf (debugArm (variant.mapFields change)).lines = textsOf (debugArm variant).lines := by
  have fields : keptFields (variant.mapFields change).fields =
      (keptFields variant.fields).map change := keptFields_change kept variant.fields
  refine textsOf_arm_congr (text_pattern_change named kept .self) ?_
  simp only [debugArm, fields]
  simp only [Variant.mapFields]
  cases variant.style with
  | unit => exact .inline _ _ rfl
  | tuple =>
    refine .block _ _ ?_
    simp [textsOf_showFields, textsOf_map, Piece.text, Place.text_binding_change named,
      Function.comp_def]
  | struct =>
    refine .block _ _ ?_
    simp [textsOf_showFields, textsOf_map, Piece.text, Place.text_binding_change named,
      text_quotedName_change named, Function.comp_def]

theorem textsOf_equalArm_change :
    textsOf (equalArm (variant.mapFields change)).lines = textsOf (equalArm variant).lines := by
  have compared : textsOf (comparisons .binding (variant.fields.map change)) =
      textsOf (comparisons .binding variant.fields) :=
    textsOf_comparisons_change kept (Place.text_binding_change named)
  refine textsOf_arm_congr ?_ (.inline _ _ ?_)
  · simp [equalArm, Arm.patternLine, Line.separated, text_pattern_change named kept]
  · simp only [Variant.mapFields, text_allEqualLine, compared]

theorem textsOf_debugBody_change :
    textsOf (debugBody (definition.mapFields change)) = textsOf (debugBody definition) := by
  unfold debugBody Definition.mapFields
  rw [textsOf_functionBlock, textsOf_functionBlock]
  congr 3
  cases definition.shape with
  | tuple fields =>
    simp [Shape.mapFields, keptFields_change kept, textsOf_showFields, textsOf_map, Piece.text,
      Place.text_member_change named, Function.comp_def]
  | struct fields =>
    cases fields with
    | nil => rfl
    | cons first rest =>
      have others : keptFields (change first :: rest.map change) =
          (keptFields (first :: rest)).map change := keptFields_change kept (first :: rest)
      simp [Shape.mapFields, others, textsOf_showFields, textsOf_map, Piece.text,
        Place.text_member_change named, text_quotedName_change named, Function.comp_def]
  | enum variants =>
    cases variants with
    | nil => rfl
    | cons first rest =>
      simp [Shape.mapFields, textsOf_matchBlock, textsOf_debugArm_change named kept,
        List.flatMap_map]

theorem textsOf_partialEqBody_change :
    textsOf (partialEqBody (definition.mapFields change)) = textsOf (partialEqBody definition) := by
  have compared (fields : List Field) : textsOf (comparisons .member (fields.map change)) =
      textsOf (comparisons .member fields) :=
    textsOf_comparisons_change kept (Place.text_member_change named)
  unfold partialEqBody Definition.mapFields
  rw [textsOf_functionBlock, textsOf_functionBlock]
  congr 3
  cases definition.shape with
  | tuple fields => simp only [Shape.mapFields, textsOf_allEqualLines, compared]
  | struct fields => simp only [Shape.mapFields, textsOf_allEqualLines, compared]
  | enum variants =>
    cases variants with
    | nil => rfl
    | cons first rest =>
      simp [Shape.mapFields, textsOf_matchBlock, textsOf_equalArm_change named kept,
        List.flatMap_map, unequalArm]

end

theorem body_mapFields
    (kept : capability.honorsSkip = true → ∀ field, (change field).skip = field.skip) :
    body (definition.mapFields change) capability = body definition capability := by
  unfold body bodyLines
  cases capability with
  | default => exact textsOf_defaultBody_change named
  | debug => exact congrArg Except.ok (textsOf_debugBody_change named (kept rfl))
  | clone => exact congrArg Except.ok (textsOf_cloneBody_change named)
  | partialEq => exact congrArg Except.ok (textsOf_partialEqBody_change named (kept rfl))
  | eq => rfl

end

end DeriveBounds
