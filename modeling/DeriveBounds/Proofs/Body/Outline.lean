import DeriveBounds.Proofs.Body.FieldChange
import DeriveBounds.Proofs.Body.Filled

/-!
What a body does not take from names. Taking all names and types out of a definition takes them out
of the lines of its bodies and leaves the lines otherwise as they are: no name has a say in which
words are written, in which order, or on how many lines.
-/
namespace DeriveBounds

/-- What is left of a field without its name and its type. -/
def Field.outline (field : Field) : Field := ⟨.named "_", .tuple [], field.skip, []⟩

def Place.outline : Place → Place
  | member side field => member side field.outline
  | binding side field => binding side field.outline

/-- Words stay; names and fields leave a gap. -/
def Piece.outline : Piece → Piece
  | word text => word text
  | name _ => name "_"
  | made field => made field.outline
  | used place => used place.outline
  | bound side field => bound side field.outline
  | ignored field => ignored field.outline

def Line.outline (line : Line) : Line := line.map Piece.outline

def Variant.outline (variant : Variant) : Variant :=
  ⟨"_", variant.style, variant.fields.map Field.outline⟩

/-- What is left of a shape without names and types: its kind, the styles of its variants, and the
skip marks. -/
def Shape.outline : Shape → Shape
  | struct fields => struct (fields.map Field.outline)
  | tuple fields => tuple (fields.map Field.outline)
  | enum variants => enum (variants.map Variant.outline)

def Definition.outline (definition : Definition) : Definition :=
  ⟨"_", [], definition.shape.outline, [], []⟩

def Pattern.outline (pattern : Pattern) : Pattern :=
  { pattern with variant := pattern.variant.outline }

def ArmValue.outline : ArmValue → ArmValue
  | inline line => inline line.outline
  | block lines => block (lines.map Line.outline)

def Arm.outline (arm : Arm) : Arm := ⟨arm.patterns.map Pattern.outline, arm.value.outline⟩

/-- The pattern looks at no name to tell what it binds. -/
def Pattern.Blind (pattern : Pattern) : Prop :=
  ∀ field, pattern.binds field.outline = pattern.binds field

variable {line rest : Line} {piece : Piece} {lines : List Line} {fields : List Field}
  {variant : Variant} {part : Field → Line} {arm : Arm}

namespace Line

@[simp] theorem outline_nil : outline [] = [] := rfl

@[simp] theorem outline_cons : outline (piece :: rest) = piece.outline :: rest.outline := rfl

@[simp] theorem outline_append : outline (line ++ rest) = line.outline ++ rest.outline :=
  List.map_append

@[simp] theorem outline_indent : line.indent.outline = line.outline.indent := rfl

theorem outline_separated (separator : String) :
    (separated separator lines).outline = separated separator (lines.map outline) := by
  induction lines with
  | nil => rfl
  | cons part rest ih =>
    cases rest with
    | nil => rfl
    | cons next rest =>
      rw [separated, outline_append, outline_cons, ih]
      · rfl
      · exact List.cons_ne_nil next rest

end Line

@[simp] theorem Field.label_outline (field : Field) : field.outline.label = "_" := rfl

@[simp] theorem Field.plainName_outline (field : Field) : field.outline.plainName = "_" := by
  simp [plainName]

@[simp] theorem Field.skip_outline (field : Field) : field.outline.skip = field.skip := rfl

@[simp] theorem Piece.isFilled_outline : piece.outline.isFilled = piece.isFilled := by
  cases piece <;> rfl

theorem Line.Filled.outline (filled : line.Filled) : line.outline.Filled := by
  simpa [Line.Filled, Line.outline, Function.comp_def] using filled

theorem outline_functionBlock (signature : String) (filled : FilledLines lines) :
    (functionBlock signature lines).map Line.outline =
      functionBlock signature (lines.map Line.outline) := by
  have inner : (lines.map Line.indentFilled).map Line.outline =
      (lines.map Line.outline).map Line.indentFilled := by
    rw [List.map_map, List.map_map]
    apply List.map_congr_left
    intro line member
    have own := filled line member
    simp [own.indentFilled_eq, own.outline.indentFilled_eq]
  simp [functionBlock, inner, Piece.outline]

section

variable (same : ∀ field, (part field).outline = part field.outline)

include same

theorem outline_tupleBlock :
    (tupleBlock fields part).map Line.outline = tupleBlock (fields.map Field.outline) part := by
  simp [tupleBlock, Piece.outline, same, Function.comp_def]

theorem outline_structBlock :
    (structBlock fields part).map Line.outline = structBlock (fields.map Field.outline) part := by
  cases fields with
  | nil => rfl
  | cons first rest =>
    simp [structBlock, Piece.outline, same, Function.comp_def]

theorem outline_inlineRecord :
    (inlineRecord variant part).outline = inlineRecord variant.outline part := by
  unfold inlineRecord Variant.outline
  cases variant.style with
  | unit => rfl
  | tuple => simp [Line.outline_separated, Piece.outline, same, Function.comp_def]
  | struct =>
    simp [Line.outline_separated, Piece.outline, same, Function.comp_def]

end

theorem Pattern.Blind.outline_line {pattern : Pattern} (blind : pattern.Blind) :
    pattern.line.outline = pattern.outline.line := by
  refine outline_inlineRecord fun field => ?_
  rw [blind field]
  split <;> rfl

theorem outline_patternLine (blind : ∀ pattern ∈ arm.patterns, pattern.Blind) :
    arm.patternLine.outline = arm.outline.patternLine := by
  have each : ∀ pattern ∈ arm.patterns, pattern.line.outline = pattern.outline.line :=
    fun pattern member => (blind pattern member).outline_line
  unfold Arm.patternLine Arm.outline
  generalize arm.patterns = patterns at each
  match patterns, each with
  | [], _ => rfl
  | [pattern], each => exact each pattern (List.mem_singleton_self _)
  | first :: next :: rest, each =>
    have lines : (first :: next :: rest).map (fun pattern => pattern.line.outline) =
        (first :: next :: rest).map fun pattern => pattern.outline.line :=
      List.map_congr_left each
    simp only [List.map_cons] at lines
    simp [Line.outline_separated, Piece.outline, Function.comp_def, lines]

theorem outline_arm (blind : ∀ pattern ∈ arm.patterns, pattern.Blind) :
    arm.lines.map Line.outline = arm.outline.lines := by
  have patterns := outline_patternLine blind
  have value : arm.outline.value = arm.value.outline := rfl
  unfold Arm.lines
  rw [value]
  cases arm.value with
  | inline line => simp [ArmValue.outline, patterns, Piece.outline]
  | block lines => simp [ArmValue.outline, patterns, Piece.outline, Function.comp_def]

theorem outline_matchBlock {subject : String} {arm : Variant → Arm} {variants : List Variant}
    (blind : ∀ variant, ∀ pattern ∈ (arm variant).patterns, pattern.Blind)
    (same : ∀ variant, (arm variant).outline = arm variant.outline) :
    (matchBlock subject (variants.map arm) lines).map Line.outline =
      matchBlock subject ((variants.map Variant.outline).map arm) (lines.map Line.outline) := by
  have inner : ((variants.map arm).flatMap Arm.lines).map Line.outline =
      ((variants.map Variant.outline).map arm).flatMap Arm.lines := by
    simp [List.map_flatMap, List.flatMap_map, outline_arm (blind _), same]
  simp only [matchBlock, List.map_append, List.map_cons, inner]
  rfl

theorem outline_showFields (builder name : String) :
    (showFields builder name lines).map Line.outline =
      showFields builder "_" (lines.map Line.outline) := by
  simp [showFields, Piece.outline, Function.comp_def]

theorem keptFields_outline (fields : List Field) :
    keptFields (fields.map Field.outline) = (keptFields fields).map Field.outline :=
  keptFields_change Field.skip_outline fields

theorem outline_comparisons {place : Side → Field → Place}
    (same : ∀ side field, (place side field).outline = place side field.outline) :
    (comparisons place fields).map Line.outline =
      comparisons place (fields.map Field.outline) := by
  simp [comparisons, keptFields_outline, Piece.outline, same, Function.comp_def]

theorem outline_allEqualLine (comparisons : List Line) :
    (allEqualLine comparisons).outline = allEqualLine (comparisons.map Line.outline) := by
  cases comparisons with
  | nil => rfl
  | cons first rest => exact Line.outline_separated " && "

theorem outline_allEqualLines (comparisons : List Line) :
    (allEqualLines comparisons).map Line.outline =
      allEqualLines (comparisons.map Line.outline) := by
  cases comparisons with
  | nil => rfl
  | cons first rest => simp [allEqualLines, Piece.outline, Function.comp_def]

theorem outline_debugArm (variant : Variant) :
    (debugArm variant).outline = debugArm variant.outline := by
  obtain ⟨name, style, fields⟩ := variant
  have kept := keptFields_outline fields
  cases style with
  | unit => rfl
  | tuple =>
    simp [debugArm, Arm.outline, Pattern.outline, Variant.outline, ArmValue.outline,
      outline_showFields, kept, Piece.outline, Place.outline, Function.comp_def]
  | struct =>
    simp [debugArm, Arm.outline, Pattern.outline, Variant.outline, ArmValue.outline,
      outline_showFields, kept, quotedName, Piece.outline, Place.outline, Function.comp_def]

theorem outline_cloneArm (variant : Variant) :
    (cloneArm variant).outline = cloneArm variant.outline := by
  have value : (inlineRecord variant fun field => cloneOf [.used (.binding .self field)]).outline =
      inlineRecord variant.outline fun field => cloneOf [.used (.binding .self field)] :=
    outline_inlineRecord fun _ => rfl
  simp [cloneArm, Arm.outline, ArmValue.outline, Pattern.outline, value]

theorem outline_equalArm (variant : Variant) :
    (equalArm variant).outline = equalArm variant.outline := by
  have value : (comparisons .binding variant.fields).map Line.outline =
      comparisons .binding (variant.fields.map Field.outline) :=
    outline_comparisons fun _ _ => rfl
  simp only [equalArm, Arm.outline, ArmValue.outline, outline_allEqualLine, value]
  rfl

theorem bodyLines_outline {definition : Definition} {capability : Capability}
    (derivable : bodyLines definition capability = .ok lines) :
    bodyLines definition.outline capability = .ok (lines.map Line.outline) := by
  cases capability with
  | default =>
    simp only [bodyLines, defaultBody] at derivable
    simp only [bodyLines, defaultBody, Definition.outline]
    cases shape : definition.shape with
    | enum variants =>
      rw [shape] at derivable
      cases derivable
    | tuple fields =>
      rw [shape] at derivable
      cases derivable
      rw [outline_functionBlock _ filled_tupleBlock, outline_tupleBlock fun _ => rfl]
      rfl
    | struct fields =>
      rw [shape] at derivable
      cases derivable
      rw [outline_functionBlock _ filled_structBlock, outline_structBlock fun _ => rfl]
      rfl
  | debug =>
    cases derivable
    refine congrArg Except.ok (Eq.symm ?_)
    simp only [debugBody, Definition.outline]
    cases shape : definition.shape with
    | tuple fields =>
      rw [outline_functionBlock _ filled_showFields, outline_showFields]
      simp [Shape.outline, keptFields_outline, Piece.outline, Place.outline, Function.comp_def]
    | struct fields =>
      cases fields with
      | nil => rfl
      | cons first rest =>
        rw [outline_functionBlock _ filled_showFields, outline_showFields]
        have kept := keptFields_outline (first :: rest)
        simp only [List.map_cons] at kept
        simp [Shape.outline, kept, quotedName, Piece.outline, Place.outline, Function.comp_def]
    | enum variants =>
      cases variants with
      | nil => rfl
      | cons first rest =>
        rw [outline_functionBlock _ (filled_matchBlock filledLines_nil),
          outline_matchBlock (fun _ => by simp [debugArm, Pattern.Blind]) outline_debugArm]
        rfl
  | clone =>
    cases derivable
    simp only [bodyLines, cloneBody, Definition.outline]
    cases shape : definition.shape with
    | tuple fields =>
      rw [outline_functionBlock _ filled_tupleBlock, outline_tupleBlock fun _ => rfl]
      rfl
    | struct fields =>
      rw [outline_functionBlock _ filled_structBlock, outline_structBlock fun _ => rfl]
      rfl
    | enum variants =>
      cases variants with
      | nil => rfl
      | cons first rest =>
        rw [outline_functionBlock _ (filled_matchBlock filledLines_nil),
          outline_matchBlock (fun _ => by simp [cloneArm, Pattern.Blind]) outline_cloneArm]
        rfl
  | partialEq =>
    cases derivable
    have compared (fields : List Field) :
        (functionBlock "fn eq(&self, other: &Self) -> bool"
            (allEqualLines (comparisons .member fields))).map Line.outline =
          functionBlock "fn eq(&self, other: &Self) -> bool"
            (allEqualLines (comparisons .member (fields.map Field.outline))) := by
      rw [outline_functionBlock _ (filled_allEqualLines filled_comparisons), outline_allEqualLines,
        outline_comparisons fun _ _ => rfl]
    simp only [bodyLines, partialEqBody, Definition.outline]
    cases shape : definition.shape with
    | tuple fields => rw [compared]; rfl
    | struct fields => rw [compared]; rfl
    | enum variants =>
      cases variants with
      | nil => rfl
      | cons first rest =>
        have others : (unequalArm (first :: rest)).map Line.outline =
            unequalArm ((first :: rest).map Variant.outline) := by
          simp only [unequalArm, List.length_map]
          split <;> rfl
        rw [outline_functionBlock _ (filledLines_append.mpr
            ⟨filled_compareDiscriminants, filled_matchBlock (filled_unequalArm _)⟩),
          List.map_append,
          outline_matchBlock (fun _ => by simp [equalArm, Pattern.Blind]) outline_equalArm, others]
        rfl
  | eq =>
    cases derivable
    rfl

@[simp] theorem Shape.isEnum_outline (shape : Shape) : shape.outline.isEnum = shape.isEnum := by
  cases shape <;> rfl

/-- The lines of a body depend on names only in the gaps that are left for them. -/
theorem exists_bodyLines_of_outline_eq {definition other : Definition} {capability : Capability}
    (derivable : bodyLines definition capability = .ok lines)
    (same : other.shape.outline = definition.shape.outline) :
    ∃ others, bodyLines other capability = .ok others ∧
      others.map Line.outline = lines.map Line.outline := by
  have enums : other.shape.isEnum = definition.shape.isEnum := by
    rw [← Shape.isEnum_outline, same, Shape.isEnum_outline]
  have possible := exists_bodyLines_iff.mp ⟨lines, derivable⟩
  rw [← enums] at possible
  obtain ⟨others, derived⟩ := exists_bodyLines_iff.mpr possible
  have outlines : other.outline = definition.outline := by
    rw [Definition.outline, Definition.outline, same]
  have blank := bodyLines_outline derived
  rw [outlines, bodyLines_outline derivable] at blank
  exact ⟨others, derived, (Except.ok.inj blank).symm⟩

end DeriveBounds
