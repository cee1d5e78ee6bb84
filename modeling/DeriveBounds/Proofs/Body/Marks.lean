import DeriveBounds.Body

/-!
What the lines of a body do with the fields. The pieces of a line that stand for fields are its
marks; laying lines out in records, matches and blocks keeps all marks, in their order.
-/
namespace DeriveBounds

def Piece.isMark : Piece → Bool
  | .word _ | .name _ => false
  | .made _ | .used _ | .bound _ _ | .ignored _ => true

/-- The pieces of a line that stand for fields. -/
def Line.marks (line : Line) : List Piece := line.filter Piece.isMark

def marksOf (lines : List Line) : List Piece := lines.flatMap Line.marks

namespace Line

variable {line rest : Line} {parts : List Line} {piece : Piece}

@[simp] theorem marks_nil : marks [] = [] := rfl

@[simp] theorem marks_append : marks (line ++ rest) = marks line ++ marks rest :=
  List.filter_append ..

@[simp] theorem marks_cons :
    marks (piece :: rest) = if piece.isMark then piece :: marks rest else marks rest :=
  List.filter_cons

@[simp] theorem marks_indent : line.indent.marks = line.marks := rfl

theorem marks_separated (separator : String) :
    (separated separator parts).marks = parts.flatMap marks := by
  induction parts with
  | nil => rfl
  | cons part rest ih =>
    cases rest with
    | nil => simp [separated]
    | cons next rest =>
      rw [separated, marks_append, marks_cons, ih]
      · rfl
      · exact List.cons_ne_nil next rest

/-- A mark is never written as nothing. -/
theorem text_ne_empty_of_isMark (mark : piece.isMark = true) : piece.text ≠ "" := by
  intro empty
  have chars : piece.text.toList = [] := by rw [empty]; rfl
  cases piece with
  | word text => cases mark
  | name text => cases mark
  | made field => simp [Piece.text, defaultValue, Capability.traitPath] at chars
  | used place =>
    cases place with
    | member side field => cases side <;> simp [Piece.text, Place.text, Side.name] at chars
    | binding side field => simp [Piece.text, Place.text] at chars
  | bound side field => simp [Piece.text, Place.text] at chars
  | ignored field => simp [Piece.text] at chars

theorem marks_eq_nil_of_text (empty : line.text = "") : line.marks = [] := by
  induction line with
  | nil => rfl
  | cons piece rest ih =>
    obtain ⟨own, others⟩ := String.append_eq_empty_iff.mp empty
    cases mark : piece.isMark with
    | true => exact absurd own (text_ne_empty_of_isMark mark)
    | false => simp [mark, ih others]

@[simp] theorem marks_indentFilled : line.indentFilled.marks = line.marks := by
  unfold indentFilled
  split
  · -- the line is dropped, but one without text has no marks either
    rename_i empty
    exact (marks_eq_nil_of_text empty).symm
  · rfl

end Line

variable {lines more : List Line}

@[simp] theorem marksOf_nil : marksOf [] = [] := rfl

@[simp] theorem marksOf_cons {line : Line} :
    marksOf (line :: lines) = line.marks ++ marksOf lines :=
  List.flatMap_cons

@[simp] theorem marksOf_append : marksOf (lines ++ more) = marksOf lines ++ marksOf more :=
  List.flatMap_append

/-- Lines that are changed without their marks. -/
theorem marksOf_map {items : List α} {line : α → Line} {marks : α → List Piece}
    (same : ∀ item ∈ items, (line item).marks = marks item) :
    marksOf (items.map line) = items.flatMap marks := by
  induction items with
  | nil => rfl
  | cons item rest ih =>
    obtain ⟨own, others⟩ := List.forall_mem_cons.mp same
    rw [List.map_cons, marksOf_cons, own, ih others, List.flatMap_cons]

theorem marksOf_functionBlock (signature : String) :
    marksOf (functionBlock signature lines) = marksOf lines := by
  have inner : marksOf (lines.map Line.indentFilled) = marksOf lines :=
    marksOf_map fun _ _ => Line.marks_indentFilled
  simp [functionBlock, inner, Piece.isMark]

theorem marksOf_tupleBlock (fields : List Field) (part : Field → Line) :
    marksOf (tupleBlock fields part) = fields.flatMap fun field => (part field).marks := by
  have inner : marksOf (fields.map fun field => (part field).indent ++ [.word ","]) =
      fields.flatMap fun field => (part field).marks :=
    marksOf_map fun field _ => by simp [Piece.isMark]
  simp [tupleBlock, inner, Piece.isMark]

theorem marksOf_structBlock (fields : List Field) (part : Field → Line) :
    marksOf (structBlock fields part) = fields.flatMap fun field => (part field).marks := by
  have inner : marksOf (fields.map fun field =>
        Line.indent (.name field.label :: .word ": " :: part field) ++ [.word ","]) =
      fields.flatMap fun field => (part field).marks :=
    marksOf_map fun field _ => by simp [Piece.isMark]
  cases fields with
  | nil => rfl
  | cons first rest =>
    simp only [structBlock, List.cons_append, marksOf_cons, marksOf_append, inner]
    simp [Piece.isMark]

/-- A record holds the marks of its parts, if it is no unit with fields. -/
theorem marks_inlineRecord {variant : Variant} (part : Field → Line)
    (unit : variant.style = .unit → variant.fields = []) :
    (inlineRecord variant part).marks =
      variant.fields.flatMap fun field => (part field).marks := by
  unfold inlineRecord
  cases style : variant.style with
  | unit => simp [unit style, Piece.isMark]
  | tuple => simp [Line.marks_separated, List.flatMap_map, Piece.isMark]
  | struct => simp [Line.marks_separated, List.flatMap_map, Piece.isMark]

/-- The patterns of an arm, one after the other. -/
theorem marks_patternLine (arm : Arm) :
    arm.patternLine.marks = arm.patterns.flatMap fun pattern => pattern.line.marks := by
  unfold Arm.patternLine
  split
  · rename_i pattern single
    simp [single]
  · simp [Line.marks_separated, List.flatMap_map, Piece.isMark]

theorem marksOf_arm (arm : Arm) :
    marksOf arm.lines = arm.patternLine.marks ++ marksOf arm.value.lines := by
  unfold Arm.lines
  cases arm.value with
  | inline line => simp [ArmValue.lines, Piece.isMark]
  | block lines =>
    have inner : marksOf (lines.map fun line => line.indent.indent) = marksOf lines :=
      marksOf_map fun _ _ => by rw [Line.marks_indent, Line.marks_indent]
    rw [marksOf_append, marksOf_cons, inner]
    simp [ArmValue.lines, Piece.isMark]

theorem marksOf_matchBlock (subject : String) (arms : List Arm) (others : List Line) :
    marksOf (matchBlock subject arms others) =
      (arms.flatMap fun arm => marksOf arm.lines) ++ marksOf others := by
  have inner : marksOf (arms.flatMap Arm.lines) = arms.flatMap fun arm => marksOf arm.lines :=
    List.flatMap_assoc
  simp [matchBlock, inner, Piece.isMark]

theorem marksOf_showFields (builder name : String) (entries : List Line) :
    marksOf (showFields builder name entries) = marksOf entries := by
  have inner : marksOf (entries.map fun entry =>
      Line.indent (.word ".field(" :: entry ++ [.word ")"])) = marksOf entries :=
    marksOf_map fun entry _ => by simp [Piece.isMark]
  rw [showFields, marksOf_append, marksOf_cons, inner]
  simp [Piece.isMark]

theorem marks_allEqualLine (parts : List Line) : (allEqualLine parts).marks = marksOf parts := by
  cases parts with
  | nil => rfl
  | cons first rest => exact Line.marks_separated " && "

theorem marksOf_allEqualLines (parts : List Line) :
    marksOf (allEqualLines parts) = marksOf parts := by
  cases parts with
  | nil => rfl
  | cons first rest =>
    have inner : marksOf (rest.map fun part => Line.indent (.word "&& " :: part)) = marksOf rest :=
      marksOf_map fun part _ => by simp [Piece.isMark]
    simp [allEqualLines, inner]

end DeriveBounds
