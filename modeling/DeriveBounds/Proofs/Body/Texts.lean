import Mathlib.Data.List.Forall2
import DeriveBounds.Body
import DeriveBounds.Proofs.Text.Lines

/-!
The texts of lines. What is written for a piece is stated once more on its own, as a relation. The
text of a layout is made of the texts of its parts, whatever pieces they are made of.
-/
namespace DeriveBounds

/-- The texts of lines. -/
def textsOf (lines : List Line) : List String := lines.map Line.text

/-- What is written where the value of a field is read. -/
inductive Place.Writes : Place → String → Prop where
  | ownMember (field : Field) : Writes (.member .self field) ("self." ++ field.label)
  | otherMember (field : Field) : Writes (.member .other field) ("other." ++ field.label)
  | ownBinding (field : Field) : Writes (.binding .self field) ("__self_" ++ field.plainName)
  | otherBinding (field : Field) : Writes (.binding .other field) ("__other_" ++ field.plainName)

/-- What is written for a piece. A pattern binds a field under the name by which it is read. -/
inductive Piece.Writes : Piece → String → Prop where
  | word (text : String) : Writes (.word text) text
  | name (text : String) : Writes (.name text) text
  | made (field : Field) : Writes (.made field) "::core::default::Default::default()"
  | used (place : Place) (text : String) (own : place.Writes text) : Writes (.used place) text
  | bound (side : Side) (field : Field) (text : String)
      (own : (Place.binding side field).Writes text) : Writes (.bound side field) text
  | ignored (field : Field) : Writes (.ignored field) "_"

/-- The pieces of a line are written one behind the other. -/
inductive Line.Writes : Line → String → Prop where
  | nil : Writes [] ""
  | cons (piece : Piece) (rest : Line) (text more : String) (own : piece.Writes text)
      (others : Writes rest more) : Writes (piece :: rest) (text ++ more)

theorem Place.writes_iff {place : Place} {text : String} :
    place.Writes text ↔ place.text = text := by
  constructor
  · intro writes
    cases writes with
    | ownMember field => rfl
    | otherMember field => rfl
    | ownBinding field => rfl
    | otherBinding field => rfl
  · intro same
    subst same
    cases place with
    | member side field =>
      cases side with
      | self => exact .ownMember field
      | other => exact .otherMember field
    | binding side field =>
      cases side with
      | self => exact .ownBinding field
      | other => exact .otherBinding field

theorem Piece.writes_iff {piece : Piece} {text : String} :
    piece.Writes text ↔ piece.text = text := by
  constructor
  · intro writes
    cases writes with
    | word text => rfl
    | name text => rfl
    | made field => rfl
    | used place text own => exact Place.writes_iff.mp own
    | bound side field text own => exact Place.writes_iff.mp own
    | ignored field => rfl
  · intro same
    subst same
    cases piece with
    | word text => exact .word text
    | name text => exact .name text
    | made field => exact .made field
    | used place => exact .used place _ (Place.writes_iff.mpr rfl)
    | bound side field => exact .bound side field _ (Place.writes_iff.mpr rfl)
    | ignored field => exact .ignored field

/-- A line is written as its text and as nothing else. -/
theorem Line.writes_iff {line : Line} {text : String} : line.Writes text ↔ line.text = text := by
  constructor
  · intro writes
    induction writes with
    | nil => rfl
    | cons piece rest text more own others ih => rw [Line.text, Piece.writes_iff.mp own, ih]
  · intro same
    subst same
    induction line with
    | nil => exact .nil
    | cons piece rest ih => exact .cons piece rest _ _ (Piece.writes_iff.mpr rfl) ih

theorem writes_textsOf (lines : List Line) : List.Forall₂ Line.Writes lines (textsOf lines) :=
  List.forall₂_map_right_iff.mpr (List.forall₂_same.mpr fun _ _ => Line.writes_iff.mpr rfl)

namespace Line

variable {line rest : Line} {piece : Piece} {parts : List Line}

@[simp] theorem text_nil : text [] = "" := rfl

@[simp] theorem text_cons : text (piece :: rest) = piece.text ++ text rest := rfl

@[simp] theorem text_append : text (line ++ rest) = text line ++ text rest := by
  induction line with
  | nil => simp
  | cons piece line ih => rw [List.cons_append, text_cons, text_cons, ih, String.append_assoc]

@[simp] theorem text_indent : line.indent.text = Text.indent line.text := rfl

@[simp] theorem text_indentFilled : line.indentFilled.text = Text.indentLine line.text := by
  unfold indentFilled Text.indentLine
  split
  · rfl
  · exact text_indent

theorem text_separated (separator : String) :
    (separated separator parts).text = Text.join separator (parts.map text) := by
  induction parts with
  | nil => rfl
  | cons part rest ih =>
    cases rest with
    | nil => simp [separated]
    | cons next rest =>
      rw [List.map_cons] at ih
      rw [separated, text_append, text_cons, ih, List.map_cons, List.map_cons,
        Text.join_cons_cons, String.append_assoc]
      · rfl
      · exact List.cons_ne_nil next rest

theorem unbroken_text_iff :
    Text.Unbroken line.text ↔ ∀ piece ∈ line, Text.Unbroken piece.text := by
  induction line with
  | nil => simp
  | cons piece rest ih => rw [text_cons, Text.unbroken_append, ih, List.forall_mem_cons]

end Line

section

variable {lines more : List Line} {line : Line}

@[simp] theorem textsOf_nil : textsOf [] = [] := rfl

@[simp] theorem textsOf_cons : textsOf (line :: lines) = line.text :: textsOf lines := rfl

@[simp] theorem textsOf_append : textsOf (lines ++ more) = textsOf lines ++ textsOf more :=
  List.map_append

theorem textsOf_map (items : List α) (line : α → Line) :
    textsOf (items.map line) = items.map fun item => (line item).text :=
  List.map_map

theorem textsOf_flatMap (items : List α) (lines : α → List Line) :
    textsOf (items.flatMap lines) = items.flatMap fun item => textsOf (lines item) :=
  List.map_flatMap

/-- No body is missing but that of `Default` for an enum. -/
theorem exists_bodyLines_iff {definition : Definition} {capability : Capability} :
    (∃ lines, bodyLines definition capability = .ok lines) ↔
      ¬ (capability = .default ∧ definition.shape.isEnum = true) := by
  cases capability with
  | default => cases shape : definition.shape <;> simp [bodyLines, defaultBody, shape, Shape.isEnum]
  | debug => simp [bodyLines]
  | clone => simp [bodyLines]
  | partialEq => simp [bodyLines]
  | eq => simp [bodyLines]

theorem body_eq_ok_iff {definition : Definition} {capability : Capability} {texts : List String} :
    body definition capability = .ok texts ↔
      ∃ lines, bodyLines definition capability = .ok lines ∧ textsOf lines = texts := by
  unfold body textsOf
  cases bodyLines definition capability with
  | error error => exact ⟨nofun, nofun⟩
  | ok lines => simp [Except.map]

theorem textsOf_functionBlock (signature : String) :
    textsOf (functionBlock signature lines) =
      (signature ++ " \x7b") :: (textsOf lines).map Text.indentLine ++ ["\x7d"] := by
  have inner : textsOf (lines.map Line.indentFilled) = (textsOf lines).map Text.indentLine := by
    rw [textsOf_map, textsOf, List.map_map]
    exact List.map_congr_left fun _ _ => Line.text_indentFilled
  simp [functionBlock, inner, Piece.text]

/-- How a record reads that is built of its parts, one part a line. -/
def Shape.builtText (part : Field → String) : Shape → List String
  | tuple fields => "Self(" :: fields.map (fun field => Text.indent (part field ++ ",")) ++ [")"]
  | struct [] => ["Self \x7b\x7d"]
  | struct fields =>
    "Self \x7b" ::
      fields.map (fun field => Text.indent (field.label ++ ": " ++ part field ++ ",")) ++ ["\x7d"]
  | enum _ => []

theorem textsOf_tupleBlock (fields : List Field) (part : Field → Line) :
    textsOf (tupleBlock fields part) =
      (Shape.tuple fields).builtText fun field => (part field).text := by
  simp [tupleBlock, Shape.builtText, textsOf_map, Text.indent, Piece.text, String.append_assoc]

theorem textsOf_structBlock (fields : List Field) (part : Field → Line) :
    textsOf (structBlock fields part) =
      (Shape.struct fields).builtText fun field => (part field).text := by
  cases fields with
  | nil => rfl
  | cons first rest =>
    simp [structBlock, Shape.builtText, textsOf_map, Text.indent, Piece.text, String.append_assoc]

theorem textsOf_matchBlock (subject : String) (arms : List Arm) :
    textsOf (matchBlock subject arms lines) =
      ("match " ++ subject ++ " \x7b") :: (arms.flatMap fun arm => textsOf arm.lines) ++
        textsOf lines ++ ["\x7d"] := by
  simp [matchBlock, textsOf_flatMap, Piece.text, String.append_assoc]

/-- How a record of a variant reads: its path, and the parts in the form of its style. -/
def Variant.recordText (variant : Variant) (part : Field → String) : String :=
  match variant.style with
  | .unit => "Self::" ++ variant.name
  | .tuple =>
    "Self::" ++ variant.name ++ "(" ++ Text.join ", " (variant.fields.map part) ++ ")"
  | .struct =>
    "Self::" ++ variant.name ++ " \x7b " ++
      Text.join ", " (variant.fields.map fun field => field.label ++ ": " ++ part field) ++ " \x7d"

theorem text_inlineRecord (variant : Variant) (part : Field → Line) :
    (inlineRecord variant part).text = variant.recordText fun field => (part field).text := by
  unfold inlineRecord Variant.recordText
  cases variant.style with
  | unit => simp [Piece.text]
  | tuple => simp [Piece.text, Line.text_separated, Function.comp_def, String.append_assoc]
  | struct => simp [Piece.text, Line.text_separated, Function.comp_def, String.append_assoc]

/-- How an arm with these patterns reads: the value follows an arrow, a block of lines in braces. -/
def ArmValue.behind (patterns : String) : ArmValue → List String
  | inline line => [Text.indent (patterns ++ " => " ++ line.text ++ ",")]
  | block lines =>
    Text.indent (patterns ++ " => \x7b") ::
      (textsOf lines).map (fun text => Text.indent (Text.indent text)) ++ [Text.indent "\x7d"]

theorem textsOf_arm (arm : Arm) : textsOf arm.lines = arm.value.behind arm.patternLine.text := by
  unfold Arm.lines
  cases arm.value with
  | inline line => simp [ArmValue.behind, Piece.text, String.append_assoc]
  | block lines =>
    have inner : textsOf (lines.map fun line => line.indent.indent) =
        (textsOf lines).map fun text => Text.indent (Text.indent text) := by
      simp [textsOf, Function.comp_def]
    rw [textsOf_append, textsOf_cons, inner]
    simp [ArmValue.behind, Piece.text]

theorem textsOf_showFields (builder name : String) :
    textsOf (showFields builder name lines) =
      ("f." ++ builder ++ "(\"" ++ name ++ "\")") ::
        (textsOf lines).map (fun entry => Text.indent (".field(" ++ entry ++ ")")) ++
        [Text.indent ".finish()"] := by
  have inner : textsOf (lines.map fun entry =>
        Line.indent (.word ".field(" :: entry ++ [.word ")"])) =
      (textsOf lines).map fun entry => Text.indent (".field(" ++ entry ++ ")") := by
    rw [textsOf_map, textsOf, List.map_map]
    apply List.map_congr_left
    intro entry _
    simp [Piece.text, String.append_assoc]
  rw [showFields, textsOf_append, textsOf_cons, inner]
  simp [Piece.text, String.append_assoc]

theorem text_allEqualLine (parts : List Line) : (allEqualLine parts).text =
    if textsOf parts = [] then "true" else Text.join " && " (textsOf parts) := by
  cases parts with
  | nil => simp [allEqualLine, Piece.text]
  | cons first rest => simp [allEqualLine, Line.text_separated, textsOf]

theorem textsOf_allEqualLines (parts : List Line) : textsOf (allEqualLines parts) =
    match textsOf parts with
    | [] => ["true"]
    | first :: rest => first :: rest.map fun text => Text.indent ("&& " ++ text) := by
  cases parts with
  | nil => simp [allEqualLines, Piece.text]
  | cons first rest =>
    simp [allEqualLines, textsOf, Piece.text]

end

/-- Values of arms that read the same. -/
inductive ArmValue.Alike : ArmValue → ArmValue → Prop where
  | inline (line other : Line) (same : line.text = other.text) :
      Alike (.inline line) (.inline other)
  | block (lines others : List Line) (same : textsOf lines = textsOf others) :
      Alike (.block lines) (.block others)

theorem textsOf_arm_congr {arm other : Arm}
    (patterns : arm.patternLine.text = other.patternLine.text)
    (values : arm.value.Alike other.value) : textsOf arm.lines = textsOf other.lines := by
  rw [textsOf_arm, textsOf_arm, patterns]
  generalize arm.value = first at values
  generalize other.value = second at values
  cases values with
  | inline line rest same => simp only [ArmValue.behind, same]
  | block lines others same => simp only [ArmValue.behind, same]

end DeriveBounds
