import DeriveBounds.Proofs.Body.Marks
import DeriveBounds.Proofs.Body.Texts
import DeriveBounds.Proofs.Body.Words

/-!
No line of a body is empty: on every line something other than a name is written. So the lines of a
body are read back from its text whenever no piece of them breaks a line.
-/
namespace DeriveBounds

/-- Words and what stands for fields are never written as nothing; names might be. -/
def Piece.isFilled : Piece → Bool
  | .word text => text != ""
  | .name _ => false
  | .made _ | .used _ | .bound _ _ | .ignored _ => true

/-- Something other than a name is written on the line. -/
def Line.Filled (line : Line) : Prop := line.any Piece.isFilled = true

def FilledLines (lines : List Line) : Prop := ∀ line ∈ lines, line.Filled

variable {line rest : Line} {piece : Piece} {lines more : List Line} {fields : List Field}
  {part : Field → Line}

theorem Piece.text_ne_empty (filled : piece.isFilled = true) : piece.text ≠ "" := by
  cases piece with
  | word text => simpa [isFilled, Piece.text] using filled
  | name text => cases filled
  | made field => exact Line.text_ne_empty_of_isMark rfl
  | used place => exact Line.text_ne_empty_of_isMark rfl
  | bound side field => exact Line.text_ne_empty_of_isMark rfl
  | ignored field => exact Line.text_ne_empty_of_isMark rfl

namespace Line

@[simp] theorem filled_cons :
    Filled (piece :: rest) ↔ piece.isFilled = true ∨ rest.Filled := by
  simp [Filled]

@[simp] theorem filled_append : Filled (line ++ rest) ↔ line.Filled ∨ rest.Filled := by
  simp [Filled]

@[simp] theorem filled_indent : line.indent.Filled :=
  filled_cons.mpr (.inl rfl)

theorem Filled.text_ne_empty (filled : line.Filled) : line.text ≠ "" := by
  induction line with
  | nil => cases filled
  | cons piece rest ih =>
    intro empty
    obtain ⟨own, others⟩ := String.append_eq_empty_iff.mp empty
    rcases filled_cons.mp filled with first | later
    · exact Piece.text_ne_empty first own
    · exact ih later others

theorem Filled.indentFilled_eq (filled : line.Filled) : line.indentFilled = line.indent :=
  if_neg filled.text_ne_empty

end Line

@[simp] theorem filledLines_nil : FilledLines [] := by simp [FilledLines]

@[simp] theorem filledLines_cons :
    FilledLines (line :: lines) ↔ line.Filled ∧ FilledLines lines :=
  List.forall_mem_cons

@[simp] theorem filledLines_append :
    FilledLines (lines ++ more) ↔ FilledLines lines ∧ FilledLines more :=
  List.forall_mem_append

@[simp] theorem filledLines_map {items : List α} {line : α → Line} :
    FilledLines (items.map line) ↔ ∀ item ∈ items, (line item).Filled :=
  List.forall_mem_map

theorem FilledLines.text_ne_empty (filled : FilledLines lines) :
    ∀ text ∈ textsOf lines, text ≠ "" :=
  List.forall_mem_map.mpr fun line member => (filled line member).text_ne_empty

/-- The lines of a function are indented, each of them. -/
theorem FilledLines.textsOf_functionBlock (filled : FilledLines lines) (signature : String) :
    textsOf (functionBlock signature lines) =
      (signature ++ " \x7b") :: (textsOf lines).map Text.indent ++ ["\x7d"] := by
  rw [DeriveBounds.textsOf_functionBlock]
  congr 2
  exact List.map_congr_left fun text member => if_neg (filled.text_ne_empty text member)

theorem filled_functionBlock {signature : String} (some : signature ≠ "")
    (filled : FilledLines lines) : FilledLines (functionBlock signature lines) := by
  have inner : ∀ line ∈ lines, line.indentFilled.Filled := by
    intro line member
    rw [(filled line member).indentFilled_eq]
    exact Line.filled_indent
  simpa [functionBlock, Piece.isFilled, some] using inner

theorem filled_tupleBlock : FilledLines (tupleBlock fields part) := by
  simp [tupleBlock, Piece.isFilled]

theorem filled_structBlock : FilledLines (structBlock fields part) := by
  cases fields with
  | nil => simp [structBlock, Piece.isFilled]
  | cons first rest => simp [structBlock, Piece.isFilled]

theorem filled_arm (arm : Arm) : FilledLines arm.lines := by
  unfold Arm.lines
  cases arm.value with
  | inline line => simp
  | block lines => simp

theorem filled_matchBlock {subject : String} {arms : List Arm} (others : FilledLines more) :
    FilledLines (matchBlock subject arms more) := by
  have inner : FilledLines (arms.flatMap Arm.lines) := by
    intro line member
    obtain ⟨arm, _, own⟩ := List.mem_flatMap.mp member
    exact filled_arm arm line own
  simp [matchBlock, Piece.isFilled, inner, others]

theorem filled_emptyMatch : FilledLines emptyMatch := by
  simp [emptyMatch, Piece.isFilled]

theorem filled_showFields {builder name : String} :
    FilledLines (showFields builder name lines) := by
  simp [showFields, Piece.isFilled]

theorem filled_showName {name : String} : (showName name).Filled := by
  simp [showName, Piece.isFilled]

theorem filled_comparisons {place : Side → Field → Place} :
    FilledLines (comparisons place fields) := by
  simp [comparisons, Piece.isFilled]

theorem filled_allEqualLines (filled : FilledLines lines) :
    FilledLines (allEqualLines lines) := by
  cases lines with
  | nil => simp [allEqualLines, Piece.isFilled]
  | cons first rest =>
    have own : first.Filled := filled first (List.mem_cons_self ..)
    simp [allEqualLines, own]

theorem filled_compareDiscriminants : FilledLines compareDiscriminants := by
  simp [compareDiscriminants, Piece.isFilled]

theorem filled_unequalArm (variants : List Variant) : FilledLines (unequalArm variants) := by
  unfold unequalArm
  split <;> simp

/-- On every line of a body something other than a name is written. -/
theorem filled_bodyLines {definition : Definition} {capability : Capability}
    (derivable : bodyLines definition capability = .ok lines) : FilledLines lines := by
  cases capability with
  | default =>
    simp only [bodyLines, defaultBody] at derivable
    split at derivable
    · cases derivable
    · cases derivable
      exact filled_functionBlock (by decide) filled_tupleBlock
    · cases derivable
      exact filled_functionBlock (by decide) filled_structBlock
  | debug =>
    cases derivable
    refine filled_functionBlock (by decide) ?_
    split
    · exact filled_showFields
    · exact filledLines_cons.mpr ⟨filled_showName, filledLines_nil⟩
    · exact filled_showFields
    · exact filled_emptyMatch
    · exact filled_matchBlock filledLines_nil
  | clone =>
    cases derivable
    refine filled_functionBlock (by decide) ?_
    split
    · exact filled_tupleBlock
    · exact filled_structBlock
    · exact filled_emptyMatch
    · exact filled_matchBlock filledLines_nil
  | partialEq =>
    cases derivable
    refine filled_functionBlock (by decide) ?_
    split
    · exact filled_allEqualLines filled_comparisons
    · exact filled_allEqualLines filled_comparisons
    · exact filled_emptyMatch
    · exact filledLines_append.mpr
        ⟨filled_compareDiscriminants, filled_matchBlock (filled_unequalArm _)⟩
  | eq =>
    cases derivable
    exact filledLines_nil

/-- No line of a body is empty. -/
theorem textsOf_ne_empty {definition : Definition} {capability : Capability}
    (derivable : bodyLines definition capability = .ok lines) : ∀ text ∈ textsOf lines, text ≠ "" :=
  (filled_bodyLines derivable).text_ne_empty

/-- The lines of a body are read back from its text exactly when none of its pieces breaks a
line. -/
theorem lines_body_iff {definition : Definition} {capability : Capability}
    (derivable : bodyLines definition capability = .ok lines) :
    Text.lines (Text.join "\n" (textsOf lines)) = textsOf lines ↔
      EachPiece (fun piece => Text.Unbroken piece.text) lines := by
  have filled : (textsOf lines).getLast? ≠ some "" :=
    fun last => textsOf_ne_empty derivable "" (List.mem_of_getLast? last) rfl
  rw [Text.lines_join_iff filled, textsOf, List.forall_mem_map]
  simp only [Line.unbroken_text_iff]
  rfl

end DeriveBounds
