import Mathlib.Data.List.Forall2
import DeriveBounds.Proofs.Body.Filled
import DeriveBounds.Proofs.Body.Uses

/-!
The bodies of enums: a match with one arm for each variant. The patterns of an arm bind what its
value uses.
-/
namespace DeriveBounds

def Piece.bound? : Piece → Option Place
  | .bound side field => some (.binding side field)
  | _ => none

/-- What a pattern binds, in order. -/
def Pattern.bindings (pattern : Pattern) : List Place :=
  pattern.line.marks.filterMap Piece.bound?

/-- One text as it is, and several in parentheses. -/
def tupled : List String → String
  | [text] => text
  | texts => "(" ++ Text.join ", " texts ++ ")"

namespace Capability

variable (capability : Capability)

/-- What a pattern writes for a field: the name that it gives the value, or `_` for what it passes
over. -/
def binder (side : Side) (field : Field) : String :=
  if field.skippedFor capability then "_" else (Place.binding side field).text

def pattern (side : Side) (variant : Variant) : String :=
  variant.recordText (capability.binder side)

/-- What stands before the arms: values of different variants are unequal, whatever they hold. -/
def opening : List String :=
  if capability = .partialEq then
    ["if ::core::mem::discriminant(self) != ::core::mem::discriminant(other) \x7b",
      Text.indent "return false;", "\x7d"]
  else []

/-- What stands behind the arms: an arm for all else where values of different variants meet. -/
def otherwise (variants : List Variant) : List String :=
  if capability = .partialEq ∧ 1 < variants.length then [Text.indent "_ => false,"] else []

end Capability

/-- What an arm for a variant binds and uses, and how it reads: the patterns, and the value behind
an arrow. -/
structure ArmUses (capability : Capability) (variant : Variant) (arm : Arm) : Prop where
  sides : arm.patterns.map (·.side) = capability.sides
  matched : ∀ pattern ∈ arm.patterns, pattern.variant = variant
  bound : ∀ pattern ∈ arm.patterns, pattern.line.marks = variant.fields.map fun field =>
    if field.skippedFor capability then .ignored field else .bound pattern.side field
  value : marksOf arm.value.lines =
    (capability.concerned variant.fields).flatMap (capability.valueMarks .binding)
  balanced : ∀ pattern ∈ arm.patterns, pattern.bindings = usedOn pattern.side arm.value.lines
  closed : ∀ place ∈ usedIn arm.value.lines, ∃ pattern ∈ arm.patterns, place ∈ pattern.bindings
  marks : marksOf arm.lines =
    (arm.patterns.flatMap fun pattern => pattern.line.marks) ++ marksOf arm.value.lines
  reads : textsOf arm.lines =
    arm.value.behind (tupled (capability.sides.map (capability.pattern · variant)))

/-- A function around a match with one arm for each variant, in order, and one for all else where
values of different variants meet. -/
inductive MatchUses (capability : Capability) : List Variant → List Line → Prop where
  | empty (lines : List Line) (plain : marksOf lines = []) (signature : String)
      (reads : textsOf lines =
        [signature ++ " \x7b", Text.indent "match *self \x7b\x7d", "\x7d"]) :
      MatchUses capability [] lines
  | arms (variants : List Variant) (some : variants ≠ []) (lines : List Line)
      (arms : List Arm) (each : List.Forall₂ (ArmUses capability) variants arms)
      (marks : marksOf lines = arms.flatMap fun arm => marksOf arm.lines)
      (signature : String)
      (reads : textsOf lines = (signature ++ " \x7b") ::
        (capability.opening ++
          ("match " ++ tupled (capability.sides.map Side.name) ++ " \x7b") ::
            (arms.flatMap fun arm => textsOf arm.lines) ++ capability.otherwise variants ++
          ["\x7d"]).map Text.indent ++ ["\x7d"]) :
      MatchUses capability variants lines

variable {definition : Definition} {capability : Capability} {variant : Variant} {arm : Arm}
  {variants : List Variant} {lines : List Line}

theorem marks_pattern (pattern : Pattern)
    (unit : pattern.variant.style = .unit → pattern.variant.fields = []) :
    pattern.line.marks = pattern.variant.fields.map fun field =>
      if pattern.binds field then .bound pattern.side field else .ignored field := by
  rw [Pattern.line, marks_inlineRecord _ unit, List.map_eq_flatMap]
  congr 1
  funext field
  split <;> rfl

/-- What is not passed over is bound. -/
theorem bindings_eq (side : Side) (capability : Capability) (fields : List Field) :
    (fields.map fun field => if field.skippedFor capability then Piece.ignored field
      else .bound side field).filterMap Piece.bound? =
      (capability.concerned fields).map (.binding side) := by
  rw [Capability.concerned_eq_filter]
  induction fields with
  | nil => rfl
  | cons field rest ih =>
    cases skipped : field.skippedFor capability with
    | true => simpa [skipped, List.filterMap_cons, Piece.bound?] using ih
    | false => simpa [skipped, List.filterMap_cons, Piece.bound?] using ih

theorem text_patternLine (arm : Arm) :
    arm.patternLine.text = tupled (arm.patterns.map (·.line.text)) := by
  unfold Arm.patternLine
  match arm.patterns with
  | [] => simp [tupled, Piece.text, Line.text_separated]
  | [pattern] => rfl
  | first :: next :: rest =>
    simp [tupled, Piece.text, Line.text_separated, String.append_assoc, Function.comp_def]

/-- A pattern that passes over what is skipped. -/
theorem text_pattern (capability : Capability) (side : Side) (variant : Variant) :
    (Pattern.mk side variant fun field => !field.skippedFor capability).line.text =
      capability.pattern side variant := by
  have part (field : Field) :
      Line.text [if !field.skippedFor capability then .bound side field else .ignored field] =
        capability.binder side field := by
    unfold Capability.binder
    cases field.skippedFor capability <;> simp [Piece.text]
  rw [Pattern.line, text_inlineRecord]
  exact congrArg variant.recordText (funext part)

/-- An arm whose patterns pass over what is skipped, and whose value uses the rest. -/
theorem ArmUses.of_marks (unit : variant.style = .unit → variant.fields = [])
    (patterns : arm.patterns = capability.sides.map fun side =>
      ⟨side, variant, fun field => !field.skippedFor capability⟩)
    (value : marksOf arm.value.lines =
      (capability.concerned variant.fields).flatMap (capability.valueMarks .binding)) :
    ArmUses capability variant arm := by
  have bound (side : Side) :
      (Pattern.mk side variant fun field => !field.skippedFor capability).line.marks =
        variant.fields.map fun field =>
          if field.skippedFor capability then .ignored field else .bound side field := by
    rw [marks_pattern _ unit]
    apply List.map_congr_left
    intro field _
    cases skipped : field.skippedFor capability <;> simp [skipped]
  have used (side : Side) : usedOn side arm.value.lines = _ := usedOn_eq value fun _ _ => rfl
  constructor
  case sides => simp [patterns, Function.comp_def]
  case matched => simp [patterns]
  case bound => simpa [patterns] using fun side _ => bound side
  case value => exact value
  case balanced =>
    intro pattern member
    obtain ⟨side, worked, same⟩ := List.mem_map.mp (patterns ▸ member)
    subst same
    rw [Pattern.bindings, bound, bindings_eq, used, if_pos worked]
  case closed =>
    intro place member
    rw [usedIn_eq value] at member
    -- the pattern of the place's own side binds it
    obtain ⟨field, concerned, member⟩ := List.mem_flatMap.mp member
    obtain ⟨side, worked, same⟩ := List.mem_map.mp member
    refine ⟨⟨side, variant, fun field => !field.skippedFor capability⟩, ?_, ?_⟩
    · rw [patterns]
      exact List.mem_map_of_mem worked
    · rw [Pattern.bindings, bound, bindings_eq, ← same]
      exact List.mem_map_of_mem concerned
  case marks => rw [marksOf_arm, marks_patternLine]
  case reads =>
    have read : arm.patternLine.text =
        tupled (capability.sides.map (capability.pattern · variant)) := by
      rw [text_patternLine, patterns, List.map_map]
      simp only [Function.comp_def, text_pattern]
    rw [textsOf_arm, read]

section

variable (unit : variant.style = .unit → variant.fields = [])

include unit

theorem debugArm_uses : ArmUses .debug variant (debugArm variant) := by
  apply ArmUses.of_marks unit
  case patterns => simp [debugArm, Capability.sides, Field.skippedFor, Capability.honorsSkip]
  case value =>
    unfold debugArm
    cases style : variant.style with
    | unit => simp [unit style, ArmValue.lines, showName, Capability.concerned, Piece.isMark]
    | tuple => exact (marksOf_showFields ..).trans (marksOf_map fun _ _ => rfl)
    | struct => exact (marksOf_showFields ..).trans (marksOf_map fun _ _ => rfl)

theorem cloneArm_uses : ArmUses .clone variant (cloneArm variant) := by
  apply ArmUses.of_marks unit
  case patterns => simp [cloneArm, Capability.sides, Field.skippedFor, Capability.honorsSkip]
  case value =>
    have value := marks_inlineRecord (fun field => cloneOf [.used (.binding .self field)]) unit
    exact (List.append_nil _).trans value

theorem equalArm_uses : ArmUses .partialEq variant (equalArm variant) := by
  apply ArmUses.of_marks unit
  case patterns => simp [equalArm, Capability.sides, Field.skippedFor, Capability.honorsSkip]
  case value =>
    have compared : marksOf (comparisons .binding variant.fields) = _ := marksOf_map fun _ _ => rfl
    exact (List.append_nil _).trans ((marks_allEqualLine _).trans compared)

end

/-- Lines beside the arms: they read as told, and do nothing with fields. -/
structure Beside (lines : List Line) (texts : List String) : Prop where
  plain : marksOf lines = []
  filled : FilledLines lines
  reads : textsOf lines = texts

theorem beside_nil : Beside [] [] := ⟨rfl, filledLines_nil, rfl⟩

theorem beside_compareDiscriminants : Beside compareDiscriminants Capability.partialEq.opening :=
  ⟨rfl, filled_compareDiscriminants, rfl⟩

theorem beside_unequalArm (variants : List Variant) :
    Beside (unequalArm variants) (Capability.partialEq.otherwise variants) := by
  constructor
  case plain =>
    unfold unequalArm
    split <;> rfl
  case filled => exact filled_unequalArm variants
  case reads =>
    unfold unequalArm Capability.otherwise
    by_cases several : 1 < variants.length <;> simp [several, Piece.text]

theorem armUses_map {arm : Variant → Arm}
    (uses : ∀ variant ∈ variants, ArmUses capability variant (arm variant)) :
    List.Forall₂ (ArmUses capability) variants (variants.map arm) :=
  List.forall₂_map_right_iff.mpr (List.forall₂_same.mpr uses)

theorem MatchUses.of_empty (signature : String) :
    MatchUses capability [] (functionBlock signature emptyMatch) := by
  refine .empty _ ?_ signature ?_
  · rw [marksOf_functionBlock]
    rfl
  · rw [filled_emptyMatch.textsOf_functionBlock]
    rfl

theorem MatchUses.of_arms {arms : List Arm} {opening others : List Line} (some : variants ≠ [])
    (each : List.Forall₂ (ArmUses capability) variants arms)
    (before : Beside opening capability.opening)
    (after : Beside others (capability.otherwise variants)) (signature : String) :
    MatchUses capability variants (functionBlock signature
      (opening ++ matchBlock (tupled (capability.sides.map Side.name)) arms others)) := by
  refine .arms variants some _ arms each ?_ signature ?_
  · rw [marksOf_functionBlock, marksOf_append, marksOf_matchBlock, before.plain, after.plain]
    simp
  · have block : FilledLines (matchBlock (tupled (capability.sides.map Side.name)) arms others) :=
      filled_matchBlock after.filled
    have inner := filledLines_append.mpr ⟨before.filled, block⟩
    rw [inner.textsOf_functionBlock, textsOf_append, textsOf_matchBlock, before.reads, after.reads]
    simp

/-- The body of an enum is a match with an arm for each variant. -/
theorem matchUses_bodyLines (own : capability ≠ .eq) (shape : definition.shape = .enum variants)
    (units : ∀ variant ∈ variants, variant.style = .unit → variant.fields = [])
    (derivable : bodyLines definition capability = .ok lines) :
    MatchUses capability variants lines := by
  cases capability with
  | default =>
    simp only [bodyLines, defaultBody, shape] at derivable
    cases derivable
  | debug =>
    cases derivable
    rw [debugBody, shape]
    cases variants with
    | nil => exact .of_empty _
    | cons first rest =>
      have each := armUses_map fun variant member => debugArm_uses (units variant member)
      exact .of_arms (List.cons_ne_nil first rest) each beside_nil
        (by simpa [Capability.otherwise] using beside_nil) _
  | clone =>
    cases derivable
    rw [cloneBody, shape]
    cases variants with
    | nil => exact .of_empty _
    | cons first rest =>
      have each := armUses_map fun variant member => cloneArm_uses (units variant member)
      exact .of_arms (List.cons_ne_nil first rest) each beside_nil
        (by simpa [Capability.otherwise] using beside_nil) _
  | partialEq =>
    cases derivable
    rw [partialEqBody, shape]
    cases variants with
    | nil => exact .of_empty _
    | cons first rest =>
      have each := armUses_map fun variant member => equalArm_uses (units variant member)
      exact .of_arms (List.cons_ne_nil first rest) each beside_compareDiscriminants
        (beside_unequalArm _) _
  | eq => exact absurd rfl own

namespace ArmUses

variable (uses : ArmUses capability variant arm)

include uses

/-- The patterns only bind fields and pass over them. -/
theorem filterMap_patternLine (find? : Piece → Option α)
    (bound : ∀ side field, find? (.bound side field) = none)
    (ignored : ∀ field, find? (.ignored field) = none) :
    arm.patternLine.marks.filterMap find? = [] := by
  rw [marks_patternLine, List.filterMap_flatMap, List.flatMap_eq_nil_iff]
  intro pattern member
  rw [uses.bound pattern member, List.filterMap_map, List.filterMap_eq_nil_iff]
  intro field _
  change find? (if _ then _ else _) = none
  split
  · exact ignored field
  · exact bound pattern.side field

theorem madeIn_eq (own : capability ≠ .default) : madeIn arm.lines = [] := by
  have patterns := uses.filterMap_patternLine Piece.made? (fun _ _ => rfl) fun _ => rfl
  rw [madeIn, marksOf_arm, List.filterMap_append, patterns]
  exact (DeriveBounds.madeIn_eq uses.value).trans (if_neg own)

theorem usedOn_eq (side : Side) : usedOn side arm.lines =
    if side ∈ capability.sides then (capability.concerned variant.fields).map (.binding side)
    else [] := by
  have patterns := uses.filterMap_patternLine Piece.used? (fun _ _ => rfl) fun _ => rfl
  rw [usedOn, usedIn, marksOf_arm, List.filterMap_append, patterns]
  exact DeriveBounds.usedOn_eq uses.value fun _ _ => rfl

end ArmUses

namespace MatchUses

variable (uses : MatchUses capability variants lines)

include uses

/-- The marks of a match are those of its arms. -/
theorem exists_arms : ∃ arms, List.Forall₂ (ArmUses capability) variants arms ∧
    marksOf lines = arms.flatMap fun arm => marksOf arm.lines := by
  cases uses with
  | empty _ plain => exact ⟨[], .nil, plain⟩
  | arms _ _ _ arms each marks => exact ⟨arms, each, marks⟩

theorem madeIn_eq (own : capability ≠ .default) : madeIn lines = [] := by
  obtain ⟨arms, each, marks⟩ := uses.exists_arms
  rw [madeIn, marks, List.filterMap_flatMap]
  clear uses marks
  induction each with
  | nil => rfl
  | cons first rest ih =>
    rw [List.flatMap_cons, ih, List.append_nil]
    exact first.madeIn_eq own

theorem usedOn_eq (side : Side) : (usedOn side lines).map Place.field =
    if side ∈ capability.sides then capability.concerned (variants.flatMap (·.fields)) else [] := by
  obtain ⟨arms, each, marks⟩ := uses.exists_arms
  have parts : usedOn side lines = arms.flatMap fun arm => usedOn side arm.lines := by
    rw [usedOn, usedIn, marks, List.filterMap_flatMap, List.filter_flatMap]
    rfl
  rw [parts, List.map_flatMap, Capability.concerned_flatMap]
  clear uses marks parts
  induction each with
  | nil => simp
  | cons first rest ih =>
    rw [List.flatMap_cons, List.flatMap_cons, ih, first.usedOn_eq]
    split
    · simp [Function.comp_def, Place.field]
    · simp

end MatchUses

end DeriveBounds
