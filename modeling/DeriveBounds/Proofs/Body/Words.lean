import DeriveBounds.Body

/-!
The fixed words of a body read no field: what is written of a field's value is written by the pieces
that stand for it.
-/
namespace DeriveBounds

/-- What is written where a field of a value is read, where a binding is, and where a default value
is made. -/
def fieldSigns : List String := ["self.", "other.", "__self_", "__other_", "::default()"]

/-- A text in which no field is read or made. -/
def Silent (text : String) : Prop := ∀ sign ∈ fieldSigns, ¬ sign.toList <:+: text.toList

/-- All fixed words that bodies are written with. -/
def bodyWords : List String :=
  ["    ", " \x7b", "\x7d", ", ", ",", ": ", "(", ")", " \x7b ", " \x7d", " => ", " => \x7b",
    "Self::", "Self(", "Self \x7b", "Self \x7b\x7d", "match ", "match *self \x7b\x7d", "self",
    "(self, other)", "_ => false,", "true", " && ", "&& ", " == ", "&", "\"", "\", ", "\")", "(\"",
    "f.", "f.write_str(\"", "debug_tuple", "debug_struct", ".field(", ".finish()",
    "::core::clone::Clone::clone(", "fn default() -> Self", "fn clone(&self) -> Self",
    "fn eq(&self, other: &Self) -> bool",
    "fn fmt(&self, f: &mut ::core::fmt::Formatter<'_>) -> ::core::fmt::Result",
    "if ::core::mem::discriminant(self) != ::core::mem::discriminant(other) \x7b", "return false;"]

theorem silent_of_mem_bodyWords {text : String} (member : text ∈ bodyWords) : Silent text := by
  revert text
  unfold Silent
  decide +kernel

/-- A piece with a fixed word has a word of bodies. -/
@[simp] def Piece.Fixed : Piece → Prop
  | .word text => text ∈ bodyWords
  | .name _ | .made _ | .used _ | .bound _ _ | .ignored _ => True

/-- The fixed words of a line are words of bodies. -/
def Line.Fixed (line : Line) : Prop := ∀ piece ∈ line, piece.Fixed

def FixedLines (lines : List Line) : Prop := ∀ line ∈ lines, line.Fixed

/-- It holds of every piece of a line. -/
def Line.Each (holds : Piece → Prop) (line : Line) : Prop := ∀ piece ∈ line, holds piece

/-- It holds of every piece of all lines. -/
def EachPiece (holds : Piece → Prop) (lines : List Line) : Prop := ∀ line ∈ lines, line.Each holds

/-- It holds of the pieces that a body may write for a field. -/
structure Field.Each (holds : Piece → Prop) (field : Field) : Prop where
  label : holds (.name field.label)
  plainName : holds (.name field.plainName)
  made : holds (.made field)
  member : ∀ side, holds (.used (.member side field))
  binding : ∀ side, holds (.used (.binding side field))
  bound : ∀ side, holds (.bound side field)
  ignored : holds (.ignored field)

/-- It holds of the pieces that a body may write for a variant. -/
structure Variant.Each (holds : Piece → Prop) (variant : Variant) : Prop where
  name : holds (.name variant.name)
  fields : ∀ field ∈ variant.fields, field.Each holds

def Shape.Each (holds : Piece → Prop) : Shape → Prop
  | struct fields => ∀ field ∈ fields, field.Each holds
  | tuple fields => ∀ field ∈ fields, field.Each holds
  | enum variants => ∀ variant ∈ variants, variant.Each holds

def Shape.variants : Shape → List Variant
  | enum variants => variants
  | struct _ | tuple _ => []

/-- The names that a body may write besides what it writes for the values of fields. -/
inductive Definition.Names (definition : Definition) : String → Prop where
  | type : Names definition definition.name
  | variant (variant : Variant) (member : variant ∈ definition.shape.variants) :
      Names definition variant.name
  | label (field : Field) (member : field ∈ definition.shape.fields) : Names definition field.label
  | plainName (field : Field) (member : field ∈ definition.shape.fields) :
      Names definition field.plainName

variable {holds : Piece → Prop} {line rest : Line} {piece : Piece} {lines more : List Line}
  {fields : List Field} {variant : Variant} {part : Field → Line}

theorem Shape.each_iff {shape : Shape} : shape.Each holds ↔
    (∀ variant ∈ shape.variants, holds (.name variant.name)) ∧
      ∀ field ∈ shape.fields, field.Each holds := by
  cases shape with
  | struct fields => simp [Each, variants, Shape.fields]
  | tuple fields => simp [Each, variants, Shape.fields]
  | enum own =>
    simp only [Each, variants, Shape.fields, List.mem_flatMap, forall_exists_index, and_imp]
    constructor
    · intro each
      exact ⟨fun variant member => (each variant member).name,
        fun field variant member present => (each variant member).fields field present⟩
    · intro parts variant member
      obtain ⟨names, fields⟩ := parts
      exact ⟨names variant member, fun field present => fields field variant member present⟩

namespace Line

@[simp] theorem each_nil : Each holds [] := by simp [Each]

@[simp] theorem each_cons : Each holds (piece :: rest) ↔ holds piece ∧ rest.Each holds := by
  simp [Each]

@[simp] theorem each_append : Each holds (line ++ rest) ↔ line.Each holds ∧ rest.Each holds :=
  List.forall_mem_append

end Line

@[simp] theorem eachPiece_nil : EachPiece holds [] := by simp [EachPiece]

@[simp] theorem eachPiece_cons :
    EachPiece holds (line :: lines) ↔ line.Each holds ∧ EachPiece holds lines :=
  List.forall_mem_cons

@[simp] theorem eachPiece_append :
    EachPiece holds (lines ++ more) ↔ EachPiece holds lines ∧ EachPiece holds more :=
  List.forall_mem_append

@[simp] theorem eachPiece_map {items : List α} {line : α → Line} :
    EachPiece holds (items.map line) ↔ ∀ item ∈ items, (line item).Each holds :=
  List.forall_mem_map

section

variable (word : ∀ text ∈ bodyWords, holds (.word text))

include word

theorem Line.each_indent : line.indent.Each holds ↔ line.Each holds := by
  simp +decide [indent, word]

theorem Line.Each.indentFilled (each : line.Each holds) : line.indentFilled.Each holds := by
  unfold Line.indentFilled
  split
  · exact each_nil
  · exact (each_indent word).mpr each

theorem Line.each_separated {separator : String} (between : separator ∈ bodyWords)
    (each : EachPiece holds lines) : (separated separator lines).Each holds := by
  induction lines with
  | nil => exact each_nil
  | cons part rest ih =>
    obtain ⟨own, others⟩ := List.forall_mem_cons.mp each
    cases rest with
    | nil => exact own
    | cons next rest =>
      rw [separated]
      · exact each_append.mpr ⟨own, each_cons.mpr ⟨word _ between, ih others⟩⟩
      · exact List.cons_ne_nil next rest

theorem each_functionBlock {signature : String} (known : signature ∈ bodyWords)
    (each : EachPiece holds lines) : EachPiece holds (functionBlock signature lines) := by
  have filled : ∀ line ∈ lines, line.indentFilled.Each holds :=
    fun line member => (each line member).indentFilled word
  simpa +decide [functionBlock, word, known] using filled

theorem each_tupleBlock (each : ∀ field ∈ fields, (part field).Each holds) :
    EachPiece holds (tupleBlock fields part) := by
  simpa +decide [tupleBlock, Line.each_indent word, word] using each

theorem each_structBlock (labels : ∀ field ∈ fields, holds (.name field.label))
    (each : ∀ field ∈ fields, (part field).Each holds) :
    EachPiece holds (structBlock fields part) := by
  unfold structBlock
  split
  · simp +decide [word]
  · simpa +decide [Line.each_indent word, word] using
      fun field member => And.intro (labels field member) (each field member)

theorem each_inlineRecord (own : variant.Each holds)
    (each : ∀ field ∈ variant.fields, (part field).Each holds) :
    (inlineRecord variant part).Each holds := by
  unfold inlineRecord
  have tuple : (Line.separated ", " (variant.fields.map part)).Each holds :=
    Line.each_separated word (by decide) (eachPiece_map.mpr each)
  have labelled : ∀ field ∈ variant.fields,
      Line.Each holds (.name field.label :: .word ": " :: part field) := fun field member =>
    Line.each_cons.mpr ⟨(own.fields field member).label,
      Line.each_cons.mpr ⟨word _ (by decide), each field member⟩⟩
  have struct : (Line.separated ", " (variant.fields.map fun field =>
      .name field.label :: .word ": " :: part field)).Each holds :=
    Line.each_separated word (by decide) (eachPiece_map.mpr labelled)
  cases variant.style with
  | unit => simp +decide [word, own.name]
  | tuple => simp +decide [word, own.name, tuple]
  | struct => simp +decide [word, own.name, struct]

theorem each_pattern {pattern : Pattern} (own : pattern.variant.Each holds) :
    pattern.line.Each holds := by
  refine each_inlineRecord word own fun field member => ?_
  split
  · simpa using (own.fields field member).bound pattern.side
  · simpa using (own.fields field member).ignored

theorem each_patternLine {arm : Arm} (own : ∀ pattern ∈ arm.patterns, pattern.variant.Each holds) :
    arm.patternLine.Each holds := by
  have patterns : (Line.separated ", " (arm.patterns.map Pattern.line)).Each holds :=
    Line.each_separated word (by decide)
      (eachPiece_map.mpr fun pattern member => each_pattern word (own pattern member))
  unfold Arm.patternLine
  split
  · rename_i pattern single
    exact each_pattern word (own pattern (by simp [single]))
  · simp +decide [patterns, word]

theorem each_arm {arm : Arm} (own : ∀ pattern ∈ arm.patterns, pattern.variant.Each holds)
    (each : EachPiece holds arm.value.lines) : EachPiece holds arm.lines := by
  have patterns := each_patternLine word own
  unfold Arm.lines
  cases value : arm.value with
  | inline line =>
    have own : line.Each holds := by simpa [value, ArmValue.lines] using each
    simp +decide [Line.each_indent word, patterns, own, word]
  | block lines =>
    have own : ∀ line ∈ lines, line.Each holds := by
      rw [value] at each
      exact each
    simpa +decide [Line.each_indent word, patterns, word] using own

theorem each_matchBlock {subject : String} {arms : List Arm} (known : subject ∈ bodyWords)
    (each : ∀ arm ∈ arms, EachPiece holds arm.lines) (others : EachPiece holds more) :
    EachPiece holds (matchBlock subject arms more) := by
  have inner : EachPiece holds (arms.flatMap Arm.lines) := by
    intro line member
    obtain ⟨arm, present, own⟩ := List.mem_flatMap.mp member
    exact each arm present line own
  simp +decide [matchBlock, word, known, inner, others]

theorem each_showFields {builder name : String} (known : builder ∈ bodyWords)
    (named : holds (.name name)) (each : EachPiece holds lines) :
    EachPiece holds (showFields builder name lines) := by
  have entries : ∀ entry ∈ lines, entry.Each holds := each
  simpa +decide [showFields, Line.each_indent word, word, known, named] using entries

omit word in
theorem mem_fields_of_mem_keptFields {field : Field} (member : field ∈ keptFields fields) :
    field ∈ fields :=
  (List.mem_filter.mp member).1

theorem each_comparisons {place : Side → Field → Place}
    (used : ∀ side, ∀ field ∈ fields, holds (.used (place side field))) :
    EachPiece holds (comparisons place fields) := by
  have kept : ∀ field ∈ keptFields fields,
      holds (.used (place .self field)) ∧ holds (.used (place .other field)) :=
    fun field member =>
      have member := mem_fields_of_mem_keptFields member
      ⟨used .self field member, used .other field member⟩
  simpa +decide [comparisons, word] using kept

theorem each_allEqualLine (each : EachPiece holds lines) : (allEqualLine lines).Each holds := by
  unfold allEqualLine
  split
  · simp +decide [word]
  · exact Line.each_separated word (by decide) each

theorem each_allEqualLines (each : EachPiece holds lines) :
    EachPiece holds (allEqualLines lines) := by
  unfold allEqualLines
  split
  · simp +decide [word]
  · obtain ⟨first, rest⟩ := List.forall_mem_cons.mp each
    simpa +decide [Line.each_indent word, first, word] using rest

theorem each_quotedName {field : Field} (each : field.Each holds) :
    (quotedName field).Each holds := by
  simp +decide [quotedName, word, each.plainName]

theorem each_debugArm (own : variant.Each holds) : EachPiece holds (debugArm variant).lines := by
  refine each_arm word (by simpa [debugArm] using own) ?_
  have kept : ∀ field ∈ keptFields variant.fields, field.Each holds :=
    fun field member => own.fields field (mem_fields_of_mem_keptFields member)
  unfold debugArm
  cases variant.style with
  | unit => simp +decide [ArmValue.lines, showName, word, own.name]
  | tuple =>
    refine each_showFields word (by decide) own.name ?_
    simpa using fun field member => (kept field member).binding .self
  | struct =>
    refine each_showFields word (by decide) own.name ?_
    simpa using fun field member =>
      And.intro (each_quotedName word (kept field member)) ((kept field member).binding .self)

theorem each_cloneArm (own : variant.Each holds) : EachPiece holds (cloneArm variant).lines := by
  refine each_arm word (by simpa [cloneArm] using own) ?_
  have value : (inlineRecord variant fun field => cloneOf [.used (.binding .self field)]).Each
      holds := by
    refine each_inlineRecord word own fun field member => ?_
    simp +decide [cloneOf, word, (own.fields field member).binding]
  simpa [cloneArm, ArmValue.lines] using value

theorem each_equalArm (own : variant.Each holds) : EachPiece holds (equalArm variant).lines := by
  refine each_arm word (by simpa [equalArm] using own) ?_
  have value : (allEqualLine (comparisons .binding variant.fields)).Each holds :=
    each_allEqualLine word (each_comparisons word fun side field member =>
      (own.fields field member).binding side)
  simpa [equalArm, ArmValue.lines] using value

/-- A body is written with its words, the name of the type, and pieces of its shape. -/
theorem each_bodyLines {definition : Definition} {capability : Capability}
    (named : holds (.name definition.name)) (each : definition.shape.Each holds)
    (derivable : bodyLines definition capability = .ok lines) : EachPiece holds lines := by
  have cloned (field : Field) (own : field.Each holds) : (cloneMember field).Each holds := by
    simp +decide [cloneMember, cloneOf, word, own.member]
  have shown (fields : List Field) (own : ∀ field ∈ fields, field.Each holds) :
      ∀ field ∈ keptFields fields, field.Each holds :=
    fun field member => own field (mem_fields_of_mem_keptFields member)
  cases capability with
  | default =>
    simp only [bodyLines, defaultBody] at derivable
    split at derivable
    · cases derivable
    · rename_i fields shape
      rw [shape] at each
      cases derivable
      refine each_functionBlock word (by decide) (each_tupleBlock word ?_)
      simpa using fun field member => (each field member).made
    · rename_i fields shape
      rw [shape] at each
      cases derivable
      refine each_functionBlock word (by decide)
        (each_structBlock word (fun field member => (each field member).label) ?_)
      simpa using fun field member => (each field member).made
  | debug =>
    cases derivable
    refine each_functionBlock word (by decide) ?_
    cases shape : definition.shape with
    | tuple fields =>
      rw [shape] at each
      refine each_showFields word (by decide) named ?_
      simpa +decide [word] using fun field member => (shown fields each field member).member .self
    | struct fields =>
      rw [shape] at each
      cases fields with
      | nil => simp +decide [showName, word, named]
      | cons first rest =>
        refine each_showFields word (by decide) named ?_
        simpa +decide [word] using fun field member =>
          And.intro (each_quotedName word (shown _ each field member))
            ((shown _ each field member).member .self)
    | enum variants =>
      rw [shape] at each
      cases variants with
      | nil => simp +decide [emptyMatch, word]
      | cons first rest =>
        exact each_matchBlock word (by decide) (List.forall_mem_map.mpr fun variant member =>
          each_debugArm word (each variant member)) eachPiece_nil
  | clone =>
    cases derivable
    refine each_functionBlock word (by decide) ?_
    cases shape : definition.shape with
    | tuple fields =>
      rw [shape] at each
      exact each_tupleBlock word fun field member => cloned field (each field member)
    | struct fields =>
      rw [shape] at each
      exact each_structBlock word (fun field member => (each field member).label)
        fun field member => cloned field (each field member)
    | enum variants =>
      rw [shape] at each
      cases variants with
      | nil => simp +decide [emptyMatch, word]
      | cons first rest =>
        exact each_matchBlock word (by decide) (List.forall_mem_map.mpr fun variant member =>
          each_cloneArm word (each variant member)) eachPiece_nil
  | partialEq =>
    cases derivable
    have compared (fields : List Field) (own : ∀ field ∈ fields, field.Each holds) :
        EachPiece holds (allEqualLines (comparisons .member fields)) :=
      each_allEqualLines word (each_comparisons word fun side field member =>
        (own field member).member side)
    refine each_functionBlock word (by decide) ?_
    cases shape : definition.shape with
    | tuple fields => exact compared fields (by rwa [shape] at each)
    | struct fields => exact compared fields (by rwa [shape] at each)
    | enum variants =>
      rw [shape] at each
      cases variants with
      | nil => simp +decide [emptyMatch, word]
      | cons first rest =>
        have others : EachPiece holds (unequalArm (first :: rest)) := by
          unfold unequalArm
          split <;> simp +decide [Line.each_indent word, word]
        refine eachPiece_append.mpr ⟨?_, each_matchBlock word (by decide)
          (List.forall_mem_map.mpr fun variant member => each_equalArm word (each variant member))
          others⟩
        simp +decide [compareDiscriminants, Line.each_indent word, word]
  | eq =>
    cases derivable
    exact eachPiece_nil

end

theorem fixed_bodyLines {definition : Definition} {capability : Capability}
    (derivable : bodyLines definition capability = .ok lines) : FixedLines lines := by
  have field (field : Field) : field.Each Piece.Fixed := by constructor <;> simp
  have shape : definition.shape.Each Piece.Fixed :=
    Shape.each_iff.mpr ⟨fun _ _ => trivial, fun own _ => field own⟩
  exact each_bodyLines (fun _ known => known) trivial shape derivable

theorem names_bodyLines {definition : Definition} {capability : Capability}
    (derivable : bodyLines definition capability = .ok lines) :
    ∀ line ∈ lines, ∀ text, .name text ∈ line → definition.Names text := by
  -- only names are held to anything
  let holds (piece : Piece) : Prop := ∀ text, piece = .name text → definition.Names text
  have name {text : String} (named : definition.Names text) : holds (.name text) := by
    intro other same
    cases same
    exact named
  have field (field : Field) (member : field ∈ definition.shape.fields) : field.Each holds := by
    constructor
    case label => exact name (.label field member)
    case plainName => exact name (.plainName field member)
    all_goals simp [holds]
  have shape : definition.shape.Each holds :=
    Shape.each_iff.mpr ⟨fun variant member => name (.variant variant member), field⟩
  have each : EachPiece holds lines :=
    each_bodyLines (by simp [holds]) (name .type) shape derivable
  exact fun line present text member => each line present (.name text) member text rfl

theorem silent_bodyLines {definition : Definition} {capability : Capability}
    (derivable : bodyLines definition capability = .ok lines) :
    ∀ line ∈ lines, ∀ text, .word text ∈ line → Silent text :=
  fun line present text word =>
    silent_of_mem_bodyWords (fixed_bodyLines derivable line present (.word text) word)

end DeriveBounds
