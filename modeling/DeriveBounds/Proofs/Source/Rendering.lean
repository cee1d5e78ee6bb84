import DeriveBounds.Proofs.Body.Names
import DeriveBounds.Proofs.Derivation.Attempt

/-!
The text of an impl, line by line: the header, the predicates, and the lines of the body in braces.
What stands in the braces and before them is indented and the delimiters are not, so predicates and
body are recovered from the text.
-/
namespace DeriveBounds

/-- A text that makes one line: it is not empty, and has no line break. -/
structure Text.IsLine (text : String) : Prop where
  unbroken : Unbroken text
  filled : text ≠ ""

/-- No name that the definition gives has a line break, and no type of a constant either. -/
structure Definition.Unbroken (definition : Definition) : Prop where
  name : Text.Unbroken definition.name
  params : ∀ param ∈ definition.params, Text.Unbroken param.name
  constTypes : ∀ param ∈ definition.params, param.kind = .const →
    ∀ type ∈ param.constType, Text.Unbroken type
  variants : ∀ variant ∈ definition.shape.variants, Text.Unbroken variant.name
  fields : ∀ field ∈ definition.shape.fields, ∀ name, field.key = .named name → Text.Unbroken name

/-- An impl that is derived for the definition, with no line break in what is written of it. -/
structure Definition.Yields (definition : Definition) (item : ImplItem) : Prop where
  derived : ∃ phantoms, definition.implFor phantoms item.capability = .ok item
  unbroken : definition.Unbroken
  predicates : ∀ predicate ∈ item.predicates, Text.Unbroken predicate

/-- The brace that opens a body; that of an empty one is closed at once. -/
def openingBrace : List String → String
  | [] => "\x7b\x7d"
  | _ :: _ => "\x7b"

/-- The lines of a body behind its brace, and the brace that closes it. -/
def closedLines : List String → List String
  | [] => []
  | first :: rest => (first :: rest).map Text.indent ++ ["\x7d"]

/-- The lines of an impl. Without predicates the header shares its line with the brace. -/
def implLines (header : String) (predicates body : List String) : List String :=
  match predicates with
  | [] => (header ++ " " ++ openingBrace body) :: closedLines body
  | first :: rest =>
    header :: "where" :: (first :: rest).map (fun predicate => Text.indent predicate ++ ",") ++
      openingBrace body :: closedLines body

variable {definition : Definition} {capability : Capability} {item : ImplItem} {field : Field}
  {header text : String} {predicates body : List String}

namespace Text

theorem indent_injective : Function.Injective indent :=
  fun _ _ same => by simpa [indent] using same

/-- The line begins with a blank, as indented ones do. -/
def isIndented (line : String) : Bool := line.toList.head? == some ' '

theorem isIndented_indent_append (line more : String) :
    isIndented (indent line ++ more) = true := by
  simp [isIndented, indent]

theorem isIndented_indent (line : String) : isIndented (indent line) = true := by
  simpa using isIndented_indent_append line ""

theorem IsLine.indent_append {more : String} (line : Unbroken text) (rest : Unbroken more) :
    IsLine (indent text ++ more) where
  unbroken := unbroken_append.mpr ⟨unbroken_indent.mpr line, rest⟩
  filled := by
    intro empty
    have indented := isIndented_indent_append text more
    rw [empty] at indented
    cases indented

theorem IsLine.indent (line : Unbroken text) : IsLine (indent text) := by
  simpa using indent_append line unbroken_empty

theorem IsLine.append {more : String} (line : IsLine text) (rest : Unbroken more) :
    IsLine (text ++ more) where
  unbroken := unbroken_append.mpr ⟨line.unbroken, rest⟩
  filled := fun empty => line.filled (String.append_eq_empty_iff.mp empty).1

end Text

section Layout

/-- None of the lines of an impl is empty or has a line break. -/
theorem isLine_implLines (head : Text.IsLine header)
    (listed : ∀ predicate ∈ predicates, Text.Unbroken predicate)
    (plain : ∀ line ∈ body, Text.Unbroken line) :
    ∀ line ∈ implLines header predicates body, Text.IsLine line := by
  have brace : Text.IsLine (openingBrace body) := by
    cases body with
    | nil => exact ⟨by decide, by decide⟩
    | cons first rest => exact ⟨(by decide : Text.Unbroken "\x7b"), (by decide : "\x7b" ≠ "")⟩
  have rest : ∀ line ∈ closedLines body, Text.IsLine line := by
    cases body with
    | nil => exact List.forall_mem_nil _
    | cons first others =>
      refine List.forall_mem_append.mpr ⟨?_, List.forall_mem_singleton.mpr ⟨by decide, by decide⟩⟩
      exact List.forall_mem_map.mpr fun line member => .indent (plain line member)
  cases predicates with
  | nil =>
    refine List.forall_mem_cons.mpr ⟨?_, rest⟩
    exact (head.append (by decide)).append brace.unbroken
  | cons first others =>
    refine List.forall_mem_cons.mpr ⟨head, List.forall_mem_cons.mpr ⟨⟨by decide, by decide⟩, ?_⟩⟩
    refine List.forall_mem_append.mpr ⟨?_, List.forall_mem_cons.mpr ⟨brace, rest⟩⟩
    exact List.forall_mem_map.mpr fun predicate member =>
      .indent_append (listed predicate member) (by decide)

theorem closedLines_inj {other : List String} (same : closedLines body = closedLines other) :
    body = other := by
  cases body with
  | nil =>
    cases other with
    | nil => rfl
    | cons next others => simp [closedLines] at same
  | cons first rest =>
    cases other with
    | nil => simp [closedLines] at same
    | cons next others =>
      have inner := List.append_cancel_right same
      exact List.map_injective_iff.mpr Text.indent_injective inner

theorem where_notMem_closedLines : "where" ∉ closedLines body := by
  cases body with
  | nil => exact List.not_mem_nil
  | cons first rest =>
    intro member
    rcases List.mem_append.mp member with inner | closing
    · obtain ⟨line, _, same⟩ := List.mem_map.mp inner
      have indented := Text.isIndented_indent line
      rw [same] at indented
      cases indented
    · exact absurd closing (by decide)

theorem isIndented_openingBrace : Text.isIndented (openingBrace body) = false := by
  cases body with
  | nil => rfl
  | cons first rest => exact (by decide : Text.isIndented "\x7b" = false)

/-- The indented lines in front end where the brace stands. -/
theorem takeWhile_predicates (predicates body rest : List String) :
    (predicates.map (fun predicate => Text.indent predicate ++ ",") ++
      openingBrace body :: rest).takeWhile Text.isIndented =
      predicates.map fun predicate => Text.indent predicate ++ "," := by
  rw [List.takeWhile_append_of_pos, List.takeWhile_cons_of_neg, List.append_nil]
  · simp [isIndented_openingBrace]
  · exact List.forall_mem_map.mpr fun predicate _ => Text.isIndented_indent_append predicate ","

/-- The lines of an impl give its header, its predicates and its body. -/
theorem implLines_inj {otherHeader : String} {others otherBody : List String}
    (same : implLines header predicates body = implLines otherHeader others otherBody) :
    header = otherHeader ∧ predicates = others ∧ body = otherBody := by
  cases predicates with
  | nil =>
    cases others with
    | nil =>
      obtain ⟨first, rest⟩ := List.cons.inj same
      obtain rfl := closedLines_inj rest
      exact ⟨by simpa using first, rfl, rfl⟩
    | cons next others =>
      obtain ⟨_, rest⟩ := List.cons.inj same
      have present : "where" ∈ closedLines body := rest ▸ List.mem_cons_self
      exact absurd present where_notMem_closedLines
  | cons first rest =>
    cases others with
    | nil =>
      obtain ⟨_, behind⟩ := List.cons.inj same
      have present : "where" ∈ closedLines otherBody := behind ▸ List.mem_cons_self
      exact absurd present where_notMem_closedLines
    | cons next others =>
      obtain ⟨heads, behind⟩ := List.cons.inj same
      obtain ⟨_, listed⟩ := List.cons.inj behind
      have taken := congrArg (List.takeWhile Text.isIndented) listed
      have own := takeWhile_predicates (first :: rest) body (closedLines body)
      have its := takeWhile_predicates (next :: others) otherBody (closedLines otherBody)
      have alike := own.symm.trans (taken.trans its)
      have predicates : first :: rest = next :: others := by
        refine List.map_injective_iff.mpr ?_ alike
        exact fun _ _ same => Text.indent_injective (by simpa using same)
      rw [predicates] at listed
      obtain ⟨_, inner⟩ := List.cons.inj (List.append_cancel_left listed)
      exact ⟨heads, predicates, closedLines_inj inner⟩

end Layout

section Unbroken

theorem unbroken_angled {parts : List String} (each : ∀ part ∈ parts, Text.Unbroken part) :
    Text.Unbroken (angled parts) := by
  cases parts with
  | nil => exact Text.unbroken_empty
  | cons first rest =>
    have joined : Text.Unbroken (Text.join ", " (first :: rest)) :=
      Text.unbroken_join (by decide) each
    simpa +decide [angled] using joined

theorem Capability.unbroken_traitPath (capability : Capability) :
    Text.Unbroken capability.traitPath := by
  cases capability <;> decide

/-- The header of an impl is a line. -/
theorem Definition.Unbroken.isLine_header (unbroken : definition.Unbroken) (item : ImplItem) :
    Text.IsLine (item.header definition) := by
  have declared : Text.Unbroken (implGenerics definition.params) := by
    refine unbroken_angled (List.forall_mem_map.mpr fun param member => ?_)
    unfold GenericParam.declaration
    split
    · rename_i const
      cases type : param.constType with
      | none => simpa +decide using unbroken.params param member
      | some text =>
        have own := unbroken.constTypes param member const text type
        simpa +decide [own] using unbroken.params param member
    · exact unbroken.params param member
  have named : Text.Unbroken (typeGenerics definition.params) :=
    unbroken_angled (List.forall_mem_map.mpr unbroken.params)
  have traitPath := item.capability.unbroken_traitPath
  constructor
  case unbroken => simp +decide [ImplItem.header, declared, named, traitPath, unbroken.name]
  case filled => simp [ImplItem.header]

theorem unbroken_toString (index : Int) : Text.Unbroken (toString index) := by
  cases index with
  | ofNat index => exact unbroken_of_isIdentChar isIdentChar_of_mem_toString
  | negSucc index =>
    have digits : Text.Unbroken (toString (index + 1)) :=
      unbroken_of_isIdentChar isIdentChar_of_mem_toString
    exact Text.unbroken_append.mpr ⟨(by decide : Text.Unbroken "-"), digits⟩

theorem Field.unbroken_label (plain : ∀ name, field.key = .named name → Text.Unbroken name) :
    Text.Unbroken field.label := by
  unfold label
  cases key : field.key with
  | named name => exact plain name key
  | position index => exact unbroken_toString index

/-- Every piece that is written for the field stays on its line. -/
theorem Field.each_unbroken (plain : Text.Unbroken field.label) :
    field.Each fun piece => Text.Unbroken piece.text := by
  have plainName : Text.Unbroken field.plainName := by
    rcases field.label_eq with same | marked
    · exact same ▸ plain
    · rw [marked] at plain
      exact (Text.unbroken_append.mp plain).2
  have sides (side : Side) : Text.Unbroken side.name := by cases side <;> decide
  have binding (side : Side) : Text.Unbroken (Place.binding side field).text := by
    simp +decide [Place.text, sides, plainName]
  constructor
  case label => exact plain
  case plainName => exact plainName
  case made => exact (by decide : Text.Unbroken defaultValue)
  case member =>
    intro side
    simp +decide [Piece.text, Place.text, sides, plain]
  case binding => exact binding
  case bound => exact binding
  case ignored => exact (by decide : Text.Unbroken "_")

/-- The lines of a body are read back from its text, and none of them is empty. -/
theorem Definition.Unbroken.lines_body (unbroken : definition.Unbroken) {texts : List String}
    (written : DeriveBounds.body definition capability = .ok texts) :
    Text.lines (Text.join "\n" texts) = texts ∧ ∀ text ∈ texts, Text.IsLine text := by
  obtain ⟨lines, derivable, same⟩ := body_eq_ok_iff.mp written
  have fields : ∀ field ∈ definition.shape.fields,
      field.Each fun piece => Text.Unbroken piece.text :=
    fun field member => Field.each_unbroken (Field.unbroken_label (unbroken.fields field member))
  have each : EachPiece (fun piece => Text.Unbroken piece.text) lines :=
    each_bodyLines (fun _ known => unbroken_of_mem_bodyWords known) unbroken.name
      (Shape.each_iff.mpr ⟨unbroken.variants, fields⟩) derivable
  have read : Text.lines (Text.join "\n" (textsOf lines)) = textsOf lines :=
    (lines_body_iff derivable).mpr each
  rw [same] at read
  refine ⟨read, fun text member => ⟨?_, textsOf_ne_empty derivable text (same ▸ member)⟩⟩
  exact Text.unbroken_of_mem_lines (read.symm ▸ member)

end Unbroken

section Rendering

theorem ImplItem.renderedLines_eq {texts : List String} (read : Text.lines item.body = texts)
    (filled : ∀ text ∈ texts, text ≠ "") :
    item.renderedLines definition = implLines (item.header definition) item.predicates texts := by
  have indented : texts.map Text.indentLine = texts.map Text.indent :=
    List.map_congr_left fun text member => if_neg (filled text member)
  unfold renderedLines opening
  rw [read]
  cases texts with
  | nil =>
    cases item.predicates <;> simp [implLines, openingBrace, closedLines, String.append_assoc]
  | cons first rest =>
    simp only [indented]
    cases item.predicates <;> simp [implLines, openingBrace, closedLines, String.append_assoc]

/-- What the lines of an impl are made of. -/
structure ImplItem.Laid (definition : Definition) (item : ImplItem) (texts : List String) :
    Prop where
  written : DeriveBounds.body definition item.capability = .ok texts
  body : item.body = Text.join "\n" texts
  rendered : item.renderedLines definition =
    implLines (item.header definition) item.predicates texts
  isLine : ∀ line ∈ item.renderedLines definition, Text.IsLine line
  lines : Text.lines (item.render definition) =
    implLines (item.header definition) item.predicates texts

theorem Definition.Yields.laid (yields : definition.Yields item) :
    ∃ texts, item.Laid definition texts := by
  obtain ⟨phantoms, derived⟩ := yields.derived
  obtain ⟨texts, _, _, _, written, _, _, _, same⟩ := implFor_eq_ok_iff.mp derived
  have body : item.body = Text.join "\n" texts := by rw [same]
  obtain ⟨read, isLine⟩ := yields.unbroken.lines_body written
  rw [← body] at read
  have rendered : item.renderedLines definition =
      implLines (item.header definition) item.predicates texts :=
    item.renderedLines_eq read fun text member => (isLine text member).filled
  have each : ∀ line ∈ item.renderedLines definition, Text.IsLine line := by
    rw [rendered]
    exact isLine_implLines (yields.unbroken.isLine_header item) yields.predicates
      fun text member => (isLine text member).unbroken
  refine ⟨texts, written, body, rendered, each, ?_⟩
  rw [← rendered, ImplItem.render]
  refine Text.lines_join (fun line member => (each line member).unbroken) fun last => ?_
  exact (each "" (List.mem_of_getLast? last)).filled rfl

/-- The text of an impl gives its header, its predicates and its body. -/
theorem Definition.Yields.render_inj {other : Definition} {second : ImplItem}
    (yields : definition.Yields item) (also : other.Yields second)
    (same : item.render definition = second.render other) :
    item.header definition = second.header other ∧ item.predicates = second.predicates ∧
      item.body = second.body := by
  obtain ⟨texts, laid⟩ := yields.laid
  obtain ⟨others, alsoLaid⟩ := also.laid
  have lines := laid.lines
  rw [same, alsoLaid.lines] at lines
  obtain ⟨headers, predicates, bodies⟩ := implLines_inj lines
  exact ⟨headers.symm, predicates.symm, by rw [laid.body, alsoLaid.body, bodies]⟩

end Rendering

end DeriveBounds
