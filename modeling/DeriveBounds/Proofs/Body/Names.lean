import DeriveBounds.Proofs.Body.Outline
import DeriveBounds.Proofs.Body.Words
import DeriveBounds.Proofs.Classified.Coherent
import DeriveBounds.Proofs.Text.Lines

/-!
The names that are written into bodies and headers. A classified definition has identifiers for its
own name and for its parameters and variants; the names of fields are taken as they are. As long as
these are identifiers too, each of them fills one gap between fixed words, and the lines of a body
are those that its generator wrote.
-/
namespace DeriveBounds

/-- A name of a field is an identifier, with or without the mark of a raw one. Positions need no
check. -/
def Field.Identifies (field : Field) : Prop :=
  field.key.isNamed = true → isIdent field.plainName.toList = true

/-- All names of a definition are single identifiers, those of lifetimes behind their apostrophe and
those of fields with or without the mark of a raw one. -/
structure Definition.Identifies (definition : Definition) : Prop where
  name : isIdent definition.name.toList = true
  params : ∀ param ∈ definition.params, param.kind.Names param.name
  variants : ∀ variant ∈ definition.shape.variants, isIdent variant.name.toList = true
  fields : ∀ field ∈ definition.shape.fields, field.Identifies

/-- What is written for a name: one identifier or one position. -/
inductive IsLabel : String → Prop where
  | ident (name : String) (ident : isIdent name.toList = true) : IsLabel name
  | raw (name : String) (ident : isIdent name.toList = true) : IsLabel ("r#" ++ name)
  | position (index : Nat) : IsLabel (toString index)

/-- A fixed word, or a gap that is filled with one identifier or position. -/
def Piece.Single : Piece → Prop
  | word text => text ∈ bodyWords
  | name text => IsLabel text
  | made _ | ignored _ => True
  | used (.member _ field) => IsLabel field.label
  | used (.binding side field) | bound side field =>
    isIdent (Place.binding side field).text.toList = true

/-- A field is known by a name, or by its position counted from zero. -/
def Field.Keyed (field : Field) : Prop :=
  field.key.isNamed = true ∨ ∃ index : Nat, field.key = .position index

variable {element : Xml.Element} {definition other : Definition} {capability : Capability}
  {fields : List Field} {field : Field} {variant : Variant} {piece : Piece} {lines : List Line}
  {text name : String} {chars : List Char}

section Characters

theorem isIdentChar_of_isIdent (ident : isIdent chars = true) :
    ∀ c ∈ chars, isIdentChar c = true := by
  cases chars with
  | nil => cases ident
  | cons first rest =>
    simp only [isIdent, Bool.and_eq_true, List.all_eq_true] at ident
    exact List.forall_mem_cons.mpr ⟨isIdentChar_of_isIdentStart ident.1, ident.2⟩

theorem isLineBreak_of_isIdentChar (inside : isIdentChar c = true) :
    Text.isLineBreak c = false := by
  have place := toNat_of_isIdentChar inside
  simp only [Text.isLineBreak, Bool.or_eq_false_iff, Bool.and_eq_false_iff, decide_eq_false_iff_not,
    beq_eq_false_iff_ne]
  omega

theorem unbroken_of_isIdentChar (inside : ∀ c ∈ text.toList, isIdentChar c = true) :
    Text.Unbroken text :=
  fun c member => isLineBreak_of_isIdentChar (inside c member)

theorem isIdentChar_of_mem_toString {index : Nat} :
    ∀ c ∈ (toString index).toList, isIdentChar c = true := by
  intro c member
  rw [Nat.toString_eq_repr, Nat.toList_repr] at member
  exact isIdentChar_of_isDigit (Nat.isDigit_of_mem_toDigits (by decide) (by decide) member)

theorem IsLabel.unbroken (label : IsLabel text) : Text.Unbroken text := by
  cases label with
  | ident name ident => exact unbroken_of_isIdentChar (isIdentChar_of_isIdent ident)
  | raw name ident =>
    exact Text.unbroken_append.mpr
      ⟨by decide, unbroken_of_isIdentChar (isIdentChar_of_isIdent ident)⟩
  | position index => exact unbroken_of_isIdentChar isIdentChar_of_mem_toString

theorem unbroken_of_mem_bodyWords (known : text ∈ bodyWords) : Text.Unbroken text := by
  revert text
  decide +kernel

theorem Piece.Single.unbroken (single : piece.Single) : Text.Unbroken piece.text := by
  cases piece with
  | word text => exact unbroken_of_mem_bodyWords single
  | name text => exact single.unbroken
  | made field => exact (by decide : Text.Unbroken defaultValue)
  | ignored field => exact (by decide : Text.Unbroken "_")
  | bound side field => exact unbroken_of_isIdentChar (isIdentChar_of_isIdent single)
  | used place =>
    cases place with
    | member side field =>
      have sides : Text.Unbroken (side.name ++ ".") := by cases side <;> decide
      exact Text.unbroken_append.mpr ⟨sides, single.unbroken⟩
    | binding side field => exact unbroken_of_isIdentChar (isIdentChar_of_isIdent single)

end Characters

section Fields

/-- The plain name of a field is its label without the mark. -/
theorem Field.label_eq (field : Field) :
    field.label = field.plainName ∨ field.label = "r#" ++ field.plainName := by
  unfold plainName
  split
  · rename_i name chars
    exact .inr (String.toList_inj.mp (by simp [chars]))
  · exact .inl rfl

/-- A text without marks is its own plain name. -/
theorem Field.plainName_eq_label (inside : ∀ c ∈ field.label.toList, isIdentChar c = true) :
    field.plainName = field.label := by
  unfold plainName
  split
  · rename_i name chars
    rw [chars] at inside
    exact absurd (inside '#' (by simp)) (by decide)
  · rfl

theorem Field.label_position {index : Nat} (key : field.key = .position index) :
    field.label = toString index := by
  rw [label, key]
  rfl

theorem Field.plainName_position {index : Nat} (key : field.key = .position index) :
    field.plainName = toString index := by
  rw [plainName_eq_label, label_position key]
  rw [label_position key]
  exact isIdentChar_of_mem_toString

theorem Field.Keyed.plainName_chars (keyed : field.Keyed) (identifies : field.Identifies) :
    ∀ c ∈ field.plainName.toList, isIdentChar c = true := by
  rcases keyed with named | position
  · exact isIdentChar_of_isIdent (identifies named)
  · obtain ⟨index, key⟩ := position
    rw [plainName_position key]
    exact isIdentChar_of_mem_toString

theorem Field.Keyed.isLabel (keyed : field.Keyed) (identifies : field.Identifies) :
    IsLabel field.label ∧ IsLabel field.plainName := by
  rcases keyed with named | position
  · have ident := identifies named
    refine ⟨?_, .ident _ ident⟩
    rcases field.label_eq with plain | raw
    · rw [plain]
      exact .ident _ ident
    · rw [raw]
      exact .raw _ ident
  · obtain ⟨index, key⟩ := position
    rw [label_position key, plainName_position key]
    exact ⟨.position index, .position index⟩

theorem Field.Keyed.isIdent_binding (keyed : field.Keyed) (identifies : field.Identifies)
    (side : Side) : isIdent (Place.binding side field).text.toList = true := by
  have rest : field.plainName.toList.all isIdentChar = true :=
    List.all_eq_true.mpr (keyed.plainName_chars identifies)
  cases side with
  | self => simp +decide [Place.text, Side.name, isIdent, rest]
  | other => simp +decide [Place.text, Side.name, isIdent, rest]

/-- Every piece that is written for the field fills one gap. -/
theorem Field.Keyed.single (keyed : field.Keyed) (identifies : field.Identifies) :
    field.Each Piece.Single := by
  obtain ⟨label, plainName⟩ := keyed.isLabel identifies
  constructor
  case label => exact label
  case plainName => exact plainName
  case made => trivial
  case member => exact fun _ => label
  case binding => exact keyed.isIdent_binding identifies
  case bound => exact keyed.isIdent_binding identifies
  case ignored => trivial

theorem KeyedByPosition.keyed (keyed : KeyedByPosition fields) : ∀ field ∈ fields, field.Keyed := by
  have keys : ∀ key ∈ fields.map (·.key), ∃ index : Nat, key = .position index := by
    rw [keyed]
    simp
  exact fun field member => .inr (keys _ (List.mem_map_of_mem member))

theorem KeyedByName.keyed (keyed : KeyedByName fields) : ∀ field ∈ fields, field.Keyed :=
  fun field member => .inl (keyed.isNamed field member)

theorem StyleFits.keyed {style : Style} (fits : StyleFits style fields) :
    ∀ field ∈ fields, field.Keyed := by
  cases style with
  | unit => simp [fits.unit.mp rfl]
  | tuple => exact (fits.tuple.mp rfl).2.keyed
  | struct => exact (fits.struct.mp rfl).2.keyed

end Fields

theorem Definition.Coherent.keyed (coherent : definition.Coherent) :
    ∀ field ∈ definition.shape.fields, field.Keyed := by
  have shape := coherent.shape
  cases found : definition.shape with
  | struct own =>
    rw [found] at shape
    exact KeyedByName.keyed shape
  | tuple own =>
    rw [found] at shape
    exact shape.2.keyed
  | enum own =>
    rw [found] at shape
    intro field member
    obtain ⟨variant, present, inside⟩ := List.mem_flatMap.mp member
    exact (shape.2 variant present).style.keyed field inside

theorem Definition.Coherent.variant_names (coherent : definition.Coherent) :
    ∀ variant ∈ definition.shape.variants, isIdent variant.name.toList = true := by
  have shape := coherent.shape
  cases found : definition.shape with
  | struct own => exact List.forall_mem_nil _
  | tuple own => exact List.forall_mem_nil _
  | enum own =>
    rw [found] at shape
    exact fun variant member => (shape.2 variant member).name

theorem Definition.Identifies.single (identifies : definition.Identifies)
    (coherent : definition.Coherent) : definition.shape.Each Piece.Single :=
  Shape.each_iff.mpr
    ⟨fun variant member => .ident _ (identifies.variants variant member),
      fun field member => (coherent.keyed field member).single (identifies.fields field member)⟩

theorem Definition.Coherent.identifies_iff (coherent : definition.Coherent) :
    definition.Identifies ↔ ∀ field ∈ definition.shape.fields, field.Identifies := by
  refine ⟨Identifies.fields, fun fields => ?_⟩
  constructor
  case name => exact coherent.name
  case params => exact fun param member => (coherent.params param member).name
  case variants => exact coherent.variant_names
  case fields => exact fields

/-- What names have to do with the lines of a body. Whatever they are, they only fill gaps between
words that the outline of the shape settles; single identifiers fill them without a line break. -/
structure Definition.Splices (definition : Definition) (capability : Capability)
    (lines : List Line) : Prop where
  outlined : ∀ other : Definition, other.shape.outline = definition.shape.outline →
    ∃ others, bodyLines other capability = .ok others ∧
      others.map Line.outline = lines.map Line.outline
  readable : Text.lines (Text.join "\n" (textsOf lines)) = textsOf lines ↔
    EachPiece (fun piece => Text.Unbroken piece.text) lines
  unbroken : definition.Identifies → EachPiece (fun piece => Text.Unbroken piece.text) lines
  single : definition.Identifies → EachPiece Piece.Single lines

theorem Definition.Splices.of_coherent (coherent : definition.Coherent)
    (derivable : bodyLines definition capability = .ok lines) :
    definition.Splices capability lines := by
  have single (identifies : definition.Identifies) : EachPiece Piece.Single lines :=
    each_bodyLines (fun _ known => known) (.ident _ coherent.name)
      (identifies.single coherent) derivable
  constructor
  case outlined => exact fun _ same => exists_bodyLines_of_outline_eq derivable same
  case readable => exact lines_body_iff derivable
  case single => exact single
  case unbroken =>
    exact fun identifies line member piece present =>
      (single identifies line member piece present).unbroken

/-- The names of a classified definition are single identifiers exactly when those of its fields
are. Names only fill gaps in the lines of a body, so where they are single identifiers, bodies of
shapes with one outline have the same number of lines. -/
theorem Definition.splices_names (classified : classify element = .ok definition) :
    (definition.Identifies ↔ ∀ field ∈ definition.shape.fields, field.Identifies) ∧
      ∀ capability lines, bodyLines definition capability = .ok lines →
        definition.Splices capability lines ∧
          ∀ source other others, classify source = .ok other →
            other.shape.outline = definition.shape.outline →
            bodyLines other capability = .ok others →
            definition.Identifies → other.Identifies →
              (Text.lines (Text.join "\n" (textsOf others))).length =
                (Text.lines (Text.join "\n" (textsOf lines))).length := by
  have coherent := (Classified.of_classify classified).coherent
  refine ⟨coherent.identifies_iff, fun capability lines derivable => ?_⟩
  have splices := Splices.of_coherent coherent derivable
  refine ⟨splices, fun source other others read same derived identifies also => ?_⟩
  have its := Splices.of_coherent (Classified.of_classify read).coherent derived
  obtain ⟨found, again, outlines⟩ := splices.outlined other same
  obtain rfl := Except.ok.inj (derived.symm.trans again)
  have counted : others.length = lines.length := by
    simpa using congrArg List.length outlines
  rw [its.readable.mpr (its.unbroken also), splices.readable.mpr (splices.unbroken identifies),
    textsOf, textsOf, List.length_map, List.length_map, counted]

/-- A struct with one member of the given name. -/
private def labelledElement (name : String) : Xml.Element :=
  let leaf (tag text : String) : Xml.Element := ⟨tag, [], some text, []⟩
  ⟨"type", [("name", "Pair"), ("category", "struct")], none, [
    ⟨"member", [], none, [leaf "name" name, leaf "type" "u8"]⟩]⟩

private def labelledDefinition (name : String) : Definition :=
  ⟨"Pair", [], .struct [⟨.named name, .path false [.mk "u8" []], false, []⟩], [], []⟩

private def labelledBody (name : String) : List Line :=
  let field : Field := ⟨.named name, .path false [.mk "u8" []], false, []⟩
  functionBlock "fn default() -> Self" (structBlock [field] fun field => [.made field])

private theorem classify_labelled : classify (labelledElement "r#type") =
    .ok (labelledDefinition "r#type") := by cbv

private theorem classify_plain : classify (labelledElement " left ") =
    .ok (labelledDefinition "left") := by cbv

theorem Definition.splices_names_sample :
    classify (labelledElement "r#type") = .ok (labelledDefinition "r#type") ∧
      classify (labelledElement " left ") = .ok (labelledDefinition "left") ∧
      (labelledDefinition "r#type").Identifies ∧ (labelledDefinition "left").Identifies ∧
      (labelledDefinition "left").shape.outline = (labelledDefinition "r#type").shape.outline ∧
      (Text.lines (Text.join "\n" (textsOf (labelledBody "left")))).length =
        (Text.lines (Text.join "\n" (textsOf (labelledBody "r#type")))).length := by
  obtain ⟨raw, bodies⟩ := splices_names classify_labelled
  obtain ⟨plain, _⟩ := splices_names classify_plain
  have rawNames : (labelledDefinition "r#type").Identifies := by
    refine raw.mpr ?_
    simp +decide [labelledDefinition, Shape.fields, Field.Identifies]
  have plainNames : (labelledDefinition "left").Identifies := by
    refine plain.mpr ?_
    simp +decide [labelledDefinition, Shape.fields, Field.Identifies]
  obtain ⟨_, counted⟩ := bodies .default (labelledBody "r#type") rfl
  exact ⟨classify_labelled, classify_plain, rawNames, plainNames, rfl,
    counted _ _ (labelledBody "left") classify_plain rfl rfl rawNames plainNames⟩

/-- A name that is no identifier is taken, and brings a line and a field of its own. -/
theorem Definition.splices_text :
    classify (labelledElement "left: (),\n    right") =
        .ok (labelledDefinition "left: (),\n    right") ∧
      ¬ (labelledDefinition "left: (),\n    right").Identifies ∧
      bodyLines (labelledDefinition "left: (),\n    right") .default =
        .ok (labelledBody "left: (),\n    right") ∧
      (labelledBody "left: (),\n    right").length = 5 ∧
      Text.lines (Text.join "\n" (textsOf (labelledBody "left: (),\n    right"))) = [
        "fn default() -> Self \x7b",
        "    Self \x7b",
        "        left: (),",
        "    right: ::core::default::Default::default(),",
        "    \x7d",
        "\x7d"] := by
  refine ⟨by cbv, ?_, rfl, rfl, by cbv⟩
  intro identifies
  have own := identifies.fields _ (List.mem_singleton_self _) rfl
  exact absurd own (by decide)

end DeriveBounds
