import DeriveBounds.Proofs.TypeExpr.Printing
import DeriveBounds.Proofs.TypeExpr.Recognition

/-!
The canonical text of a well-formed tree is read back: the tokens it spells are a form of the tree.
-/
namespace DeriveBounds

theorem typesForm_typesTokens (each : ∀ type ∈ types, TypeForm type.tokens type) :
    TypesForm (joinTokens .comma (typesTokens types)) types false := by
  induction types with
  | nil => exact .none
  | cons type others ih =>
    obtain ⟨first, each⟩ := List.forall_mem_cons.mp each
    cases others with
    | nil => exact .last first
    | cons next rest => exact .comma first (ih each)

theorem argsForm_typesTokens (each : ∀ type ∈ types, ArgForm type.tokens type) :
    ArgsForm (joinTokens .comma (typesTokens types)) types := by
  induction types with
  | nil => exact .none
  | cons type others ih =>
    obtain ⟨first, each⟩ := List.forall_mem_cons.mp each
    cases others with
    | nil => exact .last first
    | cons next rest => exact .comma first (ih each)

theorem segmentsForm_segmentsTokens (filled : segments ≠ [])
    (each : ∀ segment ∈ segments, SegmentForm segment.tokens segment) :
    SegmentsForm (joinTokens .pathSep (segmentsTokens segments)) segments := by
  induction segments with
  | nil => exact absurd rfl filled
  | cons segment others ih =>
    obtain ⟨first, each⟩ := List.forall_mem_cons.mp each
    cases others with
    | nil => exact .last first
    | cons next rest => exact .more first (ih (by simp) each)

theorem traitForm_traitTokens (each : ∀ path, named = some path → PathForm path.tokens path) :
    TraitForm (traitTokens named) named := by
  cases named with
  | none => exact .absent
  | some path => exact .present (each path rfl)

theorem outputForm_outputTokens (each : ∀ type, result = some type → TypeForm type.tokens type) :
    OutputForm (outputTokens result) result := by
  cases result with
  | none => exact .absent
  | some type => exact .present (each type rfl)

theorem lengthForm_lengthTokens (each : ∀ text, size = some text → RawText .closeBracket text) :
    LengthForm (lengthTokens size) size := by
  cases size with
  | none => exact .absent
  | some text =>
    obtain ⟨run, filled, formed, form, same⟩ := each text rfl
    subst same
    rw [lengthTokens, textTokens_runText formed]
    exact .present form filled

theorem ConstText.form (const : ConstText text) : ArgForm (textTokens text) (.const text) := by
  cases const with
  | number formed =>
    rw [(prints_number formed).textTokens]
    exact .number
  | negative formed =>
    rw [(prints_negative formed).textTokens]
    exact .negative
  | block raw =>
    obtain ⟨run, filled, formed, form, same⟩ := raw
    subst same
    rw [(prints_block formed).textTokens]
    exact .block form filled

theorem head?_segmentsTokens (segment : Segment) (rest : List Segment) :
    (joinTokens .pathSep (segmentsTokens (segment :: rest))).head? =
      some (.ident segment.name) := by
  obtain ⟨name, types⟩ := segment
  cases types <;> cases rest <;> rfl

/-- Only a path of its own begins with a word other than `fn`. -/
theorem path_of_head? (proper : TypeExpr.Proper type)
    (head : type.tokens.head? = some (.ident word)) (notFn : word ≠ "fn") :
    ∃ segment rest, type = .path false (segment :: rest) ∧ segment.name = word := by
  cases proper with
  | @path leadingColon names path plain =>
    obtain ⟨filled, segments⟩ := path
    obtain ⟨segment, rest, same⟩ := List.exists_cons_of_ne_nil filled
    subst same
    cases leadingColon with
    | false =>
      have first := (head?_segmentsTokens segment rest).symm.trans head
      cases first
      exact ⟨segment, rest, rfl, rfl⟩
    | true => cases head
  | @tuple types elements =>
    match types with
    | [] => cases head
    | [element] => cases head
    | first :: second :: rest => cases head
  | function params output =>
    simp only [TypeExpr.tokens, List.head?_cons, Option.some.injEq, Token.ident.injEq] at head
    exact absurd head.symm notFn
  | _ => cases head

mutual

theorem TypeExpr.Proper.form (proper : TypeExpr.Proper type) (bare : type.hiddenMuts = 0) :
    TypeForm type.tokens type := by
  match proper with
  | @TypeExpr.Proper.path leadingColon names path plain =>
    apply TypeForm.path (path.form bare)
    intro word head
    obtain ⟨filled, segments⟩ := path
    obtain ⟨segment, rest, same⟩ := List.exists_cons_of_ne_nil filled
    subst same
    cases leadingColon with
    | false =>
      have first := (head?_segmentsTokens segment rest).symm.trans head
      cases first
      exact plain rfl segment rfl
    | true => cases head
  | .qualified self trait filled segments =>
    simp only [TypeExpr.hiddenMuts, Nat.add_eq_zero_iff] at bare
    obtain ⟨selfBare, traitBare, segmentsBare⟩ := bare
    have each := fun name member =>
      (segments name member).form (hiddenMuts_of_mem_segments segmentsBare member)
    have trait := traitForm_traitTokens fun path same =>
      (trait path same).form (hiddenMuts_of_eq_some traitBare same)
    exact .qualified (self.form selfBare) trait (segmentsForm_segmentsTokens filled each)
  | @TypeExpr.Proper.reference marked type mutable lifetime inner =>
    simp only [TypeExpr.hiddenMuts, Nat.add_eq_zero_iff] at bare
    apply TypeForm.reference (inner.form bare.2)
    intro shared head
    obtain ⟨segment, rest, same, named⟩ := path_of_head? inner head (by decide)
    subst shared same
    simp [TypeExpr.beginsWithMut, named] at bare
  | .pointer inner => exact .pointer (inner.form bare)
  | @TypeExpr.Proper.tuple types elements =>
    have each := fun type member =>
      (elements type member).form (hiddenMuts_of_mem_types bare member)
    match types with
    | [] => exact .tuple .none (by simp)
    | [element] =>
      have single := TypesForm.comma (each element List.mem_cons_self) .none
      have form := TypeForm.tuple single fun _ => rfl
      simpa [TypeExpr.tokens] using form
    | first :: second :: rest => exact .tuple (typesForm_typesTokens each) (by simp)
  | .array element length => exact .array (element.form bare) (lengthForm_lengthTokens length)
  | .function params output =>
    simp only [TypeExpr.hiddenMuts, Nat.add_eq_zero_iff] at bare
    have each := fun type member =>
      (params type member).form (hiddenMuts_of_mem_types bare.1 member)
    have output := outputForm_outputTokens fun type same =>
      (output type same).form (hiddenMuts_of_eq_some bare.2 same)
    exact .function (typesForm_typesTokens each) output

theorem TypeExpr.ProperPath.form (proper : TypeExpr.ProperPath type) (bare : type.hiddenMuts = 0) :
    PathForm type.tokens type := by
  match proper with
  | @TypeExpr.ProperPath.path names leadingColon filled segments =>
    have each := fun name member =>
      (segments name member).form (hiddenMuts_of_mem_segments bare member)
    have form := segmentsForm_segmentsTokens filled each
    cases leadingColon with
    | false => exact .relative form
    | true => exact .absolute form

theorem Segment.Proper.form {segment : Segment} (proper : Segment.Proper segment)
    (bare : segment.hiddenMuts = 0) : SegmentForm segment.tokens segment := by
  match proper with
  | @Segment.Proper.mk types name named args =>
    have each := fun type member => (args type member).form (hiddenMuts_of_mem_types bare member)
    cases types with
    | nil => exact .plain
    | cons first others => exact .generic (argsForm_typesTokens each)

theorem TypeExpr.ProperArg.form (proper : TypeExpr.ProperArg type) (bare : type.hiddenMuts = 0) :
    ArgForm type.tokens type := by
  match proper with
  | .lifetime formed => exact .lifetime
  | .const const => exact const.form
  | .type type => exact .type (type.form bare)

end

theorem foreignInTypes_eq_none (each : ∀ type ∈ types, TypeExpr.foreign? type = none) :
    foreignInTypes types = none := by
  induction types with
  | nil => rfl
  | cons type rest ih =>
    obtain ⟨first, each⟩ := List.forall_mem_cons.mp each
    rw [foreignInTypes, first, ih each]
    rfl

theorem foreignInSegments_eq_none (each : ∀ segment ∈ segments, Segment.foreign? segment = none) :
    foreignInSegments segments = none := by
  induction segments with
  | nil => rfl
  | cons segment rest ih =>
    obtain ⟨first, each⟩ := List.forall_mem_cons.mp each
    rw [foreignInSegments, first, ih each]
    rfl

theorem foreignInOption_eq_none
    (each : ∀ type, option = some type → TypeExpr.foreign? type = none) :
    foreignInOption option = none := by
  cases option with
  | none => rfl
  | some type => exact each type rfl

mutual

/-- All parts of a proper tree stand for types. -/
theorem TypeExpr.Proper.foreign? (proper : TypeExpr.Proper type) : type.foreign? = none := by
  match proper with
  | .path path plain => exact path.foreign?
  | .qualified self trait filled segments =>
    have trait := foreignInOption_eq_none fun path same => (trait path same).foreign?
    have segments := foreignInSegments_eq_none fun name member => (segments name member).foreign?
    rw [TypeExpr.foreign?, self.foreign?, trait, segments]
    rfl
  | .reference lifetime inner => exact inner.foreign?
  | .pointer inner => exact inner.foreign?
  | .tuple elements =>
    exact foreignInTypes_eq_none fun type member => (elements type member).foreign?
  | .array element length => exact element.foreign?
  | .function params output =>
    have params := foreignInTypes_eq_none fun type member => (params type member).foreign?
    have output := foreignInOption_eq_none fun type same => (output type same).foreign?
    rw [TypeExpr.foreign?, params, output]
    rfl

theorem TypeExpr.ProperPath.foreign? (proper : TypeExpr.ProperPath type) :
    type.foreign? = none := by
  match proper with
  | .path filled segments =>
    exact foreignInSegments_eq_none fun name member => (segments name member).foreign?

theorem Segment.Proper.foreign? {segment : Segment} (proper : Segment.Proper segment) :
    segment.foreign? = none := by
  match proper with
  | .mk named args => exact foreignInTypes_eq_none fun type member => (args type member).foreign?

theorem TypeExpr.ProperArg.foreign? (proper : TypeExpr.ProperArg type) :
    type.foreign? = none := by
  match proper with
  | .lifetime formed => rfl
  | .const const => rfl
  | .type type => exact type.foreign?

end

theorem TypeExpr.Proper.render (proper : TypeExpr.Proper type) : type.render = .ok type.text := by
  rw [TypeExpr.render, proper.foreign?]

/-- The canonical text of a proper tree is read as whatever its tokens are a form of. -/
theorem TypeExpr.Proper.parseType_text_iff (proper : TypeExpr.Proper type) :
    parseType type.text = .ok other ↔ TypeForm type.tokens other := by
  have tokenized := tokenize_eq_ok_iff.mpr proper.prints.spells
  rw [parseType_eq_ok_iff_reads, ← reads_whole_iff, tokenized]
  constructor
  · intro parts
    obtain ⟨tokens, same, reads⟩ := parts
    cases same
    exact reads
  · exact fun reads => ⟨_, rfl, reads⟩

/-- A well-formed tree is read back from its rendering. -/
theorem TypeExpr.WellFormed.parseType_render (formed : type.WellFormed) :
    ∃ text, type.render = .ok text ∧ parseType text = .ok type :=
  ⟨type.text, formed.proper.render,
    formed.proper.parseType_text_iff.mpr (formed.proper.form formed.bare)⟩

/-- The shared reference to an array of `Vec` types over a negative constant. -/
private def sampleTree : TypeExpr :=
  .reference (some "'a") false
    (.array (.path false [.mk "Vec" [.const "-3"]]) (some "N + 1"))

private theorem sampleTree_length : RawText .closeBracket "N + 1" := by
  refine ⟨[.ident "N", .punct .plus, .number "1"], by simp, by decide, ?_, rfl⟩
  exact .plain rfl (by simp) (by simp) (.plain rfl (by simp) (by simp)
    (.plain rfl (by simp) (by simp) .done))

theorem TypeExpr.WellFormed.parseType_render_sample : sampleTree.WellFormed ∧
    ∃ text, sampleTree.render = .ok text ∧ parseType text = .ok sampleTree := by
  have argument : ConstText "-3" := @ConstText.negative "3" (by decide)
  have vec : Segment.Proper (.mk "Vec" [.const "-3"]) :=
    .mk (by decide) (by simpa using .const argument)
  have element : TypeExpr.Proper (.path false [.mk "Vec" [.const "-3"]]) :=
    .path (.path (by simp) (by simpa using vec)) (by simp [Segment.name, reservedWords])
  have array : TypeExpr.Proper (.array _ (some "N + 1")) :=
    .array element (by simpa using sampleTree_length)
  have formed : sampleTree.WellFormed := ⟨.reference (by simp; decide) array, rfl⟩
  exact ⟨formed, formed.parseType_render⟩

end DeriveBounds
