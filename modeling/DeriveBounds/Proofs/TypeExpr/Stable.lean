import Mathlib
import DeriveBounds.Proofs.TypeExpr.Canonical

/-!
Which types that were read keep their meaning when they are written and read again. What is read is
a proper tree, and its canonical tokens are the fewest that denote it, by two more for every `mut`
that only its parentheses kept from being taken for a mark.
-/
namespace DeriveBounds

theorem SegmentsForm.head? (form : SegmentsForm tokens names) :
    ∃ name rest, names = name :: rest ∧ tokens.head? = some (.ident name.name) := by
  cases form with
  | last segment => cases segment <;> exact ⟨_, _, rfl, rfl⟩
  | more first others => cases first <;> exact ⟨_, _, rfl, rfl⟩

theorem LengthForm.proper (form : LengthForm tokens size)
    (formed : ∀ token ∈ tokens, token.isFormed = true) :
    ∀ text, size = some text → RawText .closeBracket text := by
  intro text same
  subst same
  cases form with
  | present run filled => exact ⟨_, filled, (List.forall_mem_cons.mp formed).2, run, rfl⟩

mutual

theorem TypeForm.proper (form : TypeForm tokens type)
    (formed : ∀ token ∈ tokens, token.isFormed = true) : TypeExpr.Proper type := by
  match form with
  | .reference inner unmarked =>
    simp only [List.forall_mem_cons, List.forall_mem_append] at formed
    obtain ⟨_, lifetimeFormed, _, innerFormed⟩ := formed
    refine .reference (fun name same => ?_) (inner.proper innerFormed)
    subst same
    exact lifetimeFormed _ List.mem_cons_self
  | .pointer inner =>
    simp only [List.forall_mem_cons] at formed
    exact .pointer (inner.proper formed.2.2)
  | .group inner =>
    simp only [List.forall_mem_cons, List.forall_mem_append] at formed
    exact inner.proper formed.2.1
  | .tuple elements notGroup =>
    simp only [List.forall_mem_cons, List.forall_mem_append] at formed
    exact .tuple (elements.proper formed.2.1)
  | .array element length =>
    simp only [List.forall_mem_cons, List.forall_mem_append] at formed
    exact .array (element.proper formed.2.1) (length.proper formed.2.2.1)
  | .qualified self trait segments =>
    simp only [List.forall_mem_cons, List.forall_mem_append] at formed
    obtain ⟨_, selfFormed, traitFormed, _, _, segmentsFormed⟩ := formed
    obtain ⟨filled, each⟩ := segments.proper segmentsFormed
    exact .qualified (self.proper selfFormed) (trait.proper traitFormed) filled each
  | .function params output =>
    simp only [List.forall_mem_cons, List.forall_mem_append] at formed
    obtain ⟨_, _, paramsFormed, _, outputFormed⟩ := formed
    exact .function (params.proper paramsFormed) (output.proper outputFormed)
  | .path (.relative segments) plain =>
    obtain ⟨filled, each⟩ := segments.proper formed
    obtain ⟨name, rest, same, head⟩ := segments.head?
    apply TypeExpr.Proper.path (.path filled each)
    intro _ segment first
    subst same
    cases first
    exact plain name.name head
  | .path (.absolute segments) plain =>
    obtain ⟨filled, each⟩ := segments.proper (List.forall_mem_cons.mp formed).2
    exact .path (.path filled each) (by simp)

theorem TypesForm.proper (form : TypesForm tokens types trailing)
    (formed : ∀ token ∈ tokens, token.isFormed = true) : ∀ type ∈ types, TypeExpr.Proper type := by
  match form with
  | .none => simp
  | .last type => simpa using type.proper formed
  | .comma first others =>
    simp only [List.forall_mem_cons, List.forall_mem_append] at formed
    exact List.forall_mem_cons.mpr ⟨first.proper formed.1, others.proper formed.2.2⟩

theorem TraitForm.proper (form : TraitForm tokens named)
    (formed : ∀ token ∈ tokens, token.isFormed = true) :
    ∀ path, named = some path → TypeExpr.ProperPath path := by
  match form with
  | .absent => simp
  | .present path =>
    intro _ same
    cases same
    exact path.proper (List.forall_mem_cons.mp formed).2

theorem OutputForm.proper (form : OutputForm tokens result)
    (formed : ∀ token ∈ tokens, token.isFormed = true) :
    ∀ type, result = some type → TypeExpr.Proper type := by
  match form with
  | .absent => simp
  | .present type =>
    intro _ same
    cases same
    exact type.proper (List.forall_mem_cons.mp formed).2

theorem PathForm.proper (form : PathForm tokens type)
    (formed : ∀ token ∈ tokens, token.isFormed = true) : TypeExpr.ProperPath type := by
  match form with
  | .relative segments =>
    obtain ⟨filled, each⟩ := segments.proper formed
    exact .path filled each
  | .absolute segments =>
    obtain ⟨filled, each⟩ := segments.proper (List.forall_mem_cons.mp formed).2
    exact .path filled each

theorem SegmentsForm.proper (form : SegmentsForm tokens names)
    (formed : ∀ token ∈ tokens, token.isFormed = true) :
    names ≠ [] ∧ ∀ name ∈ names, Segment.Proper name := by
  match form with
  | .last segment => exact ⟨by simp, by simpa using segment.proper formed⟩
  | .more first others =>
    simp only [List.forall_mem_cons, List.forall_mem_append] at formed
    exact ⟨by simp, List.forall_mem_cons.mpr
      ⟨first.proper formed.1, (others.proper formed.2.2).2⟩⟩

theorem SegmentForm.proper (form : SegmentForm tokens name)
    (formed : ∀ token ∈ tokens, token.isFormed = true) : Segment.Proper name := by
  match form with
  | .plain => exact .mk (by simpa [Token.isFormed] using formed) (by simp)
  | .generic args =>
    simp only [List.forall_mem_cons, List.forall_mem_append] at formed
    exact .mk formed.1 (args.proper formed.2.2.1)

theorem ArgsForm.proper (form : ArgsForm tokens types)
    (formed : ∀ token ∈ tokens, token.isFormed = true) :
    ∀ type ∈ types, TypeExpr.ProperArg type := by
  match form with
  | .none => simp
  | .last arg => simpa using arg.proper formed
  | .comma first others =>
    simp only [List.forall_mem_cons, List.forall_mem_append] at formed
    exact List.forall_mem_cons.mpr ⟨first.proper formed.1, others.proper formed.2.2⟩

theorem ArgForm.proper (form : ArgForm tokens type)
    (formed : ∀ token ∈ tokens, token.isFormed = true) : TypeExpr.ProperArg type := by
  match form with
  | .lifetime => exact .lifetime (by simpa using formed)
  | .number => exact .const (.number (by simpa using formed))
  | .negative =>
    simp only [List.forall_mem_cons] at formed
    exact .const (.negative formed.2.1)
  | .block run filled =>
    simp only [List.forall_mem_cons, List.forall_mem_append] at formed
    exact .const (.block ⟨_, filled, formed.2.1, run, rfl⟩)
  | .type type => exact .type (type.proper formed)

end

theorem length_joinTokens_cons (mark : Punct) (part : List Token) (rest : List (List Token)) :
    (joinTokens mark (part :: rest)).length =
      part.length + (if rest.isEmpty then 0 else 1 + (joinTokens mark rest).length) := by
  cases rest with
  | nil => rfl
  | cons next rest =>
    simp only [joinTokens, List.length_append, List.length_cons, List.isEmpty_cons,
      Bool.false_eq_true, ↓reduceIte]
    omega

theorem LengthForm.lengthTokens (form : LengthForm tokens size)
    (formed : ∀ token ∈ tokens, token.isFormed = true) : lengthTokens size = tokens := by
  cases form with
  | absent => rfl
  | present run filled =>
    rw [DeriveBounds.lengthTokens, textTokens_runText (List.forall_mem_cons.mp formed).2]

/-- The tokens that parentheses add around a path that would begin with `mut`. -/
def guardLength (type : TypeExpr) (tokens : List Token) : Nat :=
  if type.beginsWithMut = true ∧ tokens.head? ≠ some (.ident "mut") then 2 else 0

theorem guardLength_eq_zero (bare : type.beginsWithMut = false) : guardLength type tokens = 0 := by
  simp [guardLength, bare]

/-- A path that begins with `mut` has nothing around it. -/
theorem SegmentsForm.guardLength (form : SegmentsForm tokens names) :
    guardLength (.path false names) tokens = 0 := by
  apply if_neg
  intro parts
  obtain ⟨begins, head⟩ := parts
  obtain ⟨name, rest, same, first⟩ := form.head?
  subst same
  simp only [TypeExpr.beginsWithMut, decide_eq_true_eq] at begins
  exact head (begins ▸ first)

theorem guardLength_le (type : TypeExpr) (tokens : List Token) : guardLength type tokens ≤ 2 := by
  unfold guardLength
  split <;> omega

mutual

theorem TypeForm.shortest (form : TypeForm tokens type)
    (formed : ∀ token ∈ tokens, token.isFormed = true) :
    type.tokens.length + 2 * type.hiddenMuts + guardLength type tokens ≤ tokens.length := by
  match form with
  | @TypeForm.reference tokens type mutable lifetime inner unmarked =>
    simp only [List.forall_mem_cons, List.forall_mem_append] at formed
    have innerBound := inner.shortest formed.2.2.2
    rw [guardLength_eq_zero rfl]
    simp only [TypeExpr.tokens, TypeExpr.hiddenMuts, List.length_cons, List.length_append]
    -- parentheses are what keeps a `mut` of the inner type from the mark
    have hidden :
        2 * (if !mutable && type.beginsWithMut then 1 else 0) ≤ guardLength type tokens := by
      split
      · rename_i shared
        simp only [Bool.and_eq_true, Bool.not_eq_true'] at shared
        simp [guardLength, shared.2, unmarked shared.1]
      · omega
    omega
  | .pointer inner =>
    simp only [List.forall_mem_cons] at formed
    have innerBound := inner.shortest formed.2.2
    rw [guardLength_eq_zero rfl]
    simp only [TypeExpr.tokens, TypeExpr.hiddenMuts, List.length_cons]
    omega
  | @TypeForm.group tokens type inner =>
    simp only [List.forall_mem_cons, List.forall_mem_append] at formed
    have innerBound := inner.shortest formed.2.1
    have guardBound := guardLength_le type (.punct .openParen :: (tokens ++ [.punct .closeParen]))
    simp only [List.length_cons, List.length_append, List.length_nil]
    omega
  | @TypeForm.tuple tokens types trailing elements notGroup =>
    simp only [List.forall_mem_cons, List.forall_mem_append] at formed
    have inside := elements.shortest formed.2.1
    rw [guardLength_eq_zero rfl]
    simp only [TypeExpr.hiddenMuts, List.length_cons, List.length_append, List.length_nil]
    match types with
    | [] =>
      simp only [TypeExpr.tokens, List.length_append, List.length_cons, List.length_nil]
      omega
    | [element] =>
      have single : joinTokens .comma (typesTokens [element]) = element.tokens := rfl
      rw [single, notGroup rfl, Bool.toNat_true] at inside
      simp only [TypeExpr.tokens, List.length_append, List.length_cons, List.length_nil]
      omega
    | first :: second :: rest =>
      simp only [TypeExpr.tokens, List.length_append, List.length_cons, List.length_nil]
      omega
  | .array element length =>
    simp only [List.forall_mem_cons, List.forall_mem_append] at formed
    have elementBound := element.shortest formed.2.1
    rw [guardLength_eq_zero rfl]
    simp only [TypeExpr.tokens, TypeExpr.hiddenMuts, length.lengthTokens formed.2.2.1,
      List.length_cons, List.length_append]
    omega
  | .qualified self trait segments =>
    simp only [List.forall_mem_cons, List.forall_mem_append] at formed
    obtain ⟨_, selfFormed, traitFormed, _, _, segmentsFormed⟩ := formed
    have selfBound := self.shortest selfFormed
    have traitBound := trait.shortest traitFormed
    have segmentsBound := segments.shortest segmentsFormed
    rw [guardLength_eq_zero rfl]
    simp only [TypeExpr.tokens, TypeExpr.hiddenMuts, List.length_cons, List.length_append]
    omega
  | .function params output =>
    simp only [List.forall_mem_cons, List.forall_mem_append] at formed
    obtain ⟨_, _, paramsFormed, _, outputFormed⟩ := formed
    have paramsBound := params.shortest paramsFormed
    have outputBound := output.shortest outputFormed
    rw [guardLength_eq_zero rfl]
    simp only [TypeExpr.tokens, TypeExpr.hiddenMuts, List.length_cons, List.length_append]
    omega
  | .path (.relative segments) plain =>
    have segmentsBound := segments.shortest formed
    rw [segments.guardLength]
    exact segmentsBound
  | .path (.absolute segments) plain =>
    have segmentsBound := segments.shortest (List.forall_mem_cons.mp formed).2
    rw [guardLength_eq_zero rfl]
    simp only [TypeExpr.tokens, TypeExpr.hiddenMuts, ↓reduceIte, List.singleton_append,
      List.length_cons]
    omega

theorem TypesForm.shortest (form : TypesForm tokens types trailing)
    (formed : ∀ token ∈ tokens, token.isFormed = true) :
    (joinTokens .comma (typesTokens types)).length + 2 * hiddenInTypes types + trailing.toNat ≤
      tokens.length := by
  match form with
  | .none => simp [typesTokens, joinTokens, hiddenInTypes]
  | .last type =>
    have typeBound := type.shortest formed
    simp only [typesTokens, joinTokens, hiddenInTypes, Bool.toNat_false]
    omega
  | @TypesForm.comma tokens type rest types trailing first others =>
    simp only [List.forall_mem_cons, List.forall_mem_append] at formed
    have firstBound := first.shortest formed.1
    have othersBound := others.shortest formed.2.2
    simp only [typesTokens, length_joinTokens_cons, hiddenInTypes, List.length_append,
      List.length_cons]
    cases types with
    | nil =>
      simp only [typesTokens, hiddenInTypes, List.isEmpty_nil, Bool.true_or, Bool.toNat_true,
        ↓reduceIte]
      omega
    | cons next others =>
      simp only [typesTokens, List.isEmpty_cons, Bool.false_or, Bool.false_eq_true, ↓reduceIte] at *
      omega

theorem TraitForm.shortest (form : TraitForm tokens named)
    (formed : ∀ token ∈ tokens, token.isFormed = true) :
    (traitTokens named).length + 2 * hiddenInOption named ≤ tokens.length := by
  match form with
  | .absent => simp [traitTokens, hiddenInOption]
  | .present path =>
    have pathBound := path.shortest (List.forall_mem_cons.mp formed).2
    simp only [traitTokens, hiddenInOption, List.length_cons]
    omega

theorem OutputForm.shortest (form : OutputForm tokens result)
    (formed : ∀ token ∈ tokens, token.isFormed = true) :
    (outputTokens result).length + 2 * hiddenInOption result ≤ tokens.length := by
  match form with
  | .absent => simp [outputTokens, hiddenInOption]
  | .present type =>
    have typeBound := type.shortest (List.forall_mem_cons.mp formed).2
    simp only [outputTokens, hiddenInOption, List.length_cons]
    omega

theorem PathForm.shortest (form : PathForm tokens type)
    (formed : ∀ token ∈ tokens, token.isFormed = true) :
    type.tokens.length + 2 * type.hiddenMuts ≤ tokens.length := by
  match form with
  | .relative segments => exact segments.shortest formed
  | .absolute segments =>
    have segmentsBound := segments.shortest (List.forall_mem_cons.mp formed).2
    simp only [TypeExpr.tokens, TypeExpr.hiddenMuts, ↓reduceIte, List.singleton_append,
      List.length_cons]
    omega

theorem SegmentsForm.shortest (form : SegmentsForm tokens names)
    (formed : ∀ token ∈ tokens, token.isFormed = true) :
    (joinTokens .pathSep (segmentsTokens names)).length + 2 * hiddenInSegments names ≤
      tokens.length := by
  match form with
  | .last segment =>
    have segmentBound := segment.shortest formed
    simp only [segmentsTokens, joinTokens, hiddenInSegments]
    omega
  | @SegmentsForm.more tokens name rest names first others =>
    simp only [List.forall_mem_cons, List.forall_mem_append] at formed
    have firstBound := first.shortest formed.1
    have othersBound := others.shortest formed.2.2
    simp only [segmentsTokens, length_joinTokens_cons, hiddenInSegments, List.length_append,
      List.length_cons]
    split <;> omega

theorem SegmentForm.shortest (form : SegmentForm tokens name)
    (formed : ∀ token ∈ tokens, token.isFormed = true) :
    name.tokens.length + 2 * name.hiddenMuts ≤ tokens.length := by
  match form with
  | .plain => simp [Segment.tokens, Segment.hiddenMuts, hiddenInTypes]
  | @SegmentForm.generic tokens types name args =>
    simp only [List.forall_mem_cons, List.forall_mem_append] at formed
    have argsBound := args.shortest formed.2.2.1
    simp only [Segment.hiddenMuts, List.length_cons, List.length_append]
    cases types with
    | nil =>
      simp only [Segment.tokens, hiddenInTypes, List.length_cons, List.length_nil]
      omega
    | cons first others =>
      simp only [Segment.tokens, List.length_cons, List.length_append]
      omega

theorem ArgsForm.shortest (form : ArgsForm tokens types)
    (formed : ∀ token ∈ tokens, token.isFormed = true) :
    (joinTokens .comma (typesTokens types)).length + 2 * hiddenInTypes types ≤ tokens.length := by
  match form with
  | .none => simp [typesTokens, joinTokens, hiddenInTypes]
  | .last arg =>
    have argBound := arg.shortest formed
    simp only [typesTokens, joinTokens, hiddenInTypes]
    omega
  | .comma first others =>
    simp only [List.forall_mem_cons, List.forall_mem_append] at formed
    have firstBound := first.shortest formed.1
    have othersBound := others.shortest formed.2.2
    simp only [typesTokens, length_joinTokens_cons, hiddenInTypes, List.length_append,
      List.length_cons]
    split <;> omega

theorem ArgForm.shortest (form : ArgForm tokens type)
    (formed : ∀ token ∈ tokens, token.isFormed = true) :
    type.tokens.length + 2 * type.hiddenMuts ≤ tokens.length := by
  match form with
  | .lifetime => simp [TypeExpr.tokens, TypeExpr.hiddenMuts]
  | .number =>
    have formed := List.forall_mem_singleton.mp formed
    simp [TypeExpr.tokens, TypeExpr.hiddenMuts, (prints_number formed).textTokens]
  | .negative =>
    simp only [List.forall_mem_cons] at formed
    simp [TypeExpr.tokens, TypeExpr.hiddenMuts, (prints_negative formed.2.1).textTokens]
  | .block run filled =>
    simp only [List.forall_mem_cons, List.forall_mem_append] at formed
    simp [TypeExpr.tokens, TypeExpr.hiddenMuts, (prints_block formed.2.1).textTokens]
  | .type type =>
    have typeBound := type.shortest formed
    omega

end

/-- A type that was read is rendered, and reading the rendering gives it again exactly when none of
its shared references hides a `mut`. -/
theorem parseType_render_iff (parsed : parseType text = .ok type) :
    ∃ rendered, type.render = .ok rendered ∧
      (parseType rendered = .ok type ↔ type.hiddenMuts = 0) := by
  obtain ⟨tokens, tokenized, reads⟩ := parseType_eq_ok_iff_reads.mp parsed
  have formed := (tokenize_eq_ok_iff.mp tokenized).formed
  have proper := (reads_whole_iff.mp reads).proper formed
  refine ⟨type.text, proper.render, ?_⟩
  rw [proper.parseType_text_iff]
  constructor
  · intro form
    have shortest := form.shortest proper.prints.spells.formed
    omega
  · exact proper.form

private def borrowedTree : TypeExpr :=
  .reference (some "'a") true (.path false [.mk "T" []])

theorem parseType_render_iff_sample : parseType "&'a mut (T)" = .ok borrowedTree ∧
    ∃ rendered, borrowedTree.render = .ok rendered ∧
      (parseType rendered = .ok borrowedTree ↔ borrowedTree.hiddenMuts = 0) := by
  have parsed : parseType "&'a mut (T)" = .ok borrowedTree := by cbv
  exact ⟨parsed, parseType_render_iff parsed⟩

private def hiddenTree : TypeExpr :=
  .reference none false (.path false [.mk "mut" [], .mk "T" []])

/-- The rendering drops the parentheses, and the word behind `&` is taken for the mark. -/
theorem parseType_render_hidden : parseType "&(mut::T)" = .ok hiddenTree ∧
    hiddenTree.render = .ok "&mut::T" ∧
    parseType "&mut::T" = .ok (.reference none true (.path true [.mk "T" []])) ∧
    parseType "&mut::T" ≠ .ok hiddenTree := by
  have parsed : parseType "&mut::T" = .ok (.reference none true (.path true [.mk "T" []])) := by
    cbv
  refine ⟨by cbv, by cbv, parsed, ?_⟩
  rw [parsed]
  intro same
  cases same

end DeriveBounds
