import DeriveBounds.Proofs.Token.Spelling
import DeriveBounds.Proofs.TypeExpr.ReaderStep

/-!
The readers recognise the grammar: what they read has a form, and what has a form they read.
-/
namespace DeriveBounds

theorem referenceMarks_split (source : List Token) :
    source = lifetimeMark (referenceMarks source).lifetime ++
      (mutMark (referenceMarks source).mutable ++ (referenceMarks source).rest) := by
  unfold referenceMarks
  split <;> rfl

/-- The rest behind the marks begins with `mut` only when the mark has been taken before it. -/
theorem referenceMarks_unmarked (shared : (referenceMarks source).mutable = false) :
    (referenceMarks source).rest.head? ≠ some (.ident "mut") := by
  unfold referenceMarks at *
  split at shared
  · cases shared
  · rename_i noMut
    intro head
    obtain ⟨after, same⟩ := List.head?_eq_some_iff.mp head
    exact noMut after same
  · cases shared
  · rename_i noMut
    intro head
    obtain ⟨after, same⟩ := List.head?_eq_some_iff.mp head
    exact noMut after same

/-- Types in parentheses are a type, whether one or a tuple. -/
theorem TypesForm.grouped {types : List TypeExpr × Bool}
    (form : TypesForm tokens types.1 types.2) :
    TypeForm (.punct .openParen :: (tokens ++ [.punct .closeParen])) (groupedType types) := by
  obtain ⟨types, trailing⟩ := types
  unfold groupedType
  split
  · rename_i single
    cases single
    cases form with
    | last type => exact .group type
  · rename_i unsingle same
    cases same
    apply TypeForm.tuple form
    intro single
    obtain ⟨element, same⟩ := List.length_eq_one_iff.mp single
    cases trailing with
    | true => rfl
    | false => exact absurd rfl (unsingle element same)

mutual

theorem readType_sound (reads : Reads (readType source) type rest) :
    ∃ tokens, source = tokens ++ rest ∧ TypeForm tokens type := by
  cases reads_readType_iff.mp reads with
  | @reference source type rest inner =>
    have := (referenceMarks source).bound
    obtain ⟨tokens, same, form⟩ := readType_sound inner
    have whole := referenceMarks_split source
    have unmarked : (referenceMarks source).mutable = false →
        tokens.head? ≠ some (.ident "mut") := by
      intro shared head
      apply referenceMarks_unmarked shared
      rw [same, List.head?_append, head]
      rfl
    rw [same] at whole
    exact ⟨.punct .ampersand :: (lifetimeMark _ ++ (mutMark _ ++ tokens)),
      by simpa using whole, .reference form unmarked⟩
  | pointer inner =>
    obtain ⟨tokens, same, form⟩ := readType_sound inner
    subst same
    exact ⟨_, rfl, .pointer form⟩
  | grouped items =>
    obtain ⟨tokens, same, form⟩ := readTypes_sound items
    subst same
    exact ⟨.punct .openParen :: (tokens ++ [.punct .closeParen]), by simp, form.grouped⟩
  | array element length =>
    obtain ⟨tokens, same, form⟩ := readType_sound element
    obtain ⟨after, same', form'⟩ := reads_readLength_iff.mp length
    subst same same'
    exact ⟨.punct .openBracket :: (tokens ++ (after ++ [.punct .closeBracket])), by simp,
      .array form form'⟩
  | qualified self trait segments =>
    have := self.shorter
    have := trait.bound
    obtain ⟨tokens, same, form⟩ := readType_sound self
    obtain ⟨named, same', form'⟩ := readTrait_sound trait
    obtain ⟨after, same'', form''⟩ := readSegments_sound segments
    subst same same' same''
    refine ⟨.punct .less :: (tokens ++ (named ++ .punct .greater :: .punct .pathSep :: after)),
      by simp, .qualified form form' form''⟩
  | absolute segments =>
    obtain ⟨tokens, same, form⟩ := readSegments_sound segments
    subst same
    exact ⟨_, rfl, .path (.absolute form) (by simp)⟩
  | function params output =>
    have := params.shorter
    obtain ⟨tokens, same, form⟩ := readTypes_sound params
    obtain ⟨after, same', form'⟩ := readOutput_sound output
    subst same same'
    exact ⟨.ident "fn" :: .punct .openParen :: (tokens ++ .punct .closeParen :: after), by simp,
      .function form form'⟩
  | @relative name source names rest plain segments =>
    obtain ⟨tokens, same, form⟩ := readSegments_sound segments
    refine ⟨tokens, same, .path (.relative form) fun word head => ?_⟩
    have first := congrArg List.head? same
    rw [List.head?_append, head] at first
    cases first
    exact plain
termination_by (source.length, 3)
decreasing_by
  all_goals subst_vars
  all_goals decreasing_with omega

theorem readTypes_sound {types : List TypeExpr × Bool}
    (reads : Reads (readTypes .closeParen source) types rest) :
    ∃ tokens, source = tokens ++ .punct .closeParen :: rest ∧ TypesForm tokens types.1 types.2 := by
  cases reads_readTypes_iff.mp reads with
  | none => exact ⟨[], rfl, .none⟩
  | last item =>
    obtain ⟨tokens, same, form⟩ := readType_sound item
    exact ⟨tokens, same, .last form⟩
  | comma item others =>
    have := item.shorter
    obtain ⟨tokens, same, form⟩ := readType_sound item
    obtain ⟨after, same', form'⟩ := readTypes_sound others
    subst same same'
    exact ⟨tokens ++ .punct .comma :: after, by simp, .comma form form'⟩
termination_by (source.length, 4)
decreasing_by
  all_goals subst_vars
  all_goals decreasing_with omega

theorem readTrait_sound (finds : Finds (readTrait source) path rest) :
    ∃ tokens, source = tokens ++ rest ∧ TraitForm tokens path := by
  cases finds_readTrait_iff.mp finds with
  | absent => exact ⟨[], rfl, .absent⟩
  | present path =>
    obtain ⟨tokens, same, form⟩ := readPath_sound path
    subst same
    exact ⟨_, rfl, .present form⟩
termination_by (source.length, 3)
decreasing_by
  all_goals subst_vars
  all_goals decreasing_with omega

theorem readOutput_sound (finds : Finds (readOutput source) output rest) :
    ∃ tokens, source = tokens ++ rest ∧ OutputForm tokens output := by
  cases finds_readOutput_iff.mp finds with
  | absent => exact ⟨[], rfl, .absent⟩
  | present type =>
    obtain ⟨tokens, same, form⟩ := readType_sound type
    subst same
    exact ⟨_, rfl, .present form⟩
termination_by (source.length, 3)
decreasing_by
  all_goals subst_vars
  all_goals decreasing_with omega

theorem readPath_sound (reads : Reads (readPath source) type rest) :
    ∃ tokens, source = tokens ++ rest ∧ PathForm tokens type := by
  cases reads_readPath_iff.mp reads with
  | relative segments =>
    obtain ⟨tokens, same, form⟩ := readSegments_sound segments
    exact ⟨tokens, same, .relative form⟩
  | absolute segments =>
    obtain ⟨tokens, same, form⟩ := readSegments_sound segments
    subst same
    exact ⟨_, rfl, .absolute form⟩
termination_by (source.length, 2)
decreasing_by
  all_goals subst_vars
  all_goals decreasing_with omega

theorem readSegments_sound (reads : Reads (readSegments source) names rest) :
    ∃ tokens, source = tokens ++ rest ∧ SegmentsForm tokens names := by
  cases reads_readSegments_iff.mp reads with
  | last segment =>
    obtain ⟨tokens, same, form⟩ := readSegment_sound segment
    exact ⟨tokens, same, .last form⟩
  | more first others =>
    have := first.shorter
    obtain ⟨tokens, same, form⟩ := readSegment_sound first
    obtain ⟨after, same', form'⟩ := readSegments_sound others
    subst same
    exact ⟨tokens ++ .punct .pathSep :: after, by simp [same'], .more form form'⟩
termination_by (source.length, 1)
decreasing_by
  all_goals subst_vars
  all_goals decreasing_with omega

theorem readSegment_sound (reads : Reads (readSegment source) name rest) :
    ∃ tokens, source = tokens ++ rest ∧ SegmentForm tokens name := by
  cases reads_readSegment_iff.mp reads with
  | plain => exact ⟨[.ident _], rfl, .plain⟩
  | generic args =>
    obtain ⟨tokens, same, form⟩ := readArgs_sound args
    subst same
    exact ⟨.ident _ :: .punct .less :: (tokens ++ [.punct .greater]), by simp, .generic form⟩
termination_by (source.length, 0)
decreasing_by
  all_goals subst_vars
  all_goals decreasing_with omega

theorem readArgs_sound (reads : Reads (readArgs source) args rest) :
    ∃ tokens, source = tokens ++ .punct .greater :: rest ∧ ArgsForm tokens args := by
  cases reads_readArgs_iff.mp reads with
  | none => exact ⟨[], rfl, .none⟩
  | last arg =>
    obtain ⟨tokens, same, form⟩ := readArg_sound arg
    exact ⟨tokens, same, .last form⟩
  | comma arg others =>
    have := arg.shorter
    obtain ⟨tokens, same, form⟩ := readArg_sound arg
    obtain ⟨after, same', form'⟩ := readArgs_sound others
    subst same same'
    exact ⟨tokens ++ .punct .comma :: after, by simp, .comma form form'⟩
termination_by (source.length, 5)
decreasing_by
  all_goals subst_vars
  all_goals decreasing_with omega

theorem readArg_sound (reads : Reads (readArg source) type rest) :
    ∃ tokens, source = tokens ++ rest ∧ ArgForm tokens type := by
  cases reads_readArg_iff.mp reads with
  | lifetime => exact ⟨[_], rfl, .lifetime⟩
  | number => exact ⟨[_], rfl, .number⟩
  | negative => exact ⟨[_, _], rfl, .negative⟩
  | block run =>
    obtain ⟨tokens, same, form, filled, text⟩ := (reads_readRunText_iff rfl).mp run
    subst same text
    exact ⟨.punct .openBrace :: (tokens ++ [.punct .closeBrace]), by simp, .block form filled⟩
  | type type =>
    obtain ⟨tokens, same, form⟩ := readType_sound type
    exact ⟨tokens, same, .type form⟩
termination_by (source.length, 4)
decreasing_by
  all_goals subst_vars
  all_goals decreasing_with omega

end

/-- What stands behind a type is not read as a part of it. -/
def Stops (rest : List Token) : Prop :=
  ∀ token, rest.head? = some token → token ∉ [.punct .less, .punct .arrow, .punct .pathSep]

@[simp] theorem stops_cons_iff : Stops (token :: rest) ↔
    token ∉ [.punct .less, .punct .arrow, .punct .pathSep] := by
  simp [Stops]

theorem Stops.head?_ne {rest : List Token} {mark : Punct} (stops : Stops rest)
    (follows : mark ∈ [.less, .arrow, .pathSep]) : rest.head? ≠ some (.punct mark) := by
  intro head
  apply stops _ head
  simpa using follows

theorem referenceMarks_join {source : List Token} {mutable : Bool} (lifetime : Option String)
    (unmarked : mutable = false → source.head? ≠ some (.ident "mut"))
    (typed : ∀ name, source.head? ≠ some (.lifetime name))
    (joined : whole = lifetimeMark lifetime ++ (mutMark mutable ++ source)) :
    (referenceMarks whole).lifetime = lifetime ∧ (referenceMarks whole).mutable = mutable ∧
      (referenceMarks whole).rest = source := by
  subst joined
  cases mutable with
  | true => cases lifetime <;> exact ⟨rfl, rfl, rfl⟩
  | false =>
    have noMut : ∀ after, source = .ident "mut" :: after → False := by
      intro after same
      subst same
      exact unmarked rfl rfl
    cases lifetime with
    | some name =>
      rw [lifetimeMark, mutMark, if_neg Bool.false_ne_true, List.nil_append, List.singleton_append,
        referenceMarks]
      · exact ⟨rfl, rfl, rfl⟩
      · exact noMut
    | none =>
      rw [lifetimeMark, mutMark, if_neg Bool.false_ne_true, List.nil_append, List.nil_append,
        referenceMarks.eq_def]
      split
      · exact absurd rfl (typed _)
      · exact absurd rfl (typed _)
      · exact absurd rfl (unmarked rfl)
      · exact ⟨rfl, rfl, rfl⟩

theorem groupedType_eq_tuple (notGroup : types.length = 1 → trailing = true) :
    groupedType (types, trailing) = .tuple types := by
  unfold groupedType
  split
  · rename_i same
    cases same
    exact absurd (notGroup rfl) (by simp)
  · rename_i same
    cases same
    rfl

mutual

theorem TypeForm.reads (form : TypeForm tokens type) (stops : Stops rest) :
    Reads (readType (tokens ++ rest)) type rest := by
  match form with
  | @TypeForm.reference tokens type mutable lifetime inner unmarked =>
    have read := inner.reads stops
    obtain ⟨token, head, starts⟩ := (reads_readType_iff.mp read).startsType
    have unmarked : mutable = false → (tokens ++ rest).head? ≠ some (.ident "mut") := by
      rw [read.head?_append]
      exact unmarked
    have typed : ∀ name, (tokens ++ rest).head? ≠ some (.lifetime name) := by
      rw [head]
      intro name same
      cases same
      cases starts
    rw [List.cons_append, List.append_assoc, List.append_assoc]
    obtain ⟨sameLifetime, sameMark, sameRest⟩ := referenceMarks_join lifetime unmarked typed rfl
    rw [← sameRest] at read
    have read := TypeRead.reference read
    rw [sameLifetime, sameMark] at read
    exact reads_readType_iff.mpr read
  | .pointer inner => exact reads_readType_iff.mpr (.pointer (inner.reads stops))
  | .group inner =>
    rw [List.cons_append, ← List.append_cons]
    exact reads_readType_iff.mpr
      (.grouped (reads_readTypes_iff.mpr (.last (inner.reads (by simp)))))
  | .tuple elements notGroup =>
    rw [List.cons_append, ← List.append_cons, ← groupedType_eq_tuple notGroup]
    exact reads_readType_iff.mpr (.grouped elements.reads)
  | .array element length =>
    rw [List.cons_append, ← List.append_assoc, ← List.append_cons, List.append_assoc]
    refine reads_readType_iff.mpr (.array (element.reads ?_)
      (reads_readLength_iff.mpr ⟨_, rfl, length⟩))
    cases length <;> simp
  | .qualified self trait segments =>
    rw [List.cons_append, List.append_assoc, List.append_assoc, List.cons_append, List.cons_append]
    refine reads_readType_iff.mpr (.qualified (self.reads ?_) trait.finds (segments.reads stops))
    cases trait <;> simp
  | .function params output =>
    rw [List.cons_append, List.cons_append, List.append_assoc, List.cons_append]
    exact reads_readType_iff.mpr (.function params.reads (output.finds stops))
  | .path (.absolute segments) plain =>
    exact reads_readType_iff.mpr (.absolute (segments.reads stops))
  | .path (.relative segments) plain =>
    have read := segments.reads stops
    obtain ⟨name, head⟩ := head?_of_readSegments read
    obtain ⟨after, same⟩ := List.head?_eq_some_iff.mp head
    have plain := plain name (read.head?_append.symm.trans head)
    rw [same] at read ⊢
    exact reads_readType_iff.mpr (.relative plain read)

theorem TypesForm.reads (form : TypesForm tokens types trailing) :
    Reads (readTypes .closeParen (tokens ++ .punct .closeParen :: rest)) (types, trailing)
      rest := by
  match form with
  | .none => exact reads_readTypes_iff.mpr .none
  | .last type => exact reads_readTypes_iff.mpr (.last (type.reads (by simp)))
  | .comma first others =>
    rw [List.append_assoc, List.cons_append]
    exact reads_readTypes_iff.mpr (.comma (first.reads (by simp)) others.reads)

theorem TraitForm.finds (form : TraitForm tokens path) :
    Finds (readTrait (tokens ++ .punct .greater :: rest)) path (.punct .greater :: rest) := by
  match form with
  | .absent => exact finds_readTrait_iff.mpr (.absent (by simp))
  | .present path => exact finds_readTrait_iff.mpr (.present (path.reads (by simp)))

theorem OutputForm.finds (form : OutputForm tokens output) (stops : Stops rest) :
    Finds (readOutput (tokens ++ rest)) output rest := by
  match form with
  | .absent => exact finds_readOutput_iff.mpr (.absent (stops.head?_ne (by simp)))
  | .present type => exact finds_readOutput_iff.mpr (.present (type.reads stops))

theorem PathForm.reads (form : PathForm tokens type) (stops : Stops rest) :
    Reads (readPath (tokens ++ rest)) type rest := by
  match form with
  | .relative segments => exact reads_readPath_iff.mpr (.relative (segments.reads stops))
  | .absolute segments => exact reads_readPath_iff.mpr (.absolute (segments.reads stops))

theorem SegmentsForm.reads (form : SegmentsForm tokens names) (stops : Stops rest) :
    Reads (readSegments (tokens ++ rest)) names rest := by
  match form with
  | .last segment =>
    refine reads_readSegments_iff.mpr (.last (segment.reads (stops.head?_ne (by simp))) ?_)
    intro word after same
    subst same
    simp at stops
  | .more first others =>
    have read := others.reads stops
    obtain ⟨word, head⟩ := head?_of_readSegments read
    obtain ⟨after, same⟩ := List.head?_eq_some_iff.mp head
    rw [List.append_assoc, List.cons_append, same]
    rw [same] at read
    exact reads_readSegments_iff.mpr (.more (first.reads (by simp)) read)

theorem SegmentForm.reads (form : SegmentForm tokens name)
    (ends : rest.head? ≠ some (.punct .less)) : Reads (readSegment (tokens ++ rest)) name rest := by
  match form with
  | .plain => exact reads_readSegment_iff.mpr (.plain ends)
  | .generic args =>
    rw [List.cons_append, List.cons_append, ← List.append_cons]
    exact reads_readSegment_iff.mpr (.generic args.reads)

theorem ArgsForm.reads (form : ArgsForm tokens args) :
    Reads (readArgs (tokens ++ .punct .greater :: rest)) args rest := by
  match form with
  | .none => exact reads_readArgs_iff.mpr .none
  | .last arg => exact reads_readArgs_iff.mpr (.last (arg.reads (by simp)))
  | .comma first others =>
    rw [List.append_assoc, List.cons_append]
    exact reads_readArgs_iff.mpr (.comma (first.reads (by simp)) others.reads)

theorem ArgForm.reads (form : ArgForm tokens type) (stops : Stops rest) :
    Reads (readArg (tokens ++ rest)) type rest := by
  match form with
  | .lifetime => exact reads_readArg_iff.mpr .lifetime
  | .number => exact reads_readArg_iff.mpr .number
  | .negative => exact reads_readArg_iff.mpr .negative
  | .block run filled =>
    rw [List.cons_append, ← List.append_cons]
    exact reads_readArg_iff.mpr
      (.block ((reads_readRunText_iff rfl).mpr ⟨_, rfl, run, filled, rfl⟩))
  | .type type => exact reads_readArg_iff.mpr (.type (type.reads stops))

end

theorem reads_whole_iff : Reads (readType tokens) type [] ↔ TypeForm tokens type := by
  constructor
  · intro reads
    obtain ⟨whole, same, form⟩ := readType_sound reads
    rw [List.append_nil] at same
    exact same ▸ form
  · intro form
    have reads : Reads (readType (tokens ++ [])) type [] := form.reads (by simp [Stops])
    rwa [List.append_nil] at reads

/-- No token list is a form of two types. -/
theorem TypeForm.unique (form : TypeForm tokens type) (other : TypeForm tokens type') :
    type = type' :=
  ((reads_whole_iff.mpr form).unique (reads_whole_iff.mpr other)).1

theorem parseType_eq_ok_iff_reads : parseType text = .ok type ↔
    ∃ tokens, tokenize text = .ok tokens ∧ Reads (readType tokens) type [] := by
  unfold parseType
  constructor
  · intro parsed
    split at parsed
    · cases parsed
    · cases parsed
    · rename_i tokens _ tokenized
      split at parsed
      · cases parsed
      · rename_i step read
        split at parsed
        · rename_i left
          cases parsed
          exact ⟨tokens, tokenized, step, read, rfl, left⟩
        · cases parsed
  · intro parts
    obtain ⟨tokens, tokenized, reads⟩ := parts
    cases tokens with
    | nil => exact absurd reads.shorter (by simp)
    | cons token after =>
      obtain ⟨step, read, value, left⟩ := reads
      simp only [tokenized, read, left, value]

/-- A text is read as a type exactly when its tokens are a form of that type. -/
theorem parseType_eq_ok_iff_form : parseType text = .ok type ↔
    ∃ tokens, tokenize text = .ok tokens ∧ TypeForm tokens type := by
  simp only [parseType_eq_ok_iff_reads, reads_whole_iff]

end DeriveBounds
