import DeriveBounds.Proofs.TypeExpr.Reads

/-!
What one call of each reader can do: the shape of its source, and the reads it is made of.
-/
namespace DeriveBounds

/-- How a type is read, by the token it begins with. -/
inductive TypeRead : List Token → TypeExpr → List Token → Prop where
  | reference (inner : Reads (readType (referenceMarks source).rest) type rest) :
      TypeRead (.punct .ampersand :: source)
        (.reference (referenceMarks source).lifetime (referenceMarks source).mutable type) rest
  | pointer (inner : Reads (readType source) type rest) :
      TypeRead (.punct .star :: .ident (if mutable then "mut" else "const") :: source)
        (.pointer mutable type) rest
  | grouped (items : Reads (readTypes .closeParen source) elements rest) :
      TypeRead (.punct .openParen :: source) (groupedType elements) rest
  | array (element : Reads (readType source) type after)
      (length : Reads (readLength after) text rest) :
      TypeRead (.punct .openBracket :: source) (.array type text) rest
  | qualified (self : Reads (readType source) type named)
      (trait : Finds (readTrait named) path (.punct .greater :: .punct .pathSep :: after))
      (segments : Reads (readSegments after) names rest) :
      TypeRead (.punct .less :: source) (.qualified type path names) rest
  | absolute (segments : Reads (readSegments source) names rest) :
      TypeRead (.punct .pathSep :: source) (.path true names) rest
  | function (params : Reads (readTypes .closeParen source) types after)
      (output : Finds (readOutput after) result rest) :
      TypeRead (.ident "fn" :: .punct .openParen :: source) (.fnPointer types.1 result) rest
  | relative (plain : name ∉ reservedWords)
      (segments : Reads (readSegments (.ident name :: source)) names rest) :
      TypeRead (.ident name :: source) (.path false names) rest

inductive TypesRead : List Token → List TypeExpr × Bool → List Token → Prop where
  | none : TypesRead (.punct .closeParen :: rest) ([], false) rest
  | last (item : Reads (readType source) type (.punct .closeParen :: rest)) :
      TypesRead source ([type], false) rest
  | comma (item : Reads (readType source) type (.punct .comma :: after))
      (others : Reads (readTypes .closeParen after) types rest) :
      TypesRead source (type :: types.1, types.1.isEmpty || types.2) rest

inductive TraitFound : List Token → Option TypeExpr → List Token → Prop where
  | absent (unmarked : source.head? ≠ some (.ident "as")) : TraitFound source none source
  | present (path : Reads (readPath source) type rest) :
      TraitFound (.ident "as" :: source) (some type) rest

inductive OutputFound : List Token → Option TypeExpr → List Token → Prop where
  | absent (unmarked : source.head? ≠ some (.punct .arrow)) : OutputFound source none source
  | present (type : Reads (readType source) expr rest) :
      OutputFound (.punct .arrow :: source) (some expr) rest

inductive PathRead : List Token → TypeExpr → List Token → Prop where
  | relative (segments : Reads (readSegments source) names rest) :
      PathRead source (.path false names) rest
  | absolute (segments : Reads (readSegments source) names rest) :
      PathRead (.punct .pathSep :: source) (.path true names) rest

inductive SegmentsRead : List Token → List Segment → List Token → Prop where
  | last (segment : Reads (readSegment source) name rest)
      (ends : ∀ word after, rest ≠ .punct .pathSep :: .ident word :: after) :
      SegmentsRead source [name] rest
  | more (first : Reads (readSegment source) name (.punct .pathSep :: .ident word :: after))
      (others : Reads (readSegments (.ident word :: after)) names rest) :
      SegmentsRead source (name :: names) rest

inductive SegmentRead : List Token → Segment → List Token → Prop where
  | plain (ends : rest.head? ≠ some (.punct .less)) :
      SegmentRead (.ident name :: rest) (.mk name []) rest
  | generic (args : Reads (readArgs source) types rest) :
      SegmentRead (.ident name :: .punct .less :: source) (.mk name types) rest

inductive ArgsRead : List Token → List TypeExpr → List Token → Prop where
  | none : ArgsRead (.punct .greater :: rest) [] rest
  | last (arg : Reads (readArg source) type (.punct .greater :: rest)) :
      ArgsRead source [type] rest
  | comma (arg : Reads (readArg source) type (.punct .comma :: after))
      (others : Reads (readArgs after) types rest) : ArgsRead source (type :: types) rest

inductive ArgRead : List Token → TypeExpr → List Token → Prop where
  | lifetime : ArgRead (.lifetime name :: rest) (.lifetime name) rest
  | number : ArgRead (.number text :: rest) (.const text) rest
  | negative : ArgRead (.punct .minus :: .number text :: rest) (.const ("-" ++ text)) rest
  | block (run : Reads (readRunText .closeBrace source) text rest) :
      ArgRead (.punct .openBrace :: source) (.const ("\x7b " ++ text ++ " \x7d")) rest
  | type (type : Reads (readType source) expr rest) : ArgRead source expr rest

variable {source rest : List Token} {type : TypeExpr}

theorem mem_reservedWords_iff {name : String} :
    name ∈ reservedWords ↔ name = "fn" ∨ unsupportedKeywords.contains name = true := by
  simp [reservedWords, unsupportedKeywords]

theorem TypeRead.of_reads (reads : Reads (readType source) type rest) :
    TypeRead source type rest := by
  unfold readType at reads
  split at reads
  · simp at reads
  · obtain ⟨inner, same, read⟩ := reads_bind_iff.mp reads
    obtain ⟨value, left⟩ := reads_pure_iff.mp read
    subst value
    exact .reference ⟨inner, same, rfl, left⟩
  · simp at reads
  · split at reads
    · rename_i known
      obtain ⟨inner, same, read⟩ := reads_bind_iff.mp reads
      obtain ⟨value, left⟩ := reads_pure_iff.mp read
      subst value
      rcases known with constant | mutable
      · subst constant
        exact @TypeRead.pointer _ _ _ false ⟨inner, same, rfl, left⟩
      · subst mutable
        exact @TypeRead.pointer _ _ _ true ⟨inner, same, rfl, left⟩
    · simp at reads
  · obtain ⟨items, same, read⟩ := reads_bind_iff.mp reads
    obtain ⟨value, left⟩ := reads_pure_iff.mp read
    subst value
    exact .grouped ⟨items, same, rfl, left⟩
  · obtain ⟨element, same, read⟩ := reads_bind_iff.mp reads
    obtain ⟨array, same', read⟩ := reads_bind_iff.mp read
    obtain ⟨value, left⟩ := reads_pure_iff.mp read
    subst value
    exact .array ⟨element, same, rfl, rfl⟩ ⟨array, same', rfl, left⟩
  · obtain ⟨self, same, read⟩ := reads_bind_iff.mp reads
    obtain ⟨trait, found, read⟩ := reads_bind_iff.mp read
    obtain ⟨close, closed, read⟩ := reads_bind_iff.mp read
    obtain ⟨separator, separated, read⟩ := reads_bind_iff.mp read
    obtain ⟨segments, named, read⟩ := reads_bind_iff.mp read
    obtain ⟨value, left⟩ := reads_pure_iff.mp read
    have behindTrait := reads_readMark_iff.mp ⟨close, closed, rfl, rfl⟩
    have behindAngle := reads_readMark_iff.mp ⟨separator, separated, rfl, rfl⟩
    subst value
    exact .qualified ⟨self, same, rfl, rfl⟩
      ⟨trait, found, rfl, behindTrait.trans (congrArg _ behindAngle)⟩ ⟨segments, named, rfl, left⟩
  · obtain ⟨segments, same, read⟩ := reads_bind_iff.mp reads
    obtain ⟨value, left⟩ := reads_pure_iff.mp read
    subst value
    exact .absolute ⟨segments, same, rfl, left⟩
  · rename_i name source
    split at reads
    · rename_i isFn
      obtain ⟨opening, opened, read⟩ := reads_bind_iff.mp reads
      obtain ⟨params, same, read⟩ := reads_bind_iff.mp read
      obtain ⟨output, found, read⟩ := reads_bind_iff.mp read
      obtain ⟨value, left⟩ := reads_pure_iff.mp read
      have behindName := reads_readMark_iff.mp ⟨opening, opened, rfl, rfl⟩
      subst isFn value
      have read : TypeRead (.ident "fn" :: .punct .openParen :: opening.rest) _ rest :=
        .function ⟨params, same, rfl, rfl⟩ ⟨output, found, rfl, left⟩
      rwa [← behindName] at read
    · rename_i notFn
      split at reads
      · simp at reads
      · rename_i supported
        obtain ⟨segments, same, read⟩ := reads_bind_iff.mp reads
        obtain ⟨value, left⟩ := reads_pure_iff.mp read
        subst value
        refine .relative ?_ ⟨segments, same, rfl, left⟩
        rw [mem_reservedWords_iff]
        exact not_or.mpr ⟨notFn, supported⟩
  · simp at reads

theorem TypeRead.reads (read : TypeRead source type rest) : Reads (readType source) type rest := by
  cases read with
  | reference inner =>
    rw [readType]
    exact inner.bind fun step value left => reads_pure_iff.mpr ⟨by rw [value], left⟩
  | @pointer source type rest mutable inner =>
    rw [readType.eq_def]
    cases mutable
    · exact inner.bind fun step value left => reads_pure_iff.mpr ⟨congrArg _ value, left⟩
    · exact inner.bind fun step value left => reads_pure_iff.mpr ⟨congrArg _ value, left⟩
  | grouped items =>
    rw [readType]
    exact items.bind fun step value left => reads_pure_iff.mpr ⟨congrArg groupedType value, left⟩
  | array element length =>
    rw [readType]
    apply element.bind
    intro element value left
    subst value left
    exact length.bind fun step value left => reads_pure_iff.mpr ⟨congrArg _ value, left⟩
  | qualified self trait segments =>
    rw [readType]
    apply self.bind
    intro self value left
    subst value left
    apply trait.bind
    intro trait value angle
    subst value
    apply Reads.bind (reads_readMark_iff.mpr angle)
    intro close _ separator
    apply Reads.bind (reads_readMark_iff.mpr separator)
    intro separator _ left
    subst left
    exact segments.bind fun step value left => reads_pure_iff.mpr ⟨congrArg _ value, left⟩
  | absolute segments =>
    rw [readType]
    exact segments.bind fun step value left => reads_pure_iff.mpr ⟨congrArg _ value, left⟩
  | function params output =>
    rw [readType, if_pos rfl]
    apply Reads.bind (reads_readMark_iff.mpr rfl)
    intro opening _ inside
    apply Reads.bind (inside ▸ params)
    intro params value left
    subst value left
    exact output.bind fun step value left => reads_pure_iff.mpr ⟨congrArg _ value, left⟩
  | relative plain segments =>
    rw [mem_reservedWords_iff, not_or] at plain
    rw [readType, if_neg plain.1, if_neg plain.2]
    exact segments.bind fun step value left => reads_pure_iff.mpr ⟨congrArg _ value, left⟩

theorem reads_readType_iff : Reads (readType source) type rest ↔ TypeRead source type rest :=
  ⟨.of_reads, TypeRead.reads⟩

/-- The tokens a type can begin with. -/
def Token.startsType : Token → Bool
  | .ident name => !unsupportedKeywords.contains name
  | .punct mark => [.ampersand, .star, .openParen, .openBracket, .less, .pathSep].contains mark
  | _ => false

theorem TypeRead.startsType (read : TypeRead source type rest) :
    ∃ token, source.head? = some token ∧ token.startsType = true := by
  cases read with
  | relative plain segments =>
    rw [mem_reservedWords_iff, not_or] at plain
    exact ⟨_, rfl, by simpa [Token.startsType] using plain.2⟩
  | _ => exact ⟨_, rfl, rfl⟩

variable {types : List TypeExpr × Bool}

theorem TypesRead.of_reads (reads : Reads (readTypes .closeParen source) types rest) :
    TypesRead source types rest := by
  rw [readTypes] at reads
  split at reads
  · obtain ⟨close, same, read⟩ := reads_bind_iff.mp reads
    obtain ⟨value, left⟩ := reads_pure_iff.mp read
    subst value
    have closed := reads_readMark_iff.mp ⟨close, same, rfl, left⟩
    subst closed
    exact .none
  · obtain ⟨item, same, read⟩ := reads_bind_iff.mp reads
    split at read
    · rename_i after found
      obtain ⟨others, same', read⟩ := reads_bind_iff.mp read
      obtain ⟨value, left⟩ := reads_pure_iff.mp read
      subst value
      exact .comma ⟨item, same, rfl, found⟩ ⟨others, same', rfl, left⟩
    · obtain ⟨close, same', read⟩ := reads_bind_iff.mp read
      obtain ⟨value, left⟩ := reads_pure_iff.mp read
      subst value
      have closed := reads_readMark_iff.mp ⟨close, same', rfl, left⟩
      exact .last ⟨item, same, rfl, closed⟩

/-- What begins a type closes no list. -/
theorem head?_ne_closeParen (item : Reads (readType source) type rest) :
    source.head? ≠ some (.punct .closeParen) := by
  obtain ⟨token, head, starts⟩ := (TypeRead.of_reads item).startsType
  rw [head]
  intro same
  cases same
  exact absurd starts (by decide)

theorem TypesRead.reads (read : TypesRead source types rest) :
    Reads (readTypes .closeParen source) types rest := by
  rw [readTypes]
  cases read with
  | none =>
    simp only [List.head?_cons, ↓reduceIte]
    exact Reads.bind (reads_readMark_iff.mpr rfl) fun step _ left =>
      reads_pure_iff.mpr ⟨rfl, left⟩
  | last item =>
    rw [if_neg (head?_ne_closeParen item)]
    apply item.bind
    intro item value left
    split
    · rename_i found
      rw [left] at found
      cases found
    · exact Reads.bind (reads_readMark_iff.mpr left) fun close _ left =>
        reads_pure_iff.mpr ⟨by rw [value], left⟩
  | comma item others =>
    rw [if_neg (head?_ne_closeParen item)]
    apply item.bind
    intro item value left
    split
    · rename_i found
      rw [left] at found
      cases found
      exact others.bind fun others more left => reads_pure_iff.mpr ⟨by rw [value, more], left⟩
    · rename_i noComma
      exact absurd left (noComma _)

theorem reads_readTypes_iff :
    Reads (readTypes .closeParen source) types rest ↔ TypesRead source types rest :=
  ⟨.of_reads, TypesRead.reads⟩

theorem finds_readTrait_iff {path : Option TypeExpr} :
    Finds (readTrait source) path rest ↔ TraitFound source path rest := by
  rw [readTrait.eq_def]
  constructor
  · intro finds
    split at finds
    · obtain ⟨found, same, value, left⟩ := finds
      obtain ⟨path, same', read⟩ := bind_eq_ok_iff.mp same
      cases pure_eq_ok_iff.mp read
      subst value
      exact .present ⟨path, same', rfl, left⟩
    · rename_i unmarked
      obtain ⟨found, same, value, left⟩ := finds
      cases pure_eq_ok_iff.mp same
      subst value left
      apply TraitFound.absent
      intro head
      obtain ⟨after, same⟩ := List.head?_eq_some_iff.mp head
      exact unmarked after same
  · intro found
    cases found with
    | absent unmarked =>
      split
      · exact absurd rfl unmarked
      · exact ⟨_, rfl, rfl, rfl⟩
    | present path =>
      obtain ⟨step, same, value, left⟩ := path
      exact ⟨_, bind_eq_ok_iff.mpr ⟨step, same, rfl⟩, congrArg _ value, left⟩

theorem finds_readOutput_iff {output : Option TypeExpr} :
    Finds (readOutput source) output rest ↔ OutputFound source output rest := by
  rw [readOutput.eq_def]
  constructor
  · intro finds
    split at finds
    · obtain ⟨found, same, value, left⟩ := finds
      obtain ⟨type, same', read⟩ := bind_eq_ok_iff.mp same
      cases pure_eq_ok_iff.mp read
      subst value
      exact .present ⟨type, same', rfl, left⟩
    · rename_i unmarked
      obtain ⟨found, same, value, left⟩ := finds
      cases pure_eq_ok_iff.mp same
      subst value left
      apply OutputFound.absent
      intro head
      obtain ⟨after, same⟩ := List.head?_eq_some_iff.mp head
      exact unmarked after same
  · intro found
    cases found with
    | absent unmarked =>
      split
      · exact absurd rfl unmarked
      · exact ⟨_, rfl, rfl, rfl⟩
    | present type =>
      obtain ⟨step, same, value, left⟩ := type
      exact ⟨_, bind_eq_ok_iff.mpr ⟨step, same, rfl⟩, congrArg _ value, left⟩

variable {names : List Segment} {segment : Segment}

theorem reads_readSegment_iff :
    Reads (readSegment source) segment rest ↔ SegmentRead source segment rest := by
  constructor
  · intro reads
    rw [readSegment.eq_def] at reads
    split at reads
    · simp at reads
    · obtain ⟨args, same, read⟩ := reads_bind_iff.mp reads
      obtain ⟨value, left⟩ := reads_pure_iff.mp read
      subst value
      exact .generic ⟨args, same, rfl, left⟩
    · rename_i noArgs
      obtain ⟨value, left⟩ := reads_pure_iff.mp reads
      subst value left
      apply SegmentRead.plain
      intro head
      obtain ⟨after, same⟩ := List.head?_eq_some_iff.mp head
      exact noArgs after same
    · simp at reads
  · intro read
    cases read with
    | plain ends =>
      rw [readSegment]
      · exact reads_pure_iff.mpr ⟨rfl, rfl⟩
      · intro after same
        subst same
        exact ends rfl
    | generic args =>
      rw [readSegment]
      exact args.bind fun step value left => reads_pure_iff.mpr ⟨congrArg _ value, left⟩

theorem reads_readSegments_iff :
    Reads (readSegments source) names rest ↔ SegmentsRead source names rest := by
  rw [readSegments]
  constructor
  · intro reads
    obtain ⟨first, same, read⟩ := reads_bind_iff.mp reads
    split at read
    · rename_i found
      obtain ⟨others, same', read⟩ := reads_bind_iff.mp read
      obtain ⟨value, left⟩ := reads_pure_iff.mp read
      subst value
      exact .more ⟨first, same, rfl, found⟩ ⟨others, same', rfl, left⟩
    · rename_i ends
      obtain ⟨value, left⟩ := reads_pure_iff.mp read
      subst value left
      exact .last ⟨first, same, rfl, rfl⟩ ends
  · intro read
    cases read with
    | last segment ends =>
      apply segment.bind
      intro segment value left
      split
      · rename_i found
        exact absurd (left.symm.trans found) (ends _ _)
      · exact reads_pure_iff.mpr ⟨by rw [Step.map, value], left⟩
    | more first others =>
      apply first.bind
      intro first value left
      split
      · rename_i found
        rw [left] at found
        cases found
        exact others.bind fun others more left => reads_pure_iff.mpr ⟨by rw [value, more], left⟩
      · rename_i ends
        exact absurd left (ends _ _)

theorem head?_of_readSegments (reads : Reads (readSegments source) names rest) :
    ∃ name, source.head? = some (.ident name) := by
  have named : ∀ {segment rest}, Reads (readSegment source) segment rest →
      ∃ name, source.head? = some (.ident name) := by
    intro segment rest reads
    cases reads_readSegment_iff.mp reads <;> exact ⟨_, rfl⟩
  cases reads_readSegments_iff.mp reads with
  | last segment ends => exact named segment
  | more first others => exact named first

theorem reads_readPath_iff : Reads (readPath source) type rest ↔ PathRead source type rest := by
  rw [readPath.eq_def]
  constructor
  · intro reads
    split at reads
    · obtain ⟨segments, same, read⟩ := reads_bind_iff.mp reads
      obtain ⟨value, left⟩ := reads_pure_iff.mp read
      subst value
      exact .absolute ⟨segments, same, rfl, left⟩
    · obtain ⟨segments, same, read⟩ := reads_bind_iff.mp reads
      obtain ⟨value, left⟩ := reads_pure_iff.mp read
      subst value
      exact .relative ⟨segments, same, rfl, left⟩
  · intro read
    cases read with
    | relative segments =>
      split
      · obtain ⟨name, head⟩ := head?_of_readSegments segments
        cases head
      · exact segments.bind fun step value left => reads_pure_iff.mpr ⟨congrArg _ value, left⟩
    | absolute segments =>
      exact segments.bind fun step value left => reads_pure_iff.mpr ⟨congrArg _ value, left⟩

theorem ArgRead.of_reads (reads : Reads (readArg source) type rest) :
    ArgRead source type rest := by
  rw [readArg.eq_def] at reads
  split at reads
  · obtain ⟨value, left⟩ := reads_pure_iff.mp reads
    subst value left
    exact .lifetime
  · obtain ⟨value, left⟩ := reads_pure_iff.mp reads
    subst value left
    exact .number
  · obtain ⟨value, left⟩ := reads_pure_iff.mp reads
    subst value left
    exact .negative
  · obtain ⟨run, same, read⟩ := reads_bind_iff.mp reads
    obtain ⟨value, left⟩ := reads_pure_iff.mp read
    subst value
    exact .block ⟨run, same, rfl, left⟩
  · exact .type reads

theorem ArgRead.reads (read : ArgRead source type rest) : Reads (readArg source) type rest := by
  rw [readArg.eq_def]
  cases read with
  | lifetime => exact reads_pure_iff.mpr ⟨rfl, rfl⟩
  | number => exact reads_pure_iff.mpr ⟨rfl, rfl⟩
  | negative => exact reads_pure_iff.mpr ⟨rfl, rfl⟩
  | block run =>
    exact run.bind fun step value left =>
      reads_pure_iff.mpr ⟨by simp only [Step.behind, Step.map, value], left⟩
  | type type =>
    obtain ⟨token, head, starts⟩ := (TypeRead.of_reads type).startsType
    split
    · cases head
      cases starts
    · cases head
      cases starts
    · cases head
      exact absurd starts (by decide)
    · cases head
      exact absurd starts (by decide)
    · exact type

theorem reads_readArg_iff : Reads (readArg source) type rest ↔ ArgRead source type rest :=
  ⟨.of_reads, ArgRead.reads⟩

/-- The tokens a generic argument can begin with. -/
def Token.startsArg : Token → Bool
  | .lifetime _ => true
  | .number _ => true
  | .punct mark => mark = .minus || mark = .openBrace || Token.startsType (.punct mark)
  | token => token.startsType

theorem ArgRead.startsArg (read : ArgRead source type rest) :
    ∃ token, source.head? = some token ∧ token.startsArg = true := by
  cases read with
  | type type =>
    obtain ⟨token, head, starts⟩ := (TypeRead.of_reads type).startsType
    refine ⟨token, head, ?_⟩
    cases token <;> simp_all [Token.startsArg]
  | _ => exact ⟨_, rfl, rfl⟩

variable {args : List TypeExpr}

theorem ArgsRead.of_reads (reads : Reads (readArgs source) args rest) :
    ArgsRead source args rest := by
  rw [readArgs] at reads
  split at reads
  · obtain ⟨close, same, read⟩ := reads_bind_iff.mp reads
    obtain ⟨value, left⟩ := reads_pure_iff.mp read
    subst value
    have closed := reads_readMark_iff.mp ⟨close, same, rfl, left⟩
    subst closed
    exact .none
  · obtain ⟨arg, same, read⟩ := reads_bind_iff.mp reads
    split at read
    · rename_i after found
      obtain ⟨others, same', read⟩ := reads_bind_iff.mp read
      obtain ⟨value, left⟩ := reads_pure_iff.mp read
      subst value
      exact .comma ⟨arg, same, rfl, found⟩ ⟨others, same', rfl, left⟩
    · obtain ⟨close, same', read⟩ := reads_bind_iff.mp read
      obtain ⟨value, left⟩ := reads_pure_iff.mp read
      subst value
      have closed := reads_readMark_iff.mp ⟨close, same', rfl, left⟩
      exact .last ⟨arg, same, rfl, closed⟩

/-- What begins an argument closes no list of arguments. -/
theorem head?_ne_greater (arg : Reads (readArg source) type rest) :
    source.head? ≠ some (.punct .greater) := by
  obtain ⟨token, head, starts⟩ := (ArgRead.of_reads arg).startsArg
  rw [head]
  intro same
  cases same
  exact absurd starts (by decide)

theorem ArgsRead.reads (read : ArgsRead source args rest) :
    Reads (readArgs source) args rest := by
  rw [readArgs]
  cases read with
  | none =>
    simp only [List.head?_cons, ↓reduceIte]
    exact Reads.bind (reads_readMark_iff.mpr rfl) fun step _ left =>
      reads_pure_iff.mpr ⟨rfl, left⟩
  | last arg =>
    rw [if_neg (head?_ne_greater arg)]
    apply arg.bind
    intro arg value left
    split
    · rename_i found
      rw [left] at found
      cases found
    · exact Reads.bind (reads_readMark_iff.mpr left) fun close _ left =>
        reads_pure_iff.mpr ⟨by rw [value], left⟩
  | comma arg others =>
    rw [if_neg (head?_ne_greater arg)]
    apply arg.bind
    intro arg value left
    split
    · rename_i found
      rw [left] at found
      cases found
      exact others.bind fun others more left => reads_pure_iff.mpr ⟨by rw [value, more], left⟩
    · rename_i noComma
      exact absurd left (noComma _)

theorem reads_readArgs_iff : Reads (readArgs source) args rest ↔ ArgsRead source args rest :=
  ⟨.of_reads, ArgsRead.reads⟩

end DeriveBounds
