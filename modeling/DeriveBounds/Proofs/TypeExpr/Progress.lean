import Mathlib
import DeriveBounds.Proofs.TypeExpr.Calls
import DeriveBounds.Proofs.TypeExpr.Reads

/-!
Progress of the readers. A reader that gives an answer has moved on in its source, and it calls
others further on, or lower ones at the same place. So every text is read by calls that are nested
no deeper than a multiple of the number of its tokens.
-/
namespace DeriveBounds

/-- What is left of a source behind one token of it or more. -/
structure Beyond (source rest : List Token) : Prop where
  suffix : rest <:+ source
  shorter : rest.length < source.length

namespace Reader

/-- Readers of a part that need not be there. -/
def isOptional : Reader → Bool
  | trait | output => true
  | _ => false

/-- Where a reader may stop. -/
def Leaves : Reader → List Token → List Token → Prop
  | trait, source, rest | output, source, rest => rest <:+ source
  | _, source, rest => Beyond source rest

/-- At one place, a reader calls readers of a lower rank only. -/
def rank : Reader → Nat
  | segment => 0
  | segments => 1
  | path => 2
  | type | trait | output => 3
  | types _ | arg => 4
  | args => 5

/-- How deep calls may be nested below a reader. -/
def depth (reader : Reader) (source : List Token) : Nat := 6 * source.length + reader.rank

/-- Where a reader may call others. -/
inductive Descends (reader : Reader) (source : List Token) : Reader → List Token → Prop where
  | further (beyond : Beyond source place) : Descends reader source other place
  | lower (lower : other.rank < reader.rank) : Descends reader source other source

end Reader

/-- Work that a reader may be given at a source: it calls others where the reader may, and stops
where the reader may, as long as the others do. -/
inductive Work.Keeps {α : Type} (owner : Reader) (source : List Token) : Work α → Prop where
  | done {outcome : Except TypeFault (Answer α)}
      (leaves : ∀ answer, outcome = .ok answer → owner.Leaves source answer.rest) :
      Keeps owner source (.done outcome)
  | call {next : Answer reader.Result → Work α} (descends : owner.Descends source reader place)
      (keeps : ∀ answer, reader.Leaves place answer.rest → Keeps owner source (next answer)) :
      Keeps owner source (.call reader place next)

variable {source middle rest place tokens : List Token} {reader other owner : Reader}

namespace Beyond

theorem trans_suffix (beyond : Beyond source middle) (suffix : rest <:+ middle) :
    Beyond source rest :=
  ⟨suffix.trans beyond.suffix, Nat.lt_of_le_of_lt suffix.length_le beyond.shorter⟩

theorem cons {token : Token} (suffix : rest <:+ source) : Beyond (token :: source) rest :=
  ⟨suffix.trans (List.suffix_cons token source), Nat.lt_succ_of_le suffix.length_le⟩

theorem tail {token : Token} : Beyond (token :: source) source := .cons List.suffix_rfl

/-- What stands behind something of the source. -/
theorem of_eq_append {taken : List Token} (filled : taken ≠ []) (whole : source = taken ++ rest) :
    Beyond source rest := by
  obtain ⟨token, others, split⟩ := List.exists_cons_of_ne_nil filled
  subst whole split
  exact .cons (List.suffix_append others rest)

theorem of_readMark {mark : Punct} {step : Step source Unit}
    (read : readMark mark source = .ok step) : Beyond source step.rest :=
  of_eq_append (List.cons_ne_nil _ []) (reads_readMark_iff.mp ⟨step, read, rfl, rfl⟩)

theorem of_readRunText {closing : Punct} {step : Step source String}
    (read : readRunText closing source = .ok step) : Beyond source step.rest := by
  obtain ⟨run, whole, _⟩ := readRunText_sound ⟨step, read, rfl, rfl⟩
  exact of_eq_append (List.append_ne_nil_of_right_ne_nil run (List.cons_ne_nil _ []))
    (whole.trans (List.append_cons ..))

theorem of_readLength {step : Step source (Option String)} (read : readLength source = .ok step) :
    Beyond source step.rest := by
  obtain ⟨taken, whole, _⟩ := reads_readLength_iff.mp ⟨step, read, rfl, rfl⟩
  exact of_eq_append (List.append_ne_nil_of_right_ne_nil taken (List.cons_ne_nil _ []))
    (whole.trans (List.append_cons ..))

end Beyond

theorem referenceMarks_suffix (source : List Token) : (referenceMarks source).rest <:+ source := by
  unfold referenceMarks
  split
  · exact ⟨[_, _], rfl⟩
  · exact List.suffix_cons ..
  · exact List.suffix_cons ..
  · exact List.suffix_rfl

namespace Reader

theorem rank_lt (reader : Reader) : reader.rank < 6 := by
  unfold rank
  split <;> decide

theorem Leaves.suffix (leaves : reader.Leaves source rest) : rest <:+ source := by
  cases reader with
  | trait | output => exact leaves
  | _ => exact Beyond.suffix leaves

theorem Leaves.beyond (leaves : reader.Leaves source rest) (due : reader.isOptional = false) :
    Beyond source rest := by
  cases reader with
  | trait | output => cases due
  | _ => exact leaves

theorem Descends.depth_lt (descends : reader.Descends source other place) :
    other.depth place < reader.depth source := by
  cases descends with
  | further beyond =>
    have shorter := beyond.shorter
    have bounded := other.rank_lt
    rw [depth, depth]
    omega
  | lower lower => exact Nat.add_lt_add_left lower _

end Reader

namespace Work.Keeps

variable {work : Work α}

theorem give {value : α} (leaves : owner.Leaves source rest) :
    (give value rest).Keeps owner source := by
  refine .done fun answer same => ?_
  cases same
  exact leaves

theorem fail {fault : TypeFault} : (fail fault : Work α).Keeps owner source := .done nofun

theorem after {outcome : Except TypeFault β} {next : β → Work α}
    (keeps : ∀ value, outcome = .ok value → (next value).Keeps owner source) :
    (after outcome next).Keeps owner source := by
  cases outcome with
  | error fault => exact .fail
  | ok value => exact keeps value rfl

/-- Work stops where it may, as long as the readers it calls do. -/
theorem leaves {answer : Answer α} (keeps : work.Keeps owner source)
    (readers : ∀ other place answer, owner.Descends source other place →
      other.read place = .ok answer → other.Leaves place answer.rest)
    (answered : work.answered = .ok answer) : owner.Leaves source answer.rest := by
  induction keeps with
  | done leaves => exact leaves answer answered
  | call descends keeps ih =>
    obtain ⟨found, read, answered⟩ := bind_eq_ok_iff.mp answered
    exact ih found (readers _ _ found descends read) answered

end Work.Keeps

section Readers

theorem keeps_typeWork : (typeWork source).Keeps .type source := by
  fun_cases typeWork source
  case case1 => exact .fail
  case case2 rest =>
    have suffix := referenceMarks_suffix rest
    exact .call (.further (.cons suffix)) fun inner left => .give (.cons (left.suffix.trans suffix))
  case case3 => exact .fail
  case case4 qualifier rest known =>
    have suffix := List.suffix_cons qualifier rest
    exact .call (.further (.cons suffix)) fun inner left => .give (.cons (left.suffix.trans suffix))
  case case5 => exact .fail
  case case6 => exact .call (.further .tail) fun items left => .give (.cons left.suffix)
  case case7 =>
    refine .call (.further .tail) fun element left => .after fun array read => ?_
    exact .give (.cons ((Beyond.of_readLength read).suffix.trans left.suffix))
  case case8 =>
    refine .call (.further .tail) fun self behindSelf => ?_
    refine .call (.further (.cons behindSelf.suffix)) fun trait behindTrait => ?_
    refine .after fun close closed => .after fun separator separated => ?_
    have suffix := (Beyond.of_readMark separated).suffix.trans <|
      (Beyond.of_readMark closed).suffix.trans (behindTrait.suffix.trans behindSelf.suffix)
    exact .call (.further (.cons suffix)) fun segments left =>
      .give (.cons (left.suffix.trans suffix))
  case case9 => exact .call (.further .tail) fun segments left => .give (.cons left.suffix)
  case case10 =>
    refine .after fun opening opened => ?_
    have suffix := (Beyond.of_readMark opened).suffix
    refine .call (.further (.cons suffix)) fun params behindParams => ?_
    have suffix := behindParams.suffix.trans suffix
    exact .call (.further (.cons suffix)) fun output left => .give (.cons (left.suffix.trans suffix))
  case case11 => exact .fail
  case case12 => exact .call (.lower (by decide)) fun segments left => .give left
  case case13 => exact .fail

theorem keeps_typesWork {closing : Punct} :
    (typesWork closing source).Keeps (.types closing) source := by
  unfold typesWork
  split
  · exact .after fun close closed => .give (.of_readMark closed)
  · refine .call (.lower (Nat.lt_add_one 3)) fun ⟨item, behind⟩ left => ?_
    dsimp only
    split
    · have beyond := left.trans_suffix (List.suffix_cons _ _)
      exact .call (.further beyond) fun more left => .give (beyond.trans_suffix left.suffix)
    · exact .after fun close closed => .give (left.trans_suffix (Beyond.of_readMark closed).suffix)

theorem keeps_traitWork : (traitWork source).Keeps .trait source := by
  fun_cases traitWork source
  case case1 =>
    exact .call (.further .tail) fun path left => .give (Beyond.cons left.suffix).suffix
  case case2 => exact .give List.suffix_rfl

theorem keeps_outputWork : (outputWork source).Keeps .output source := by
  fun_cases outputWork source
  case case1 =>
    exact .call (.further .tail) fun type left => .give (Beyond.cons left.suffix).suffix
  case case2 => exact .give List.suffix_rfl

theorem keeps_pathWork : (pathWork source).Keeps .path source := by
  fun_cases pathWork source
  case case1 => exact .call (.further .tail) fun segments left => .give (.cons left.suffix)
  case case2 => exact .call (.lower (by decide)) fun segments left => .give left

theorem keeps_segmentsWork : (segmentsWork source).Keeps .segments source := by
  refine .call (.lower (by decide)) fun ⟨first, behind⟩ left => ?_
  dsimp only
  split
  · have beyond := left.trans_suffix (List.suffix_cons _ _)
    exact .call (.further beyond) fun more left => .give (beyond.trans_suffix left.suffix)
  · exact .give left

theorem keeps_segmentWork : (segmentWork source).Keeps .segment source := by
  fun_cases segmentWork source
  case case1 => exact .fail
  case case2 name rest =>
    have suffix := List.suffix_cons (Token.punct .less) rest
    exact .call (.further (.cons suffix)) fun args left => .give (.cons (left.suffix.trans suffix))
  case case3 => exact .give .tail
  case case4 => exact .fail

theorem keeps_argsWork : (argsWork source).Keeps .args source := by
  unfold argsWork
  split
  · exact .after fun close closed => .give (.of_readMark closed)
  · refine .call (.lower (by decide)) fun ⟨arg, behind⟩ left => ?_
    dsimp only
    split
    · have beyond := left.trans_suffix (List.suffix_cons _ _)
      exact .call (.further beyond) fun more left => .give (beyond.trans_suffix left.suffix)
    · exact .after fun close closed => .give (left.trans_suffix (Beyond.of_readMark closed).suffix)

theorem keeps_argWork : (argWork source).Keeps .arg source := by
  fun_cases argWork source
  case case1 => exact .give .tail
  case case2 => exact .give .tail
  case case3 => exact .give (.cons (List.suffix_cons _ _))
  case case4 => exact .after fun run read => .give (.cons (Beyond.of_readRunText read).suffix)
  case case5 => exact .call (.lower (by decide)) fun type left => .give left

theorem Reader.keeps_work (reader : Reader) (source : List Token) :
    (reader.work source).Keeps reader source := by
  cases reader with
  | type => exact keeps_typeWork
  | types => exact keeps_typesWork
  | trait => exact keeps_traitWork
  | output => exact keeps_outputWork
  | path => exact keeps_pathWork
  | segments => exact keeps_segmentsWork
  | segment => exact keeps_segmentWork
  | args => exact keeps_argsWork
  | arg => exact keeps_argWork

end Readers

/-- A reader that gives an answer stops where it may. -/
theorem Reader.leaves_of_read {reader : Reader} {source : List Token}
    {answer : Answer reader.Result} (read : reader.read source = .ok answer) :
    reader.Leaves source answer.rest := by
  -- by induction on how deep calls may be nested, which every call lowers
  rw [← reader.answered_work] at read
  exact (reader.keeps_work source).leaves
    (fun other place answer descends read => Reader.leaves_of_read read) read
termination_by reader.depth source
decreasing_by exact descends.depth_lt

/-- A call is made further on, or of a lower reader. -/
theorem Work.Keeps.descends {work : Work α} (keeps : work.Keeps owner source)
    (takes : work.Takes other place) : owner.Descends source other place := by
  induction takes with
  | first =>
    cases keeps with
    | call descends keeps => exact descends
  | later answered takes ih =>
    cases keeps with
    | call descends keeps => exact ih (keeps _ (Reader.leaves_of_read answered))

theorem Reader.descends_of_calls (calls : reader.Calls source other place) :
    reader.Descends source other place :=
  (reader.keeps_work source).descends calls

/-- Calls that may be nested deep enough give every answer. -/
theorem Reader.readWithin_eq {limit : Nat} (deep : reader.depth source < limit) :
    reader.readWithin limit source = some (reader.read source) := by
  induction limit generalizing reader source with
  | zero => exact absurd deep (Nat.not_lt_zero _)
  | succ limit ih =>
    rw [Reader.readWithin, ← reader.answered_work]
    apply Work.answeredBy_eq
    intro other place calls
    have descends := Reader.descends_of_calls calls
    exact ih (Nat.lt_of_lt_of_le descends.depth_lt (Nat.le_of_lt_succ deep))

/-- How many tokens a text has; one that has a stray character counts none. -/
def tokenCount (text : String) : Nat :=
  match tokenize text with
  | .ok tokens => tokens.length
  | .error _ => 0

/-- A text is read by calls that are nested no deeper than a multiple of the number of its tokens,
whether it denotes a type or not. -/
theorem parseTypeWithin_eq {text : String} {limit : Nat} (deep : 6 * tokenCount text + 3 < limit) :
    parseTypeWithin limit text = some (parseType text) := by
  unfold tokenCount at deep
  unfold parseTypeWithin parseType
  cases tokenized : tokenize text with
  | error error => rfl
  | ok tokens =>
    rw [tokenized] at deep
    cases tokens with
    | nil => rfl
    | cons token tokens =>
      -- what is left of the tokens decides between a type and a fault in both
      have enough : Reader.type.depth (token :: tokens) < limit := deep
      simp only [Reader.readWithin_eq enough, Reader.read]
      cases readType (token :: tokens) with
      | error fault => rfl
      | ok step =>
        obtain ⟨type, rest, shorter⟩ := step
        cases rest <;> rfl

section Positions

variable {start : Nat}

theorem exists_drop_of_suffix (inside : start ≤ tokens.length)
    (suffix : rest <:+ tokens.drop start) :
    ∃ stop, start ≤ stop ∧ stop ≤ tokens.length ∧ rest = tokens.drop stop := by
  obtain ⟨taken, whole⟩ := suffix
  have total := congrArg List.length whole
  rw [List.length_append, List.length_drop] at total
  refine ⟨start + taken.length, Nat.le_add_right .., by omega, ?_⟩
  rw [← List.drop_drop, ← whole, List.drop_left]

theorem Beyond.exists_drop (inside : start ≤ tokens.length)
    (beyond : Beyond (tokens.drop start) rest) :
    ∃ stop, start < stop ∧ stop ≤ tokens.length ∧ rest = tokens.drop stop := by
  obtain ⟨stop, forward, bound, same⟩ := exists_drop_of_suffix inside beyond.suffix
  have shorter := beyond.shorter
  rw [same, List.length_drop, List.length_drop] at shorter
  exact ⟨stop, by omega, bound, same⟩

/-- How reading moves in a list of tokens. A position is the number of tokens before it. -/
structure MovesForward (tokens : List Token) : Prop where
  answers : ∀ (reader : Reader) start answer, start ≤ tokens.length →
    reader.read (tokens.drop start) = .ok answer →
      ∃ stop, start ≤ stop ∧ stop ≤ tokens.length ∧ answer.rest = tokens.drop stop ∧
        (reader.isOptional = false → start < stop)
  marks : ∀ mark start step, readMark mark (tokens.drop start) = .ok step →
    start < tokens.length ∧ step.rest = tokens.drop (start + 1)
  runs : ∀ closing start step, start ≤ tokens.length →
    readRunText closing (tokens.drop start) = .ok step →
      ∃ stop, start < stop ∧ stop < tokens.length ∧
        tokens.drop stop = .punct closing :: step.rest
  calls : ∀ (reader other : Reader) start source, start ≤ tokens.length →
    reader.Calls (tokens.drop start) other source →
      ∃ place, place ≤ tokens.length ∧ source = tokens.drop place ∧
        (start < place ∨ start = place ∧ other.rank < reader.rank)

theorem movesForward (tokens : List Token) : MovesForward tokens := by
  constructor
  case answers =>
    intro reader start answer inside read
    have leaves := Reader.leaves_of_read read
    cases optional : reader.isOptional with
    | false =>
      obtain ⟨stop, forward, bound, same⟩ := (leaves.beyond optional).exists_drop inside
      exact ⟨stop, Nat.le_of_lt forward, bound, same, fun _ => forward⟩
    | true =>
      obtain ⟨stop, forward, bound, same⟩ := exists_drop_of_suffix inside leaves.suffix
      exact ⟨stop, forward, bound, same, nofun⟩
  case marks =>
    intro mark start step read
    have whole := reads_readMark_iff.mp ⟨step, read, rfl, rfl⟩
    refine ⟨?_, ?_⟩
    · have filled := congrArg List.length whole
      rw [List.length_drop, List.length_cons] at filled
      omega
    · have behind := congrArg List.tail whole
      rw [List.tail_drop, List.tail_cons] at behind
      exact behind.symm
  case runs =>
    intro closing start step inside read
    obtain ⟨run, whole, _, filled, _⟩ := readRunText_sound ⟨step, read, rfl, rfl⟩
    have beyond := Beyond.of_eq_append filled whole
    obtain ⟨stop, forward, bound, same⟩ := beyond.exists_drop inside
    refine ⟨stop, forward, ?_, same.symm⟩
    have left := congrArg List.length same
    rw [List.length_cons, List.length_drop] at left
    omega
  case calls =>
    intro reader other start source inside calls
    cases Reader.descends_of_calls calls with
    | further beyond =>
      obtain ⟨place, forward, bound, same⟩ := beyond.exists_drop inside
      exact ⟨place, bound, same, .inl forward⟩
    | lower lower => exact ⟨start, inside, rfl, .inr ⟨rfl, lower⟩⟩

end Positions

/-- Reading moves forward: readers take tokens, and call each other further on or down a ranking. So
the readers that may nest calls only so deep, and do the same work, come to the same end on every
text. -/
theorem reading_progress :
    (∀ tokens, MovesForward tokens) ∧
      (∀ (reader : Reader) source, (reader.work source).answered = reader.read source) ∧
      ∀ text limit, 6 * tokenCount text + 3 < limit →
        parseTypeWithin limit text = some (parseType text) :=
  ⟨movesForward, fun reader _ => reader.answered_work, fun _ _ deep => parseTypeWithin_eq deep⟩

theorem reading_progress_sample :
    MovesForward [.ident "Vec", .punct .less, .ident "T", .punct .greater] ∧
      tokenCount "Vec<T>" = 4 ∧ parseTypeWithin 28 "Vec<T>" = some (parseType "Vec<T>") ∧
      parseTypeWithin 28 "Vec<T>" =
        some (.ok (.path false [.mk "Vec" [.path false [.mk "T" []]]])) := by
  obtain ⟨forward, _, within⟩ := reading_progress
  have counted : tokenCount "Vec<T>" = 4 := by cbv
  have read := within "Vec<T>" 28 (by rw [counted]; decide)
  refine ⟨forward _, counted, read, ?_⟩
  cbv

end DeriveBounds
