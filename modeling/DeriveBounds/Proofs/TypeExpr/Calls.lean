import DeriveBounds.Proofs.Outcome
import DeriveBounds.TypeExpr.Parser

/-!
The readers of types with their calls in the open. What a reader does at a source is laid out as
work: calls of readers, each with what is made of its answer, and an outcome in the end. The same
work is done by the readers, and by readers that may nest calls only so deep.
-/
namespace DeriveBounds

/-- The readers that call each other. -/
inductive Reader
  | type
  | types (closing : Punct)
  | trait
  | output
  | path
  | segments
  | segment
  | args
  | arg

/-- What a reader reads. -/
abbrev Reader.Result : Reader → Type
  | type | path | arg => TypeExpr
  | types _ => List TypeExpr × Bool
  | trait | output => Option TypeExpr
  | segments => List Segment
  | segment => Segment
  | args => List TypeExpr

/-- The answer of a reader: what it read, and what follows that. -/
structure Answer (α : Type) where
  value : α
  rest : List Token

def Step.answer {source : List Token} (step : Step source α) : Answer α :=
  ⟨step.value, step.rest⟩

def Optional.answer {source : List Token} (found : Optional source α) : Answer (Option α) :=
  ⟨found.value, found.rest⟩

def Reader.read : (reader : Reader) → List Token → Except TypeFault (Answer reader.Result)
  | .type, source => (readType source).map Step.answer
  | .types closing, source => (readTypes closing source).map Step.answer
  | .trait, source => (readTrait source).map Optional.answer
  | .output, source => (readOutput source).map Optional.answer
  | .path, source => (readPath source).map Step.answer
  | .segments, source => (readSegments source).map Step.answer
  | .segment, source => (readSegment source).map Step.answer
  | .args, source => (readArgs source).map Step.answer
  | .arg, source => (readArg source).map Step.answer

/-- Work that is done, or that begins with a call and goes on with the answer to it. -/
inductive Work (α : Type) where
  | done (outcome : Except TypeFault (Answer α))
  | call (reader : Reader) (source : List Token) (next : Answer reader.Result → Work α)

namespace Work

def give (value : α) (rest : List Token) : Work α := .done (.ok ⟨value, rest⟩)

def fail (fault : TypeFault) : Work α := .done (.error fault)

/-- Work behind something that takes no calls. -/
def after (outcome : Except TypeFault β) (next : β → Work α) : Work α :=
  match outcome with
  | .ok value => next value
  | .error fault => fail fault

/-- What work comes to with the answers of the readers. -/
def answered : Work α → Except TypeFault (Answer α)
  | .done outcome => outcome
  | .call reader source next => do
    let answer ← reader.read source
    (next answer).answered

/-- What work comes to with answers from elsewhere, which may be missing. -/
def answeredBy
    (read : (reader : Reader) → List Token → Option (Except TypeFault (Answer reader.Result))) :
    Work α → Option (Except TypeFault (Answer α))
  | .done outcome => some outcome
  | .call reader source next =>
    match read reader source with
    | none => none
    | some (.error fault) => some (.error fault)
    | some (.ok answer) => (next answer).answeredBy read

/-- The calls that work takes. There is a later one only where those before it are answered. -/
inductive Takes (other : Reader) (place : List Token) : Work α → Prop where
  | first {next : Answer other.Result → Work α} : Takes other place (.call other place next)
  | later {next : Answer reader.Result → Work α} {answer : Answer reader.Result}
      (answered : reader.read source = .ok answer) (takes : Takes other place (next answer)) :
      Takes other place (.call reader source next)

end Work

def typeWork : List Token → Work TypeExpr
  | [] => .fail .unexpectedEnd
  | .punct .ampersand :: rest =>
    .call .type (referenceMarks rest).rest fun inner =>
      .give (.reference (referenceMarks rest).lifetime (referenceMarks rest).mutable inner.value)
        inner.rest
  | [.punct .star] => .fail .unexpectedEnd
  | .punct .star :: qualifier :: rest =>
    if qualifier = .ident "const" ∨ qualifier = .ident "mut" then
      .call .type rest fun inner =>
        .give (.pointer (qualifier = .ident "mut") inner.value) inner.rest
    else .fail (.pointerQualifier qualifier)
  | .punct .openParen :: rest =>
    .call (.types .closeParen) rest fun items => .give (groupedType items.value) items.rest
  | .punct .openBracket :: rest =>
    .call .type rest fun element =>
    .after (readLength element.rest) fun array =>
      .give (.array element.value array.value) array.rest
  | .punct .less :: rest =>
    .call .type rest fun self =>
    .call .trait self.rest fun trait =>
    .after (readMark .greater trait.rest) fun close =>
    .after (readMark .pathSep close.rest) fun separator =>
    .call .segments separator.rest fun segments =>
      .give (.qualified self.value trait.value segments.value) segments.rest
  | .punct .pathSep :: rest =>
    .call .segments rest fun segments => .give (.path true segments.value) segments.rest
  | .ident name :: rest =>
    if name = "fn" then
      .after (readMark .openParen rest) fun opening =>
      .call (.types .closeParen) opening.rest fun params =>
      .call .output params.rest fun output =>
        .give (.fnPointer params.value.1 output.value) output.rest
    else if unsupportedKeywords.contains name then .fail (.unsupported name)
    else
      .call .segments (.ident name :: rest) fun segments =>
        .give (.path false segments.value) segments.rest
  | token :: _ => .fail (.unexpected token)

def typesWork (closing : Punct) (source : List Token) : Work (List TypeExpr × Bool) :=
  if source.head? = some (.punct closing) then
    .after (readMark closing source) fun close => .give ([], false) close.rest
  else
    .call .type source fun item =>
      match item.rest with
      | .punct .comma :: rest =>
        .call (.types closing) rest fun more =>
          .give (item.value :: more.value.1, more.value.1.isEmpty || more.value.2) more.rest
      | rest => .after (readMark closing rest) fun close => .give ([item.value], false) close.rest

def traitWork : List Token → Work (Option TypeExpr)
  | .ident "as" :: rest => .call .path rest fun path => .give (some path.value) path.rest
  | rest => .give none rest

def outputWork : List Token → Work (Option TypeExpr)
  | .punct .arrow :: rest => .call .type rest fun type => .give (some type.value) type.rest
  | rest => .give none rest

def pathWork : List Token → Work TypeExpr
  | .punct .pathSep :: rest =>
    .call .segments rest fun segments => .give (.path true segments.value) segments.rest
  | rest => .call .segments rest fun segments => .give (.path false segments.value) segments.rest

def segmentsWork (source : List Token) : Work (List Segment) :=
  .call .segment source fun first =>
    match first.rest with
    | .punct .pathSep :: .ident name :: rest =>
      .call .segments (.ident name :: rest) fun more => .give (first.value :: more.value) more.rest
    | rest => .give [first.value] rest

def segmentWork : List Token → Work Segment
  | [] => .fail .unexpectedEnd
  | .ident name :: .punct .less :: rest =>
    .call .args rest fun args => .give (.mk name args.value) args.rest
  | .ident name :: rest => .give (.mk name []) rest
  | token :: _ => .fail (.segment token)

def argsWork (source : List Token) : Work (List TypeExpr) :=
  if source.head? = some (.punct .greater) then
    .after (readMark .greater source) fun close => .give [] close.rest
  else
    .call .arg source fun arg =>
      match arg.rest with
      | .punct .comma :: rest =>
        .call .args rest fun more => .give (arg.value :: more.value) more.rest
      | rest => .after (readMark .greater rest) fun close => .give [arg.value] close.rest

def argWork : List Token → Work TypeExpr
  | .lifetime name :: rest => .give (.lifetime name) rest
  | .number text :: rest => .give (.const text) rest
  | .punct .minus :: .number text :: rest => .give (.const ("-" ++ text)) rest
  | .punct .openBrace :: rest =>
    .after (readRunText .closeBrace rest) fun run =>
      .give (.const ("\x7b " ++ run.value ++ " \x7d")) run.rest
  | rest => .call .type rest fun type => .give type.value type.rest

namespace Reader

/-- What a reader does at a source. -/
def work : (reader : Reader) → List Token → Work reader.Result
  | type => typeWork
  | types closing => typesWork closing
  | trait => traitWork
  | output => outputWork
  | path => pathWork
  | segments => segmentsWork
  | segment => segmentWork
  | args => argsWork
  | arg => argWork

/-- The reader at its source calls the other at another one. -/
def Calls (reader : Reader) (source : List Token) (other : Reader) (place : List Token) : Prop :=
  (reader.work source).Takes other place

/-- The same readers where calls may be nested only so deep. -/
def readWithin :
    Nat → (reader : Reader) → List Token → Option (Except TypeFault (Answer reader.Result))
  | 0, _, _ => none
  | depth + 1, reader, source => (reader.work source).answeredBy (readWithin depth)

end Reader

/-- The type a text denotes, read by calls that may be nested only so deep. -/
def parseTypeWithin (depth : Nat) (text : String) : Option (Except TypeTextError TypeExpr) :=
  match tokenize text with
  | .error error => some (.error ⟨text, .character error⟩)
  | .ok [] => some (.error ⟨text, .empty⟩)
  | .ok tokens =>
    match Reader.type.readWithin depth tokens with
    | none => none
    | some (.error fault) => some (.error ⟨text, fault⟩)
    | some (.ok ⟨type, []⟩) => some (.ok type)
    | some (.ok ⟨_, token :: _⟩) => some (.error ⟨text, .trailing token⟩)

variable {source : List Token}

namespace Work

@[simp] theorem answered_give {value : α} : (give value source).answered = .ok ⟨value, source⟩ :=
  rfl

@[simp] theorem answered_fail {fault : TypeFault} :
    (fail fault : Work α).answered = .error fault := rfl

@[simp] theorem answered_call {reader : Reader} {next : Answer reader.Result → Work α} :
    (call reader source next).answered =
      reader.read source >>= fun answer => (next answer).answered := rfl

@[simp] theorem answered_after {outcome : Except TypeFault β} {next : β → Work α} :
    (after outcome next).answered = outcome >>= fun value => (next value).answered := by
  cases outcome <;> rfl

end Work

section Readers

theorem answered_typeWork : (typeWork source).answered = (readType source).map Step.answer := by
  -- each case of the work is an equation of the reader
  fun_cases typeWork source
  all_goals
    rw [readType.eq_def]
    simp only [*, ↓reduceIte, Bool.false_eq_true, Work.answered_give, Work.answered_fail,
      Work.answered_call, Work.answered_after, Reader.read, bind_map_eq, map_bind_eq]
    rfl

theorem answered_typesWork {closing : Punct} :
    (typesWork closing source).answered = (readTypes closing source).map Step.answer := by
  rw [readTypes, typesWork]
  split
  · simp only [Work.answered_after, map_bind_eq]
    rfl
  · rw [Work.answered_call, Reader.read, bind_map_eq, map_bind_eq]
    congr 1
    funext ⟨item, rest, shorter⟩
    dsimp only [Step.answer]
    split
    all_goals
      simp only [Work.answered_call, Work.answered_after, Reader.read, bind_map_eq, map_bind_eq]
      rfl

theorem answered_traitWork :
    (traitWork source).answered = (readTrait source).map Optional.answer := by
  fun_cases traitWork source
  all_goals
    rw [readTrait.eq_def]
    simp only [*, Work.answered_give, Work.answered_call, Reader.read, bind_map_eq, map_bind_eq]
    rfl

theorem answered_outputWork :
    (outputWork source).answered = (readOutput source).map Optional.answer := by
  fun_cases outputWork source
  all_goals
    rw [readOutput.eq_def]
    simp only [*, Work.answered_give, Work.answered_call, Reader.read, bind_map_eq, map_bind_eq]
    rfl

theorem answered_pathWork : (pathWork source).answered = (readPath source).map Step.answer := by
  fun_cases pathWork source
  all_goals
    rw [readPath.eq_def]
    simp only [*, Work.answered_call, Reader.read, bind_map_eq, map_bind_eq]
    rfl

theorem answered_segmentsWork :
    (segmentsWork source).answered = (readSegments source).map Step.answer := by
  rw [readSegments, segmentsWork, Work.answered_call, Reader.read, bind_map_eq, map_bind_eq]
  congr 1
  funext ⟨first, rest, shorter⟩
  dsimp only [Step.answer]
  split
  · simp only [Work.answered_call, Reader.read, bind_map_eq, map_bind_eq]
    rfl
  · simp only [Work.answered_give]
    rfl

theorem answered_segmentWork :
    (segmentWork source).answered = (readSegment source).map Step.answer := by
  fun_cases segmentWork source
  all_goals
    rw [readSegment.eq_def]
    simp only [*, Work.answered_give, Work.answered_fail, Work.answered_call, Reader.read,
      bind_map_eq, map_bind_eq]
    rfl

theorem answered_argsWork : (argsWork source).answered = (readArgs source).map Step.answer := by
  rw [readArgs, argsWork]
  split
  · simp only [Work.answered_after, map_bind_eq]
    rfl
  · rw [Work.answered_call, Reader.read, bind_map_eq, map_bind_eq]
    congr 1
    funext ⟨arg, rest, shorter⟩
    dsimp only [Step.answer]
    split
    all_goals
      simp only [Work.answered_call, Work.answered_after, Reader.read, bind_map_eq, map_bind_eq]
      rfl

theorem answered_argWork : (argWork source).answered = (readArg source).map Step.answer := by
  fun_cases argWork source
  all_goals
    rw [readArg.eq_def]
    simp only [*, Work.answered_give, Work.answered_call, Work.answered_after, Reader.read,
      bind_map_eq, map_bind_eq]
    rfl

/-- The readers do the work that is laid out for them. -/
theorem Reader.answered_work (reader : Reader) :
    (reader.work source).answered = reader.read source := by
  cases reader with
  | type => exact answered_typeWork
  | types => exact answered_typesWork
  | trait => exact answered_traitWork
  | output => exact answered_outputWork
  | path => exact answered_pathWork
  | segments => exact answered_segmentsWork
  | segment => exact answered_segmentWork
  | args => exact answered_argsWork
  | arg => exact answered_argWork

end Readers

/-- What is missing of the answers to its calls is all that work can miss. -/
theorem Work.answeredBy_eq
    {read : (reader : Reader) → List Token → Option (Except TypeFault (Answer reader.Result))}
    {work : Work α}
    (answers : ∀ other place, work.Takes other place → read other place = some (other.read place)) :
    work.answeredBy read = some work.answered := by
  induction work with
  | done outcome => rfl
  | call reader source next ih =>
    rw [answeredBy, answers reader source .first, answered_call]
    cases answered : reader.read source with
    | error fault => rfl
    | ok answer =>
      exact ih answer fun other place takes => answers other place (.later answered takes)

end DeriveBounds
