import DeriveBounds.Text.Layout
import DeriveBounds.TypeExpr
import DeriveBounds.TypeExpr.Fault

/-!
Reading type expressions from tokens. Every reader returns what it read and the shorter rest, so
reading ends on every token list.
-/
namespace DeriveBounds

/-- Words that begin a kind of type this library does not support. -/
def unsupportedKeywords : List String := ["dyn", "impl", "_"]

/-- Reads one given mark. -/
def readMark (mark : Punct) : (source : List Token) → Except TypeFault (Step source Unit)
  | [] => .error .unexpectedEnd
  | token :: _ =>
    if token = .punct mark then .ok (.one ()) else .error (.expected mark token)

/-- How the closers still expected change over one token. -/
def expectedClosers (closers : List Punct) : Token → List Punct
  | .punct mark =>
    match mark.closer?, closers with
    | some closer, _ => closer :: closers
    | none, top :: below => if mark = top then below else closers
    | none, [] => []
  | _ => closers

/-- Reads tokens up to the first `closing` mark outside the brackets opened on the way, and that
mark; `closers` are the marks that close the brackets open so far. -/
def readRun (closing : Punct) (closers : List Punct) :
    (source : List Token) → Except TypeFault (Step source (List Token))
  | [] => .error (.unclosed closing)
  | token :: rest =>
    if closers = [] ∧ token = .punct closing then .ok (.one [])
    else
      match readRun closing (expectedClosers closers token) rest with
      | .error fault => .error fault
      | .ok run => .ok ((run.map (token :: ·)).behind token)

/-- The text of a run of tokens that has at least one. -/
def readRunText (closing : Punct) (source : List Token) : Except TypeFault (Step source String) :=
  match readRun closing [] source with
  | .error fault => .error fault
  | .ok run =>
    if run.value = [] then .error (.emptyRun closing)
    else .ok (run.map fun tokens => Text.join " " (tokens.map Token.text))

/-- The lifetime and the `mut` that may follow `&`, and what comes after them. -/
structure ReferenceMarks (source : List Token) where
  lifetime : Option String
  mutable : Bool
  rest : List Token
  bound : rest.length ≤ source.length

def referenceMarks (source : List Token) : ReferenceMarks source :=
  match source with
  | .lifetime name :: .ident "mut" :: rest => ⟨some name, true, rest, Nat.le_add_right _ 2⟩
  | .lifetime name :: rest => ⟨some name, false, rest, Nat.le_add_right _ 1⟩
  | .ident "mut" :: rest => ⟨none, true, rest, Nat.le_add_right _ 1⟩
  | rest => ⟨none, false, rest, Nat.le_refl _⟩

/-- One type in parentheses, with no comma behind it, is that type; other lists are tuples. -/
def groupedType : List TypeExpr × Bool → TypeExpr
  | ([element], false) => element
  | (elements, _) => .tuple elements

/-- Reads the length of an array, when there is one, and the closing bracket. -/
def readLength (source : List Token) : Except TypeFault (Step source (Option String)) :=
  match source with
  | .punct .semicolon :: rest => do
    let length ← readRunText .closeBracket rest
    return (length.map some).behind _
  | rest => do
    let close ← readMark .closeBracket rest
    return close.map fun _ => none

mutual

def readType (source : List Token) : Except TypeFault (Step source TypeExpr) :=
  match source with
  | [] => .error .unexpectedEnd
  | .punct .ampersand :: rest => do
    have := (referenceMarks rest).bound
    let inner ← readType (referenceMarks rest).rest
    let type := .reference (referenceMarks rest).lifetime (referenceMarks rest).mutable inner.value
    return ⟨type, inner.rest, by have := inner.shorter; simp only [List.length_cons]; omega⟩
  | [.punct .star] => .error .unexpectedEnd
  | .punct .star :: qualifier :: rest =>
    if qualifier = .ident "const" ∨ qualifier = .ident "mut" then do
      let inner ← readType rest
      return ((inner.map (.pointer (qualifier = .ident "mut"))).behind _).behind _
    else .error (.pointerQualifier qualifier)
  | .punct .openParen :: rest => do
    let items ← readTypes .closeParen rest
    return (items.map groupedType).behind _
  | .punct .openBracket :: rest => do
    let element ← readType rest
    let array ← readLength element.rest
    return (element.after (array.map fun length => .array element.value length)).behind _
  | .punct .less :: rest => do
    let self ← readType rest
    have := self.shorter
    let trait ← readTrait self.rest
    have := trait.bound
    let close ← readMark .greater trait.rest
    have := close.shorter
    let separator ← readMark .pathSep close.rest
    have := separator.shorter
    let segments ← readSegments separator.rest
    return ⟨.qualified self.value trait.value segments.value, segments.rest, by
      have := segments.shorter; simp only [List.length_cons]; omega⟩
  | .punct .pathSep :: rest => do
    let segments ← readSegments rest
    return (segments.map (.path true)).behind _
  | .ident name :: rest =>
    if name = "fn" then do
      let opening ← readMark .openParen rest
      have := opening.shorter
      let params ← readTypes .closeParen opening.rest
      have := params.shorter
      let output ← readOutput params.rest
      return ⟨.fnPointer params.value.1 output.value, output.rest, by
        have := output.bound; simp only [List.length_cons]; omega⟩
    else if unsupportedKeywords.contains name then .error (.unsupported name)
    else do
      let segments ← readSegments (.ident name :: rest)
      return segments.map (.path false)
  | token :: _ => .error (.unexpected token)
termination_by (source.length, 3)

/-- Reads types separated by commas up to the closing mark, and whether a comma came last. -/
def readTypes (closing : Punct) (source : List Token) :
    Except TypeFault (Step source (List TypeExpr × Bool)) :=
  if source.head? = some (.punct closing) then do
    let close ← readMark closing source
    return close.map fun _ => ([], false)
  else do
    let item ← readType source
    match found : item.rest with
    | .punct .comma :: rest =>
      have := item.shorter
      have : rest.length < source.length := by simp_all; omega
      let more ← readTypes closing rest
      return ⟨(item.value :: more.value.1, more.value.1.isEmpty || more.value.2), more.rest, by
        have := more.shorter; omega⟩
    | rest =>
      let close ← readMark closing rest
      return ⟨([item.value], false), close.rest, by
        have := item.shorter; have := close.shorter; simp_all; omega⟩
termination_by (source.length, 4)

/-- Reads the trait of a qualified path, when `as` announces one. -/
def readTrait (source : List Token) : Except TypeFault (Optional source TypeExpr) :=
  match source with
  | .ident "as" :: rest => do
    let path ← readPath rest
    return ⟨some path.value, path.rest, Nat.le_succ_of_le (Nat.le_of_lt path.shorter)⟩
  | rest => return ⟨none, rest, Nat.le_refl _⟩
termination_by (source.length, 3)

/-- Reads the result of a function type, when an arrow announces one. -/
def readOutput (source : List Token) : Except TypeFault (Optional source TypeExpr) :=
  match source with
  | .punct .arrow :: rest => do
    let type ← readType rest
    return ⟨some type.value, type.rest, Nat.le_succ_of_le (Nat.le_of_lt type.shorter)⟩
  | rest => return ⟨none, rest, Nat.le_refl _⟩
termination_by (source.length, 3)

def readPath (source : List Token) : Except TypeFault (Step source TypeExpr) :=
  match source with
  | .punct .pathSep :: rest => do
    let segments ← readSegments rest
    return (segments.map (.path true)).behind _
  | rest => do
    let segments ← readSegments rest
    return segments.map (.path false)
termination_by (source.length, 2)

/-- Reads segments for as long as `::` and an identifier follow. -/
def readSegments (source : List Token) : Except TypeFault (Step source (List Segment)) := do
  let first ← readSegment source
  match found : first.rest with
  | .punct .pathSep :: .ident name :: rest =>
    have := first.shorter
    have : (Token.ident name :: rest).length < source.length := by simp_all; omega
    let more ← readSegments (.ident name :: rest)
    return ⟨first.value :: more.value, more.rest, by have := more.shorter; omega⟩
  | _ => return first.map ([·])
termination_by (source.length, 1)

def readSegment (source : List Token) : Except TypeFault (Step source Segment) :=
  match source with
  | [] => .error .unexpectedEnd
  | .ident name :: .punct .less :: rest => do
    let args ← readArgs rest
    return ((args.map (.mk name)).behind _).behind _
  | .ident name :: _ => return .one (.mk name [])
  | token :: _ => .error (.segment token)
termination_by (source.length, 0)

/-- Reads generic arguments separated by commas up to `>`. -/
def readArgs (source : List Token) : Except TypeFault (Step source (List TypeExpr)) :=
  if source.head? = some (.punct .greater) then do
    let close ← readMark .greater source
    return close.map fun _ => []
  else do
    let arg ← readArg source
    match found : arg.rest with
    | .punct .comma :: rest =>
      have := arg.shorter
      have : rest.length < source.length := by simp_all; omega
      let more ← readArgs rest
      return ⟨arg.value :: more.value, more.rest, by have := more.shorter; omega⟩
    | rest =>
      let close ← readMark .greater rest
      return ⟨[arg.value], close.rest, by
        have := arg.shorter; have := close.shorter; simp_all; omega⟩
termination_by (source.length, 5)

def readArg (source : List Token) : Except TypeFault (Step source TypeExpr) :=
  match source with
  | .lifetime name :: _ => return .one (.lifetime name)
  | .number text :: _ => return .one (.const text)
  | .punct .minus :: .number text :: _ => return .two (.const ("-" ++ text))
  | .punct .openBrace :: rest => do
    let run ← readRunText .closeBrace rest
    return (run.map fun text => .const ("\x7b " ++ text ++ " \x7d")).behind _
  | rest => readType rest
termination_by (source.length, 4)

end

/-- The type a whole text denotes. -/
def parseType (text : String) : Except TypeTextError TypeExpr :=
  match tokenize text with
  | .error error => .error ⟨text, .character error⟩
  | .ok [] => .error ⟨text, .empty⟩
  | .ok tokens =>
    match readType tokens with
    | .error fault => .error ⟨text, fault⟩
    | .ok type =>
      match type.rest with
      | [] => .ok type.value
      | token :: _ => .error ⟨text, .trailing token⟩

end DeriveBounds
