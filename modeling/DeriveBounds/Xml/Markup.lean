import DeriveBounds.Step
import DeriveBounds.Xml.Fault
import DeriveBounds.Xml.NameChar

/-!
Pieces of markup: references, tags, comments, instructions and character data sections.
-/
namespace DeriveBounds.Xml

/-- What may stand between `&` and `;`. -/
inductive Reference
  | entity (name : String)
  | character (code : Nat)
  deriving DecidableEq, Repr

def digitValue (c : Char) : Nat :=
  if c.isDigit then c.toNat - 48 else c.toLower.toNat - 87

def isHexDigit (c : Char) : Bool :=
  c.isDigit || ('a' ≤ c.toLower && c.toLower ≤ 'f')

/-- The number that digits denote. -/
def digitsValue (base : Nat) (digits : List Char) : Nat :=
  digits.foldl (fun value digit => value * base + digitValue digit) 0

/-- Reads the semicolon that ends a reference. -/
def scanSemicolon : (source : List Char) → Except Break (Step source Unit)
  | [] => .error .ended
  | c :: rest => if c = ';' then .ok (.one ()) else .error (.invalid (c :: rest).length)

/-- Reads the digits of a character number and the semicolon. -/
def scanNumber (base : Nat) (isDigit : Char → Bool) :
    (source : List Char) → Except Break (Step source Reference)
  | [] => .error .ended
  | c :: rest =>
    if isDigit c then do
      let digits := Step.span isDigit c rest
      let semicolon ← scanSemicolon digits.rest
      return digits.after (semicolon.map fun _ => .character (digitsValue base digits.value))
    else .error (.invalid (c :: rest).length)

/-- Reads a reference behind its `&`. -/
def scanReference : (source : List Char) → Except Break (Step source Reference)
  | [] => .error .ended
  | '#' :: 'x' :: rest => do
    let number ← scanNumber 16 isHexDigit rest
    return (number.behind _).behind _
  | '#' :: rest => do
    let number ← scanNumber 10 Char.isDigit rest
    return number.behind _
  | c :: rest =>
    if isNameStart c then do
      let name := Step.span isNameChar c rest
      let semicolon ← scanSemicolon name.rest
      return name.after (semicolon.map fun _ => .entity (String.ofList name.value))
    else .error (.invalid (c :: rest).length)

/-- A part of an attribute value; a reference keeps how many characters were left at its `&`. -/
inductive ValuePart
  | char (c : Char)
  | reference (target : Reference) (left : Nat)

/-- An attribute as written; `left` counts the characters from its name on. -/
structure RawAttribute where
  name : String
  value : List ValuePart
  left : Nat

/-- Reads a name with at most one colon, which a letter follows. -/
def scanQualifiedName (first : Char) (cs : List Char) :
    Except Break (Step (first :: cs) String) :=
  let name := Step.span isNameChar first cs
  match found : name.rest with
  | [':'] => .error .ended
  | ':' :: c :: rest =>
    if isNameStart c then
      let second := Step.span isNameChar c rest
      .ok ⟨String.ofList (name.value ++ ':' :: second.value), second.rest, by
        have := second.shorter; have := name.shorter; simp_all; omega⟩
    else .error (.invalid (c :: rest).length)
  | _ => .ok (name.map String.ofList)

/-- Reads one given character. -/
def scanChar (wanted : Char) : (source : List Char) → Except Break (Step source Unit)
  | [] => .error .ended
  | c :: rest =>
    if c = wanted then .ok (.one ()) else .error (.invalid (c :: rest).length)

/-- Reads one given character, with spaces before it. -/
def scanSpacedChar (wanted : Char) : (source : List Char) → Except Break (Step source Unit)
  | [] => .error .ended
  | c :: rest =>
    if isXmlSpace c then do
      let found ← scanSpacedChar wanted rest
      return found.behind c
    else scanChar wanted (c :: rest)

/-- Reads an opening quote, with spaces before it. -/
def scanQuote : (source : List Char) → Except Break (Step source Char)
  | [] => .error .ended
  | c :: rest =>
    if c = '"' ∨ c = '\x27' then .ok (.one c)
    else if isXmlSpace c then do
      let quote ← scanQuote rest
      return quote.behind c
    else .error (.invalid (c :: rest).length)

/-- Reads an attribute value up to its closing quote. -/
def scanValue (quote : Char) (source : List Char) :
    Except Break (Step source (List ValuePart)) :=
  match source with
  | [] => .error .ended
  | c :: rest =>
    if c = quote then .ok (.one [])
    else if c = '&' then do
      let target ← scanReference rest
      have := target.shorter
      let value ← scanValue quote target.rest
      let part := .reference target.value (c :: rest).length
      return (target.after (value.map (part :: ·))).behind c
    else if c = '<' ∨ !isXmlChar c then .error (.invalid (c :: rest).length)
    else do
      let value ← scanValue quote rest
      return (value.map (.char c :: ·)).behind c
termination_by source.length

def scanAttribute (first : Char) (cs : List Char) :
    Except Break (Step (first :: cs) RawAttribute) := do
  let name ← scanQualifiedName first cs
  let equals ← scanSpacedChar '=' name.rest
  let quote ← scanQuote equals.rest
  let value ← scanValue quote.value quote.rest
  let raw := value.map fun parts => ⟨name.value, parts, (first :: cs).length⟩
  return name.after (equals.after (quote.after raw))

/-- Reads an attribute, if a name begins here. -/
def scanAttribute? (source : List Char) : Except Break (Option (Step source RawAttribute)) :=
  match source with
  | [] => .ok none
  | c :: rest =>
    if isNameStart c then do
      let raw ← scanAttribute c rest
      return some raw
    else .ok none

/-- Reads the attributes of a start tag and its end, and whether it closes the element as well. -/
def scanAttributes (source : List Char) :
    Except Break (Step source (List RawAttribute × Bool)) :=
  match source with
  | [] => .error .ended
  | '>' :: _ => .ok (.one ([], false))
  | '/' :: rest => do
    let close ← scanChar '>' rest
    return (close.map fun _ => ([], true)).behind _
  | c :: rest =>
    if isXmlSpace c then do
      let spaces := Step.span isXmlSpace c rest
      match ← scanAttribute? spaces.rest with
      | some raw =>
        let others ← scanAttributes raw.rest
        let both := others.map fun (raws, closed) => (raw.value :: raws, closed)
        return spaces.after (raw.after both)
      | none =>
        let others ← scanAttributes spaces.rest
        return spaces.after others
    else .error (.invalid (c :: rest).length)
termination_by source.length
decreasing_by
  · exact (spaces.after raw).shorter
  · exact spaces.shorter

/-- Reads an end tag behind `</`. The colons in its name are not checked: it has to repeat the name
of the start tag. -/
def scanEndTag : (source : List Char) → Except Break (Step source String)
  | [] => .error .ended
  | c :: rest =>
    if isNameStart c then do
      let name := Step.span (fun c => isNameChar c || c == ':') c rest
      let close ← scanSpacedChar '>' name.rest
      return name.after (close.map fun _ => String.ofList name.value)
    else .error (.invalid (c :: rest).length)

/-- Reads a comment behind `<!--`. Two hyphens inside must be its end. -/
def scanCommentText : (source : List Char) → Except Break (Step source Unit)
  | [] => .error .ended
  | ['-'] => .error .ended
  | ['-', '-'] => .error .ended
  | '-' :: '-' :: c :: rest =>
    if c = '>' then .ok (.three ()) else .error (.invalid (c :: rest).length)
  | c :: rest =>
    if isXmlChar c then do
      let tail ← scanCommentText rest
      return tail.behind c
    else .error (.invalid (c :: rest).length)

/-- Reads a comment behind `<!-`. -/
def scanComment (source : List Char) : Except Break (Step source Unit) := do
  let hyphen ← scanChar '-' source
  let text ← scanCommentText hyphen.rest
  return hyphen.after text

/-- Reads the text of an instruction up to `?>`. -/
def scanInstructionText : (source : List Char) → Except Break (Step source (List Char))
  | [] => .error .ended
  | ['?'] => .error .ended
  | '?' :: '>' :: _ => .ok (.two [])
  | c :: rest =>
    if isXmlChar c then do
      let text ← scanInstructionText rest
      return (text.map (c :: ·)).behind c
    else .error (.invalid (c :: rest).length)

/-- A processing instruction, or the declaration that may open a document: its text with what is
left behind `?>`. -/
inductive Instruction
  | processing
  | declaration (text : List Char) (after : Nat)

/-- Whether a target is `xml` in some spelling; only the plain one may be used. -/
def isXmlTarget (target : List Char) : Bool :=
  target.map Char.toLower == ['x', 'm', 'l']

/-- Reads an instruction behind `<?`. -/
def scanInstruction : (source : List Char) → Except Break (Step source Instruction)
  | [] => .error .ended
  | c :: rest =>
    if isNameStart c then
      let target := Step.span isNameChar c rest
      match found : target.rest with
      | [] => .error .ended
      | d :: ds =>
        if !(isXmlSpace d || d == '?') then .error (.invalid (d :: ds).length)
        else if isXmlTarget target.value && target.value != ['x', 'm', 'l'] then
          .error (.invalid (d :: ds).length)
        else do
          let text ←
            if d = '?' then scanEmptyInstruction (d :: ds) else scanInstructionText (d :: ds)
          let value := if isXmlTarget target.value then .declaration text.value text.rest.length
            else .processing
          return ⟨value, text.rest, by
            have := text.shorter; have := target.shorter; simp only [found] at *; omega⟩
    else .error (.invalid (c :: rest).length)
where
  /-- Behind a target a question mark must end the instruction. -/
  scanEmptyInstruction : (source : List Char) → Except Break (Step source (List Char))
    | [] => .error .ended
    | c :: rest => do
      let close ← scanChar '>' rest
      return (close.map fun _ => []).behind c

/-- Reads the marks `CDATA[` behind `<![`. They are looked at once there are six more bytes. -/
def scanCdataMark (source : List Char) : Except Break (Step source Unit) :=
  if (String.ofList (source.take 6)).utf8ByteSize < 6 then .error .ended
  else do
    let a ← scanChar 'C' source
    let b ← scanChar 'D' a.rest
    let c ← scanChar 'A' b.rest
    let d ← scanChar 'T' c.rest
    let e ← scanChar 'A' d.rest
    let f ← scanChar '[' e.rest
    return a.after (b.after (c.after (d.after (e.after f))))

/-- Reads the text of a character data section up to `]]>`. -/
def scanCdataText (source : List Char) : Except Fault (Step source (List Char)) :=
  match source with
  | [] => .error ⟨.unclosedCdata, 0⟩
  | [']'] => .error ⟨.unclosedCdata, 1⟩
  | [']', ']'] => .error ⟨.unclosedCdata, 2⟩
  | ['\r'] => .error ⟨.unclosedCdata, 1⟩
  | ']' :: ']' :: '>' :: _ => .ok (.three [])
  | '\r' :: '\n' :: rest => do
    let text ← scanCdataText rest
    return ((text.map ('\n' :: ·)).behind _).behind _
  | '\r' :: rest => do
    let text ← scanCdataText rest
    return (text.map ('\n' :: ·)).behind _
  | c :: rest =>
    if isXmlChar c then do
      let text ← scanCdataText rest
      return (text.map (c :: ·)).behind c
    else .error ⟨.invalidToken, (c :: rest).length⟩

end DeriveBounds.Xml
