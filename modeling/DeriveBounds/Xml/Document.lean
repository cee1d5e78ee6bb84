import DeriveBounds.Xml.Element
import DeriveBounds.Xml.Prolog

/-!
Documents: text read into a tree of elements. Comments and instructions vanish, and the text around
them is joined.
-/
namespace DeriveBounds.Xml

/-- An element whose end has not been reached; text and children are in reverse. -/
structure OpenElement where
  rawName : String
  tag : String
  attributes : List (String × String)
  scope : Scope
  text : List Char
  children : List Element

namespace OpenElement

/-- The element, once its end is reached. -/
def close (element : OpenElement) : Element where
  tag := element.tag
  attributes := element.attributes
  text := if element.text.isEmpty then none else some (String.ofList element.text.reverse)
  children := element.children.reverse

/-- Adds text. Only the text before the first child is kept. -/
def addText (element : OpenElement) (text : List Char) : OpenElement :=
  if element.children.isEmpty then { element with text := text.reverse ++ element.text }
  else element

def addChild (element : OpenElement) (child : Element) : OpenElement :=
  { element with children := child :: element.children }

/-- The element that a start tag opens inside a scope. -/
def ofTag (start : Nat) (scope : Scope) (name : String) (raws : List RawAttribute) :
    Except Fault OpenElement := do
  let (own, inner) ← readAttributes start [] scope raws
  let attributes ← expandAttributes start inner [] own
  let tag ← expandTag start inner name
  return ⟨name, tag, attributes, inner, [], []⟩

end OpenElement

/-- A piece of the content of an element. -/
inductive Content
  | text (chars : List Char)
  | startTag (name : String) (attributes : List RawAttribute) (closed : Bool)
  | endTag (name : String) (left : Nat)

/-- Reads a piece of content that begins with `<`, behind it. -/
def scanTag (source : List Char) : Except Fault (Step source Content) :=
  let start := source.length + 1
  match source with
  | [] => .error ⟨.unclosedToken, start⟩
  | '!' :: '-' :: rest => do
    let comment ← (scanComment rest).mapError (Break.fault start)
    return ((comment.map fun _ => .text []).behind _).behind _
  | '!' :: '[' :: rest => do
    let mark ← (scanCdataMark rest).mapError (Break.fault start)
    let text ← scanCdataText mark.rest
    return ((mark.after (text.map .text)).behind _).behind _
  | ['!'] => .error ⟨.unclosedToken, start⟩
  | '!' :: rest => .error ⟨.invalidToken, rest.length⟩
  | '?' :: rest => do
    let instruction ← (scanInstruction rest).mapError (Break.fault start)
    match instruction.value with
    | .processing => return (instruction.map fun _ => .text []).behind _
    | .declaration .. => throw ⟨.misplacedDeclaration, start⟩
  | '/' :: rest => do
    let name ← (scanEndTag rest).mapError (Break.fault start)
    return (name.map fun name => .endTag name rest.length).behind _
  | c :: rest =>
    if isNameStart c then do
      let name ← (scanQualifiedName c rest).mapError (Break.fault start)
      let tag ← (scanAttributes name.rest).mapError (Break.fault start)
      return name.after (tag.map fun (raws, closed) => .startTag name.value raws closed)
    else .error ⟨.invalidToken, (c :: rest).length⟩

/-- Reads a piece of content. Line breaks are line feeds in the result. -/
def scanContent (first : Char) (cs : List Char) : Except Fault (Step (first :: cs) Content) :=
  match first, cs with
  | '<', cs => do
    let tag ← scanTag cs
    return tag.behind _
  | '&', cs => do
    let start := cs.length + 1
    let target ← (scanReference cs).mapError (Break.fault start)
    let c ← target.value.resolve start start
    return (target.map fun _ => .text [c]).behind _
  | '\r', [] => .error ⟨.noElement, 1⟩
  | '\r', '\n' :: _ => .ok (.two (.text ['\n']))
  | '\r', _ => .ok (.one (.text ['\n']))
  | ']', [] => .error ⟨.noElement, 0⟩
  | ']', [']'] => .error ⟨.noElement, 0⟩
  | ']', ']' :: '>' :: rest => .error ⟨.invalidToken, rest.length + 1⟩
  | c, cs =>
    if isXmlChar c then .ok (.one (.text [c])) else .error ⟨.invalidToken, (c :: cs).length⟩

/-- Reads up to the end of the root: `element` is open, and so are those around it. -/
def readContent (element : OpenElement) (around : List OpenElement) (source : List Char) :
    Except Fault (Element × List Char) :=
  match source with
  | [] => .error ⟨.noElement, 0⟩
  | first :: cs =>
    match scanContent first cs with
    | .error fault => .error fault
    | .ok step =>
      match step.value with
      | .text chars => readContent (element.addText chars) around step.rest
      | .startTag name raws closed =>
        match OpenElement.ofTag (first :: cs).length element.scope name raws with
        | .error fault => .error fault
        | .ok child =>
          if closed then readContent (element.addChild child.close) around step.rest
          else readContent child (element :: around) step.rest
      | .endTag name left =>
        if name ≠ element.rawName then .error ⟨.mismatchedTag, left⟩
        else
          match around with
          | [] => .ok (element.close, step.rest)
          | parent :: others => readContent (parent.addChild element.close) others step.rest
termination_by source.length
decreasing_by all_goals exact step.shorter

/-- Reads the root element, which begins here. -/
def readRoot (source : List Char) : Except Fault (Element × List Char) :=
  match source with
  | [] => .error ⟨.noElement, 0⟩
  | first :: cs => do
    let step ← scanContent first cs
    match step.value with
    | .startTag name raws closed =>
      let root ← OpenElement.ofTag source.length initialScope name raws
      if closed then return (root.close, step.rest)
      else readContent root [] step.rest
    | _ => throw ⟨.noElement, source.length⟩

/-- Reads what comes before the root. A declaration may only stand at the very beginning. -/
def skipProlog (atStart : Bool) (source : List Char) : Except Fault (List Char) :=
  match source with
  | [] => .error ⟨.noElement, 0⟩
  | first :: cs =>
    match scanOutside first cs with
    | .error fault => .error fault
    | .ok step =>
      match step.value with
      | .space | .instruction => skipProlog false step.rest
      | .declaration text after =>
        if atStart then
          match checkDeclaration text with
          | .ok () => skipProlog false step.rest
          | .error left => .error ⟨.malformedDeclaration, left.length + 2 + after⟩
        else .error ⟨.misplacedDeclaration, (first :: cs).length⟩
      | .stray .plain => .error ⟨.strayToken, (first :: cs).length⟩
      | .stray .parameterEntity => .error ⟨.parameterEntity, (first :: cs).length⟩
      | .root => .ok (first :: cs)
termination_by source.length
decreasing_by all_goals exact step.shorter

/-- Checks what comes after the root. -/
def checkEpilog (source : List Char) : Except Fault Unit :=
  match source with
  | [] => .ok ()
  | first :: cs =>
    match scanOutside first cs with
    | .error fault => .error fault
    | .ok step =>
      match step.value with
      | .space | .instruction => checkEpilog step.rest
      | .declaration .. | .stray _ | .root => .error ⟨.junkAfterRoot, (first :: cs).length⟩
termination_by source.length
decreasing_by all_goals exact step.shorter

/-- A null character alone could begin a document in wider characters, so it is not closed. -/
def readChars (source : List Char) : Except Fault Element := do
  if source = ['\x00'] then throw ⟨.unclosedToken, 1⟩
  let start ← skipProlog true source
  let (root, rest) ← readRoot start
  checkEpilog rest
  return root

/-- The root element of a document. A byte order mark before it is skipped. -/
def readDocument (text : String) : Except DocumentError Element :=
  let chars := text.toList
  let source := match chars with
    | '\ufeff' :: rest => rest
    | chars => chars
  (readChars source).mapError fun fault => fault.locate chars

end DeriveBounds.Xml
