/-!
Why a text is not a document, and where it stops being one.
-/
namespace DeriveBounds.Xml

inductive Problem
  | noElement
  | strayToken
  | invalidToken
  | unclosedToken
  | unclosedCdata
  | mismatchedTag
  | junkAfterRoot
  | duplicateAttribute
  | undefinedEntity
  | invalidCharacterNumber
  | unboundPrefix
  | reservedXmlPrefix
  | reservedXmlnsPrefix
  | reservedNamespace
  | undeclaredPrefix
  | misplacedDeclaration
  | malformedDeclaration
  | parameterEntity
  deriving DecidableEq, Repr

def Problem.text : Problem → String
  | noElement => "no element found"
  | strayToken => "syntax error"
  | invalidToken => "not well-formed (invalid token)"
  | unclosedToken => "unclosed token"
  | unclosedCdata => "unclosed CDATA section"
  | mismatchedTag => "mismatched tag"
  | junkAfterRoot => "junk after document element"
  | duplicateAttribute => "duplicate attribute"
  | undefinedEntity => "undefined entity"
  | invalidCharacterNumber => "reference to invalid character number"
  | unboundPrefix => "unbound prefix"
  | reservedXmlPrefix =>
    "reserved prefix (xml) must not be undeclared or bound to another namespace name"
  | reservedXmlnsPrefix => "reserved prefix (xmlns) must not be declared or undeclared"
  | reservedNamespace => "prefix must not be bound to one of the reserved namespace names"
  | undeclaredPrefix => "must not undeclare prefix"
  | misplacedDeclaration => "XML or text declaration not at start of entity"
  | malformedDeclaration => "XML declaration not well-formed"
  | parameterEntity => "illegal parameter entity reference"

/-- A problem, and how many characters of the text are left where it lies. -/
structure Fault where
  problem : Problem
  left : Nat
  deriving DecidableEq, Repr

/-- Why a piece of markup could not be read to its end: the text ended, or a character does not fit,
with so many characters left from there on. -/
inductive Break
  | ended
  | invalid (left : Nat)
  deriving DecidableEq, Repr

/-- A break, seen from the start of the piece of markup. -/
def Break.fault (start : Nat) : Break → Fault
  | ended => ⟨.unclosedToken, start⟩
  | invalid left => ⟨.invalidToken, left⟩

/-- The line and the column behind some characters; lines count from one, columns from zero. -/
def position (line column : Nat) : List Char → Nat × Nat
  | [] => (line, column)
  | '\r' :: '\n' :: rest => position (line + 1) 0 rest
  | '\r' :: rest => position (line + 1) 0 rest
  | '\n' :: rest => position (line + 1) 0 rest
  | _ :: rest => position line (column + 1) rest

structure DocumentError where
  problem : Problem
  line : Nat
  column : Nat
  deriving DecidableEq, Repr

def DocumentError.message (error : DocumentError) : String :=
  error.problem.text ++ ": line " ++ toString error.line ++ ", column " ++ toString error.column

/-- A fault in a text, by line and column. -/
def Fault.locate (fault : Fault) (text : List Char) : DocumentError :=
  let (line, column) := position 1 0 (text.take (text.length - fault.left))
  ⟨fault.problem, line, column⟩

end DeriveBounds.Xml
