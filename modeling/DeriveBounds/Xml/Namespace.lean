import DeriveBounds.Xml.Markup

/-!
Names in namespaces. A start tag is taken apart into the namespaces it declares, its attributes and
its own name; a name in a namespace reads `{uri}local`, with the braces.
-/
namespace DeriveBounds.Xml

/-- The namespaces in scope, the innermost first; the empty name stands for the default one, and an
empty address for none. -/
abbrev Scope := List (String × String)

def xmlNamespace : String := "http://www.w3.org/XML/1998/namespace"

def xmlnsNamespace : String := "http://www.w3.org/2000/xmlns/"

def initialScope : Scope := [("xml", xmlNamespace)]

/-- A name with the part before its colon, when it has one. -/
def splitName (name : String) : Option String × String :=
  match name.toList.span (· ≠ ':') with
  | (before, _ :: after) => (some (String.ofList before), String.ofList after)
  | (_, []) => (none, name)

def expandedName (uri localName : String) : String :=
  "\x7b" ++ uri ++ "\x7d" ++ localName

/-- Which namespace name, if any, an attribute declares. -/
def declaredPrefix? (name : String) : Option String :=
  match splitName name with
  | (none, "xmlns") => some ""
  | (some "xmlns", localName) => some localName
  | _ => none

/-- What is wrong with binding a name to an address, if anything. -/
def bindingProblem? (name uri : String) : Option Problem :=
  if uri = "" ∧ name ≠ "" then some .undeclaredPrefix
  else if name = "xmlns" then some .reservedXmlnsPrefix
  else if uri.toList.contains '\x7d' then some .strayToken
  else if name = "xml" ∧ uri ≠ xmlNamespace then some .reservedXmlPrefix
  else if name ≠ "xml" ∧ uri = xmlNamespace then some .reservedNamespace
  else if uri = xmlnsNamespace then some .reservedNamespace
  else none

def predefinedEntity? : String → Option Char
  | "lt" => some '<'
  | "gt" => some '>'
  | "amp" => some '&'
  | "quot" => some '"'
  | "apos" => some '\x27'
  | _ => none

/-- The character with a number, where there is one that a document may hold. -/
def numberedChar? (code : Nat) : Option Char :=
  if code < 0x110000 ∧ ¬ (0xd800 ≤ code ∧ code ≤ 0xdfff) ∧ isXmlChar (Char.ofNat code) then
    some (Char.ofNat code)
  else none

/-- The character a reference stands for. A bad number is reported where the reference is, an
unknown entity at `unknownAt`. -/
def Reference.resolve (left unknownAt : Nat) : Reference → Except Fault Char
  | entity name =>
    match predefinedEntity? name with
    | some c => .ok c
    | none => .error ⟨.undefinedEntity, unknownAt⟩
  | character code =>
    match numberedChar? code with
    | some c => .ok c
    | none => .error ⟨.invalidCharacterNumber, left⟩

/-- The value of an attribute: references resolved, and each literal break or tab a space. -/
def attributeValue (start : Nat) : List ValuePart → Except Fault (List Char)
  | [] => .ok []
  | .char '\r' :: .char '\n' :: rest => do return ' ' :: (← attributeValue start rest)
  | .char c :: rest => do return (if isXmlSpace c then ' ' else c) :: (← attributeValue start rest)
  | .reference target left :: rest => do
    let c ← target.resolve left start
    return c :: (← attributeValue start rest)

/-- The attributes of a tag that declare no namespace, in order, and the scope inside the tag. -/
def readAttributes (start : Nat) (seen : List String) (scope : Scope) :
    List RawAttribute → Except Fault (List (String × String) × Scope)
  | [] => .ok ([], scope)
  | raw :: rest => do
    if seen.contains raw.name then throw ⟨.duplicateAttribute, raw.left⟩
    let value := String.ofList (← attributeValue start raw.value)
    match declaredPrefix? raw.name with
    | some declared =>
      if let some problem := bindingProblem? declared value then throw ⟨problem, start⟩
      readAttributes start (raw.name :: seen) ((declared, value) :: scope) rest
    | none =>
      let (others, inner) ← readAttributes start (raw.name :: seen) scope rest
      return ((raw.name, value) :: others, inner)

/-- The address a prefix is bound to. -/
def lookupUri (start : Nat) (scope : Scope) (before : String) : Except Fault String :=
  match scope.lookup before with
  | some uri => .ok uri
  | none => .error ⟨.unboundPrefix, start⟩

/-- Attributes under their full names. Without a prefix an attribute is in no namespace. -/
def expandAttributes (start : Nat) (scope : Scope) (expanded : List String) :
    List (String × String) → Except Fault (List (String × String))
  | [] => .ok []
  | (name, value) :: rest =>
    match splitName name with
    | (none, _) => do return (name, value) :: (← expandAttributes start scope expanded rest)
    | (some before, localName) => do
      let full := expandedName (← lookupUri start scope before) localName
      if expanded.contains full then throw ⟨.duplicateAttribute, start⟩
      return (full, value) :: (← expandAttributes start scope (full :: expanded) rest)

/-- The full name of an element. Without a prefix it is in the default namespace. -/
def expandTag (start : Nat) (scope : Scope) (name : String) : Except Fault String :=
  match splitName name with
  | (none, _) =>
    match scope.lookup "" with
    | none | some "" => .ok name
    | some uri => .ok (expandedName uri name)
  | (some before, localName) => do return expandedName (← lookupUri start scope before) localName

end DeriveBounds.Xml
