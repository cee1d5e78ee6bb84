import DeriveBounds.DeriveError
import DeriveBounds.Identifier
import DeriveBounds.TypeExpr.Parser
import DeriveBounds.Xml.Element

/-!
From registry elements to type definitions. Whatever a definition promises (names, distinctness,
styles) is checked here and nowhere else.
-/
namespace DeriveBounds

open Xml (Element)

/-- The capability an element names. -/
def readCapability (name : Option String) (type : String) (place : CapabilityPlace) :
    Except DeriveError Capability :=
  match name with
  | none => .error (.missingCapability type place)
  | some name =>
    match Capability.ofName? name with
    | none => .error (.unknownCapability type place name)
    | some capability => .ok capability

def isParamName (kind : ParamKind) (name : String) : Bool :=
  match kind with
  | .lifetime => isLifetimeName name
  | .type | .const => isName name

/-- An absent text and an empty one are the same. -/
def nonEmpty (text : String) : Option String :=
  if text = "" then none else some text

def readParam (element : Element) (type : String) : Except DeriveError GenericParam := do
  let name := Text.strip (element.attributeD "name")
  let kindName := (element.attribute? "kind").getD ParamKind.type.name
  let some kind := ParamKind.ofName? kindName | throw (.paramKind type name kindName)
  unless isParamName kind name do throw (.paramName type kind name)
  let constType := element.attribute? "type"
  if kind = .const ∧ constType.bind nonEmpty = none then throw (.constWithoutType type name)
  return ⟨name, kind, nonEmpty (Text.strip (element.attributeD "bounds")), constType⟩

/-- Adds the names of one more bound to the overrides of its capability, each name once. -/
def addOverride (capability : Capability) (params : List String) :
    List Override → List Override
  | [] => [⟨capability, params.eraseDups⟩]
  | first :: rest =>
    if first.capability = capability then
      ⟨capability, (first.params ++ params).eraseDups⟩ :: rest
    else first :: addOverride capability params rest

/-- The overrides of a member, from its bounds in document order. -/
def readOverrides (type owner : String) (key : FieldKey) (overrides : List Override) :
    List Element → Except DeriveError (List Override)
  | [] => .ok overrides
  | bound :: rest => do
    let capability ← readCapability (bound.attribute? "capability") type (.bound owner key)
    let params := namesIn (bound.text.getD "")
    readOverrides type owner key (addOverride capability params overrides) rest

/-- The values of a skip mark that switch it on. -/
def isTrueMark (mark : String) : Bool :=
  ["true", "1", "yes"].contains (String.ofList (mark.toList.map Char.toLower))

/-- A member without a name is known by its position. -/
def memberKey (element : Element) (position : Int) : FieldKey :=
  let name := Text.strip ((element.childText? "name").getD "")
  if name = "" then .position position else .named name

def readMember (element : Element) (position : Int) (type owner : String) :
    Except DeriveError Field := do
  let key := memberKey element position
  let text := (element.childText? "type").getD ""
  if Text.strip text = "" then throw (.memberWithoutType type owner key)
  let expr ← (parseType text).mapError (.memberType type owner key)
  let overrides ← readOverrides type owner key [] (element.childrenTagged "bound")
  return ⟨key, expr, isTrueMark (element.attributeD "skip"), overrides⟩

def readMembers (type owner : String) (position : Nat) :
    List Element → Except DeriveError (List Field)
  | [] => .ok []
  | member :: rest => do
    let field ← readMember member position type owner
    let fields ← readMembers type owner (position + 1) rest
    return field :: fields

/-- The first item that occurs more than once. -/
def firstRepeated? (items : List String) : Option String :=
  items.find? fun item => 1 < items.count item

/-- The style of a member list and its fields: no members make a unit, named ones a struct, unnamed
ones a tuple. -/
def readFields (members : List Element) (type owner : String) :
    Except DeriveError (Style × List Field) := do
  if members.isEmpty then return (.unit, [])
  let fields ← readMembers type owner 0 members
  let anyNamed := fields.any (·.key.isNamed)
  if anyNamed && !fields.all (·.key.isNamed) then throw (.mixedMembers type owner)
  if let some label := firstRepeated? (fields.map Field.label) then
    throw (.duplicateField type owner label)
  return (if anyNamed then .struct else .tuple, fields)

def readParams (type : String) : List Element → Except DeriveError (List GenericParam)
  | [] => .ok []
  | element :: rest => do
    let param ← readParam element type
    let params ← readParams type rest
    return param :: params

/-- The variants of an enum, behind those whose names are taken already. -/
def readVariants (type : String) (taken : List String) :
    List Element → Except DeriveError (List Variant)
  | [] => .ok []
  | element :: rest => do
    let name := Text.strip (element.attributeD "name")
    unless isName name do throw (.variantName type name)
    if taken.contains name then throw (.duplicateVariant type name)
    let (style, fields) ← readFields (element.childrenTagged "member") type
      (type ++ "::" ++ name)
    let variants ← readVariants type (taken ++ [name]) rest
    return ⟨name, style, fields⟩ :: variants

def readShape (element : Element) (type : String) : Except DeriveError Shape := do
  match element.attribute? "category" with
  | some "struct" =>
    let (style, fields) ← readFields (element.childrenTagged "member") type type
    return if style = .tuple then .tuple fields else .struct fields
  | some "enum" =>
    unless (element.childrenTagged "member").isEmpty do throw (.enumMembers type)
    let variants ← readVariants type [] (element.childrenTagged "variant")
    return .enum variants
  | category => throw (.category type category)

def readBoundedTo (type : String) : List Element → Except DeriveError (List BoundedTo)
  | [] => .ok []
  | element :: rest => do
    let capability ← match element.attribute? "capability" with
      | none => pure none
      | some name => some <$> readCapability (some name) type .boundedTo
    let expr ← (parseType (element.text.getD "")).mapError (.boundedToType type)
    let bounds ← readBoundedTo type rest
    return ⟨expr, capability⟩ :: bounds

def readDerives (type : String) : List String → Except DeriveError (List Capability)
  | [] => .ok []
  | name :: rest => do
    let capability ← readCapability (some name) type .derive
    let capabilities ← readDerives type rest
    return capability :: capabilities

/-- The definition a type element stands for. -/
def classify (element : Element) : Except DeriveError Definition := do
  let name := Text.strip (element.attributeD "name")
  unless isName name do throw (.typeName name)
  let params ← readParams name (element.childrenTagged "param")
  if let some param := firstRepeated? (params.map (·.name)) then throw (.duplicateParam name param)
  let shape ← readShape element name
  let boundedTo ← readBoundedTo name (element.childrenTagged "bounded-to")
  let derives ← readDerives name (namesIn (element.attributeD "derive"))
  return ⟨name, params, shape, boundedTo, Capability.ordered derives⟩

end DeriveBounds
