import DeriveBounds.Requirement
import DeriveBounds.Text.Line

/-!
Impl items: the impl of one capability for one type, and its text.
-/
namespace DeriveBounds

structure ImplItem where
  type : String
  capability : Capability
  bounds : List Requirement
  predicates : List String
  body : String
  deriving DecidableEq, Repr

/-- A parameter as an impl declares it. Its bounds stand in the `where` clause. -/
def GenericParam.declaration (param : GenericParam) : String :=
  if param.kind = .const then
    "const " ++ param.name ++ ": " ++ param.constType.getD "None"
  else param.name

/-- A list in angle brackets; an empty one is left out. -/
def angled (parts : List String) : String :=
  match parts with
  | [] => ""
  | parts => "<" ++ Text.join ", " parts ++ ">"

def implGenerics (params : List GenericParam) : String :=
  angled (params.map GenericParam.declaration)

def typeGenerics (params : List GenericParam) : String :=
  angled (params.map (·.name))

namespace ImplItem

def header (definition : Definition) (item : ImplItem) : String :=
  "impl" ++ implGenerics definition.params ++ " " ++ item.capability.traitPath ++ " for " ++
    definition.name ++ typeGenerics definition.params

/-- The lines before the body, and the brace that opens it on the last one. -/
def opening (definition : Definition) (item : ImplItem) : List String × String :=
  match item.predicates with
  | [] => ([], item.header definition ++ " \x7b")
  | predicates =>
    (item.header definition :: "where" ::
      predicates.map (fun predicate => Text.indent predicate ++ ","), "\x7b")

def renderedLines (definition : Definition) (item : ImplItem) : List String :=
  let (before, brace) := item.opening definition
  match Text.lines item.body with
  | [] => before ++ [brace ++ "\x7d"]
  | body => before ++ brace :: body.map Text.indentLine ++ ["\x7d"]

/-- The text of an impl, without a line break at its end. -/
def render (definition : Definition) (item : ImplItem) : String :=
  Text.join "\n" (item.renderedLines definition)

end ImplItem

end DeriveBounds
