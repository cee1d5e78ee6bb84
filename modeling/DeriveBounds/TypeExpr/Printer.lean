import DeriveBounds.Text.Layout
import DeriveBounds.TypeExpr

/-!
The canonical text of a type expression: single spaces, no optional commas or parentheses.
-/
namespace DeriveBounds

/-- The lifetime of a reference; an empty one is not written. -/
def lifetimeText : Option String → String
  | none => ""
  | some lifetime => if lifetime = "" then "" else lifetime ++ " "

mutual

def TypeExpr.text : TypeExpr → String
  | .path leadingColon segments =>
    (if leadingColon then "::" else "") ++ Text.join "::" (segmentTexts segments)
  | .qualified self trait segments =>
    "<" ++ self.text ++ traitText trait ++ ">::" ++ Text.join "::" (segmentTexts segments)
  | .reference lifetime mutable inner =>
    "&" ++ lifetimeText lifetime ++ (if mutable then "mut " else "") ++ inner.text
  | .pointer mutable inner => (if mutable then "*mut " else "*const ") ++ inner.text
  | .tuple [element] => "(" ++ element.text ++ ",)"
  | .tuple elements => "(" ++ Text.join ", " (typeTexts elements) ++ ")"
  | .array element none => "[" ++ element.text ++ "]"
  | .array element (some length) => "[" ++ element.text ++ "; " ++ length ++ "]"
  | .fnPointer params output =>
    "fn(" ++ Text.join ", " (typeTexts params) ++ ")" ++ outputText output
  | .lifetime name => name
  | .const text => text
  | .foreign shown => shown

def Segment.text : Segment → String
  | .mk name [] => name
  | .mk name args => name ++ "<" ++ Text.join ", " (typeTexts args) ++ ">"

def typeTexts : List TypeExpr → List String
  | [] => []
  | type :: rest => type.text :: typeTexts rest

def segmentTexts : List Segment → List String
  | [] => []
  | segment :: rest => segment.text :: segmentTexts rest

def traitText : Option TypeExpr → String
  | none => ""
  | some trait => " as " ++ trait.text

def outputText : Option TypeExpr → String
  | none => ""
  | some output => " -> " ++ output.text

end

mutual

/-- The first part, in the order of the text, that stands for no type. -/
def TypeExpr.foreign? : TypeExpr → Option String
  | .path _ segments => foreignInSegments segments
  | .qualified self trait segments =>
    self.foreign?.or ((foreignInOption trait).or (foreignInSegments segments))
  | .reference _ _ inner => inner.foreign?
  | .pointer _ inner => inner.foreign?
  | .tuple elements => foreignInTypes elements
  | .array element _ => element.foreign?
  | .fnPointer params output => (foreignInTypes params).or (foreignInOption output)
  | .lifetime _ => none
  | .const _ => none
  | .foreign shown => some shown

def Segment.foreign? : Segment → Option String
  | .mk _ args => foreignInTypes args

def foreignInTypes : List TypeExpr → Option String
  | [] => none
  | type :: rest => type.foreign?.or (foreignInTypes rest)

def foreignInSegments : List Segment → Option String
  | [] => none
  | segment :: rest => segment.foreign?.or (foreignInSegments rest)

def foreignInOption : Option TypeExpr → Option String
  | none => none
  | some type => type.foreign?

end

/-- The text of a tree all of whose parts are types. -/
def TypeExpr.render (type : TypeExpr) : Except MalformedTree String :=
  match type.foreign? with
  | some shown => .error (.foreign shown)
  | none => .ok type.text

end DeriveBounds
