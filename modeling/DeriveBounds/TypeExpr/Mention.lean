import DeriveBounds.TypeExpr

/-!
Which type parameters an expression mentions. A path mentions the name it begins with, so both `T`
and `T::Item` mention `T`; the generic arguments of a phantom marker are not looked at.
-/
namespace DeriveBounds

/-- The name a path begins with, unless a leading `::` makes it absolute. A path without segments
has no first name and is marked by `none`. -/
def pathHead (leadingColon : Bool) : List Segment → List (Option String)
  | [] => [none]
  | .mk name _ :: _ => if leadingColon then [] else [some name]

mutual

/-- The first names of all paths inside an expression, `none` for a path without segments. -/
def TypeExpr.heads (phantoms : List String) : TypeExpr → List (Option String)
  | .path leadingColon segments => pathHead leadingColon segments ++ pathHeads phantoms segments
  | .qualified self trait segments =>
    self.heads phantoms ++ optionHeads phantoms trait ++ segmentHeads phantoms segments
  | .reference _ _ inner => inner.heads phantoms
  | .pointer _ inner => inner.heads phantoms
  | .tuple elements => typeHeads phantoms elements
  | .array element _ => element.heads phantoms
  | .fnPointer params output => typeHeads phantoms params ++ optionHeads phantoms output
  | .lifetime _ => []
  | .const _ => []
  | .foreign _ => []

/-- The arguments along a path; those of the last segment count unless it names a phantom marker. -/
def pathHeads (phantoms : List String) : List Segment → List (Option String)
  | [] => []
  | [.mk name args] => if phantoms.contains name then [] else typeHeads phantoms args
  | .mk _ args :: rest => typeHeads phantoms args ++ pathHeads phantoms rest

/-- The arguments of every segment behind a qualified type. -/
def segmentHeads (phantoms : List String) : List Segment → List (Option String)
  | [] => []
  | .mk _ args :: rest => typeHeads phantoms args ++ segmentHeads phantoms rest

def typeHeads (phantoms : List String) : List TypeExpr → List (Option String)
  | [] => []
  | type :: rest => type.heads phantoms ++ typeHeads phantoms rest

def optionHeads (phantoms : List String) : Option TypeExpr → List (Option String)
  | none => []
  | some type => type.heads phantoms

end

/-- Those of `names` that the expression mentions, in the order of `names`. -/
def TypeExpr.mentioned (phantoms names : List String) (type : TypeExpr) :
    Except MalformedTree (List String) :=
  let heads := type.heads phantoms
  if heads.contains none then .error .emptyPath
  else .ok (names.filter fun name => heads.contains (some name))

end DeriveBounds
