import DeriveBounds.Definition

/-!
The places where the value of a field is read: in the value itself, or under the name that a
pattern gave it.
-/
namespace DeriveBounds

/-- The values a body works on: `self`, and in a comparison also `other`. -/
inductive Side
  | self | other
  deriving DecidableEq, Repr

def Side.name : Side → String
  | self => "self"
  | other => "other"

/-- Where a body reads a field: in the value itself, or under the name a pattern gave it. -/
inductive Place
  | member (side : Side) (field : Field)
  | binding (side : Side) (field : Field)

namespace Place

def side : Place → Side
  | member side _ => side
  | binding side _ => side

def field : Place → Field
  | member _ field => field
  | binding _ field => field

def text : Place → String
  | member side field => side.name ++ "." ++ field.label
  | binding side field => "__" ++ side.name ++ "_" ++ field.plainName

end Place

end DeriveBounds
