/-!
Type expressions: the types a field, a generic argument or a bound may name.
-/
namespace DeriveBounds

mutual

/-- A type, or a lifetime or constant in argument position. Lifetimes keep their apostrophe; an
array length and a constant are kept as text. `foreign` stands in a tree built by hand for something
that is no type, and holds how it is shown in messages. -/
inductive TypeExpr
  | path (leadingColon : Bool) (segments : List Segment)
  | qualified (self : TypeExpr) (trait : Option TypeExpr) (segments : List Segment)
  | reference (lifetime : Option String) (mutable : Bool) (inner : TypeExpr)
  | pointer (mutable : Bool) (inner : TypeExpr)
  | tuple (elements : List TypeExpr)
  | array (element : TypeExpr) (length : Option String)
  | fnPointer (params : List TypeExpr) (output : Option TypeExpr)
  | lifetime (name : String)
  | const (text : String)
  | foreign (shown : String)

/-- A name of a path with its generic arguments. -/
inductive Segment
  | mk (name : String) (args : List TypeExpr)

end

/-- A tree that stands for no type. -/
inductive MalformedTree
  | emptyPath
  | foreign (shown : String)
  deriving DecidableEq, Repr

def MalformedTree.message : MalformedTree → String
  | emptyPath => "tuple index out of range"
  | foreign shown => "Not a type expression: " ++ shown

end DeriveBounds
