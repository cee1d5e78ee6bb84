import DeriveBounds.Body.Clone
import DeriveBounds.Body.Default
import DeriveBounds.Body.PartialEq

/-!
The body of an impl, line by line.
-/
namespace DeriveBounds

/-- The lines of the body that implements a capability; `Eq` has none. -/
def bodyLines (definition : Definition) : Capability → Except DeriveError (List Line)
  | .default => defaultBody definition
  | .debug => .ok (debugBody definition)
  | .clone => .ok (cloneBody definition)
  | .partialEq => .ok (partialEqBody definition)
  | .eq => .ok []

def body (definition : Definition) (capability : Capability) : Except DeriveError (List String) :=
  (bodyLines definition capability).map (·.map Line.text)

end DeriveBounds
