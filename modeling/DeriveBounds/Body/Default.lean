import DeriveBounds.Body.Record
import DeriveBounds.DeriveError

/-!
Bodies of `Default`: every field takes its own default. An enum has no canonical default.
-/
namespace DeriveBounds

def defaultBody (definition : Definition) : Except DeriveError (List Line) :=
  let signature := "fn default() -> Self"
  match definition.shape with
  | .enum _ => .error (.defaultForEnum definition.name)
  | .tuple fields => .ok (functionBlock signature (tupleBlock fields fun field => [.made field]))
  | .struct fields => .ok (functionBlock signature (structBlock fields fun field => [.made field]))

end DeriveBounds
