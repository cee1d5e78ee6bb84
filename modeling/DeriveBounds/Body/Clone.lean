import DeriveBounds.Body.Record

/-!
Bodies of `Clone`: every field is cloned, skipped or not.
-/
namespace DeriveBounds

/-- A call that clones what is behind a reference. -/
def cloneOf (reference : Line) : Line :=
  .word (Capability.clone.traitPath ++ "::clone(") :: reference ++ [.word ")"]

def cloneMember (field : Field) : Line :=
  cloneOf [.word "&", .used (.member .self field)]

def cloneArm (variant : Variant) : Arm where
  patterns := [⟨.self, variant, fun _ => true⟩]
  value := .inline (inlineRecord variant fun field => cloneOf [.used (.binding .self field)])

def cloneBody (definition : Definition) : List Line :=
  functionBlock "fn clone(&self) -> Self" <|
    match definition.shape with
    | .tuple fields => tupleBlock fields cloneMember
    | .struct fields => structBlock fields cloneMember
    | .enum [] => emptyMatch
    | .enum variants => matchBlock "self" (variants.map cloneArm) []

end DeriveBounds
