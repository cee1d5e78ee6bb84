import DeriveBounds.Body.Debug

/-!
Bodies of `PartialEq`: the fields that are not skipped are compared in order. For an enum the
discriminants are compared before any field.
-/
namespace DeriveBounds

/-- The comparisons of the fields that are not skipped, side by side. -/
def comparisons (place : Side → Field → Place) (fields : List Field) : List Line :=
  (keptFields fields).map fun field =>
    [.used (place .self field), .word " == ", .used (place .other field)]

def allEqualLine (comparisons : List Line) : Line :=
  match comparisons with
  | [] => [.word "true"]
  | comparisons => Line.separated " && " comparisons

def allEqualLines (comparisons : List Line) : List Line :=
  match comparisons with
  | [] => [[.word "true"]]
  | first :: rest => first :: rest.map fun comparison => Line.indent (.word "&& " :: comparison)

def equalArm (variant : Variant) : Arm where
  patterns := [⟨.self, variant, (!·.skip)⟩, ⟨.other, variant, (!·.skip)⟩]
  value := .inline (allEqualLine (comparisons .binding variant.fields))

/-- Values of different variants are unequal; the arm is left out where there is one variant. -/
def unequalArm (variants : List Variant) : List Line :=
  if 1 < variants.length then [Line.indent [.word "_ => false,"]] else []

/-- Leaves the function where the discriminants differ. -/
def compareDiscriminants : List Line :=
  [[.word "if ::core::mem::discriminant(self) != ::core::mem::discriminant(other) \x7b"],
    Line.indent [.word "return false;"], [.word "\x7d"]]

def partialEqBody (definition : Definition) : List Line :=
  functionBlock "fn eq(&self, other: &Self) -> bool" <|
    match definition.shape with
    | .tuple fields | .struct fields => allEqualLines (comparisons .member fields)
    | .enum [] => emptyMatch
    | .enum variants =>
      compareDiscriminants ++
        matchBlock "(self, other)" (variants.map equalArm) (unequalArm variants)

end DeriveBounds
