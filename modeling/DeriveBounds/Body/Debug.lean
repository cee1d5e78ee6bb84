import DeriveBounds.Body.Record

/-!
Bodies of `Debug`: the name, and the fields that are not skipped.
-/
namespace DeriveBounds

/-- The fields that are shown and compared. -/
def keptFields (fields : List Field) : List Field :=
  fields.filter (!·.skip)

def showName (name : String) : Line :=
  [.word "f.write_str(\"", .name name, .word "\")"]

/-- A chain of calls on a builder, with one entry for each field. -/
def showFields (builder name : String) (entries : List Line) : List Line :=
  [.word "f.", .word builder, .word "(\"", .name name, .word "\")"] ::
    entries.map (fun entry => Line.indent (.word ".field(" :: entry ++ [.word ")"])) ++
    [Line.indent [.word ".finish()"]]

/-- The field's own name in quotes, before its value. -/
def quotedName (field : Field) : Line :=
  [.word "\"", .name field.plainName, .word "\", "]

def debugArm (variant : Variant) : Arm where
  patterns := [⟨.self, variant, (!·.skip)⟩]
  value :=
    let kept := keptFields variant.fields
    match variant.style with
    | .unit => .inline (showName variant.name)
    | .tuple =>
      .block (showFields "debug_tuple" variant.name
        (kept.map fun field => [.used (.binding .self field)]))
    | .struct =>
      .block (showFields "debug_struct" variant.name
        (kept.map fun field => quotedName field ++ [.used (.binding .self field)]))

def debugBody (definition : Definition) : List Line :=
  functionBlock "fn fmt(&self, f: &mut ::core::fmt::Formatter<'_>) -> ::core::fmt::Result" <|
    match definition.shape with
    | .tuple fields =>
      showFields "debug_tuple" definition.name
        ((keptFields fields).map fun field => [.word "&", .used (.member .self field)])
    | .struct [] => [showName definition.name]
    | .struct fields =>
      showFields "debug_struct" definition.name
        ((keptFields fields).map fun field =>
          quotedName field ++ [.word "&", .used (.member .self field)])
    | .enum [] => emptyMatch
    | .enum variants => matchBlock "self" (variants.map debugArm) []

end DeriveBounds
