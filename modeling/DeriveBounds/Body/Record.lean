import DeriveBounds.Body.Line

/-!
Records and matches: values with a part for each field, on one line or on several, and the arms of a
match with their patterns.
-/
namespace DeriveBounds

/-- The path of a variant, with a part for each field in the form of its style. -/
def inlineRecord (variant : Variant) (part : Field → Line) : Line :=
  let path : Line := [.word "Self::", .name variant.name]
  match variant.style with
  | .unit => path
  | .tuple => path ++ .word "(" :: Line.separated ", " (variant.fields.map part) ++ [.word ")"]
  | .struct =>
    let parts := variant.fields.map fun field => .name field.label :: .word ": " :: part field
    path ++ .word " \x7b " :: Line.separated ", " parts ++ [.word " \x7d"]

/-- `Self` with one part a line. -/
def tupleBlock (fields : List Field) (part : Field → Line) : List Line :=
  [.word "Self("] :: fields.map (fun field => (part field).indent ++ [.word ","]) ++ [[.word ")"]]

/-- `Self` with one labelled part a line. -/
def structBlock (fields : List Field) (part : Field → Line) : List Line :=
  match fields with
  | [] => [[.word "Self \x7b\x7d"]]
  | fields =>
    let lines := fields.map fun field =>
      Line.indent (.name field.label :: .word ": " :: part field) ++ [.word ","]
    [.word "Self \x7b"] :: lines ++ [[.word "\x7d"]]

/-- A pattern for one variant: which of its fields it binds, and for which value. -/
structure Pattern where
  side : Side
  variant : Variant
  binds : Field → Bool

def Pattern.line (pattern : Pattern) : Line :=
  inlineRecord pattern.variant fun field =>
    [if pattern.binds field then .bound pattern.side field else .ignored field]

/-- What an arm comes to: a value behind the pattern, or a block of lines. -/
inductive ArmValue
  | inline (line : Line)
  | block (lines : List Line)

def ArmValue.lines : ArmValue → List Line
  | inline line => [line]
  | block lines => lines

/-- An arm of a match, with a pattern for each value matched. -/
structure Arm where
  patterns : List Pattern
  value : ArmValue

namespace Arm

/-- The patterns of several values stand in parentheses. -/
def patternLine (arm : Arm) : Line :=
  match arm.patterns with
  | [pattern] => pattern.line
  | patterns => .word "(" :: Line.separated ", " (patterns.map Pattern.line) ++ [.word ")"]

def lines (arm : Arm) : List Line :=
  match arm.value with
  | .inline line => [Line.indent (arm.patternLine ++ .word " => " :: line ++ [.word ","])]
  | .block lines =>
    Line.indent (arm.patternLine ++ [.word " => \x7b"]) ::
      lines.map (fun line => line.indent.indent) ++ [Line.indent [.word "\x7d"]]

end Arm

/-- A match with these arms, and the lines of one for all other values. -/
def matchBlock (subject : String) (arms : List Arm) (others : List Line) : List Line :=
  [.word "match ", .word subject, .word " \x7b"] :: arms.flatMap Arm.lines ++ others ++
    [[.word "\x7d"]]

/-- A match on a value of an enum without variants. -/
def emptyMatch : List Line := [[.word "match *self \x7b\x7d"]]

end DeriveBounds
