/-!
Lines of a text. A break is a line feed, a carriage return with or without one, or one of the
other vertical separators; the last line needs none.
-/
namespace DeriveBounds.Text

def isLineBreak (c : Char) : Bool :=
  let n := c.toNat
  (0x0a ≤ n && n ≤ 0x0d) || (0x1c ≤ n && n ≤ 0x1e) || n == 0x85 || n == 0x2028 || n == 0x2029

/-- The lines of a text, given the line begun so far in reverse. -/
def linesFrom (line : List Char) : List Char → List String
  | [] => if line.isEmpty then [] else [String.ofList line.reverse]
  | '\r' :: '\n' :: rest => String.ofList line.reverse :: linesFrom [] rest
  | c :: rest =>
    if isLineBreak c then String.ofList line.reverse :: linesFrom [] rest
    else linesFrom (c :: line) rest

/-- The lines of a text without their breaks; a final break opens no further line. -/
def lines (text : String) : List String :=
  linesFrom [] text.toList

def indent (line : String) : String := "    " ++ line

/-- An indented line; an empty one stays empty. -/
def indentLine (line : String) : String :=
  if line = "" then "" else indent line

end DeriveBounds.Text
