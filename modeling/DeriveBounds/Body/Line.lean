import DeriveBounds.Body.Place
import DeriveBounds.Text.Layout

/-!
The lines of a body, piece by piece. A piece that stands for a field tells which one and what
becomes of it, so the text of a body and what it does with the fields are read off the same pieces.
-/
namespace DeriveBounds

def defaultValue : String := Capability.default.traitPath ++ "::default()"

/-- Fixed words, and names that the definition gives, are written as they are. Of a field, a body
makes the default value, uses the value at a place, binds it in a pattern, or passes over it. -/
inductive Piece
  | word (text : String)
  | name (text : String)
  | made (field : Field)
  | used (place : Place)
  | bound (side : Side) (field : Field)
  | ignored (field : Field)

def Piece.text : Piece → String
  | word text => text
  | name text => text
  | made _ => defaultValue
  | used place => place.text
  | bound side field => (Place.binding side field).text
  | ignored _ => "_"

abbrev Line := List Piece

namespace Line

def text : Line → String
  | [] => ""
  | piece :: rest => piece.text ++ text rest

/-- The parts with the separator between neighbours. -/
def separated (separator : String) : List Line → Line
  | [] => []
  | [part] => part
  | part :: rest => part ++ .word separator :: separated separator rest

def indent (line : Line) : Line := .word "    " :: line

/-- An indented line; an empty one stays empty. -/
def indentFilled (line : Line) : Line :=
  if line.text = "" then [] else line.indent

end Line

def functionBlock (signature : String) (inner : List Line) : List Line :=
  [.word signature, .word " \x7b"] :: inner.map Line.indentFilled ++ [[.word "\x7d"]]

end DeriveBounds
