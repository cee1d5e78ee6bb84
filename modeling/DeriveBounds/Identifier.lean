import DeriveBounds.Text.Blank

/-!
Identifiers, and lists of names separated by commas and blanks.
-/
namespace DeriveBounds

def isIdentStart (c : Char) : Bool := c.isAlpha || c == '_'

def isIdentChar (c : Char) : Bool := c.isAlphanum || c == '_'

/-- ASCII letters, digits and underscores, not beginning with a digit. -/
def isIdent : List Char → Bool
  | [] => false
  | c :: cs => isIdentStart c && cs.all isIdentChar

/-- A name is accepted when it is an identifier, or one followed by a single line feed. -/
def isName (name : String) : Bool :=
  isIdent name.toList ||
    (name.toList.getLast? == some '\n' && isIdent name.toList.dropLast)

/-- An apostrophe and a name. -/
def isLifetimeName (name : String) : Bool :=
  match name.toList with
  | '\x27' :: cs => isName (String.ofList cs)
  | _ => false

def separatesNames (c : Char) : Bool := c == ',' || Text.isBlank c

/-- The names of a text behind the word begun so far, which is kept in reverse. -/
def namesFrom (word : List Char) : List Char → List String
  | [] => if word.isEmpty then [] else [String.ofList word.reverse]
  | c :: cs =>
    if separatesNames c then
      if word.isEmpty then namesFrom [] cs
      else String.ofList word.reverse :: namesFrom [] cs
    else namesFrom (c :: word) cs

/-- The names of a list; commas and blanks separate them, and none is empty. -/
def namesIn (text : String) : List String :=
  namesFrom [] text.toList

end DeriveBounds
