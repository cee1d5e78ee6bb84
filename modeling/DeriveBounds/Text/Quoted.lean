import DeriveBounds.Text.Visible

/-!
Texts quoted for a message. Single quotes are used unless only they occur in the text; the quote in
use and the backslash are escaped, and a character without a visible form is written by its number.
-/
namespace DeriveBounds.Text

def hexDigits (width n : Nat) : List Char :=
  let digits := Nat.toDigits 16 n
  List.replicate (width - digits.length) '0' ++ digits

def numbered (n : Nat) : List Char :=
  if n < 0x100 then '\\' :: 'x' :: hexDigits 2 n
  else if n < 0x10000 then '\\' :: 'u' :: hexDigits 4 n
  else '\\' :: 'U' :: hexDigits 8 n

def quotedChar (quote c : Char) : List Char :=
  if c = quote ∨ c = '\\' then ['\\', c]
  else if c = '\n' then ['\\', 'n']
  else if c = '\r' then ['\\', 'r']
  else if c = '\t' then ['\\', 't']
  else if isHidden c then numbered c.toNat
  else [c]

/-- The quote a text is written in: the single one, unless it alone occurs in the text. -/
def quoteFor (text : String) : Char :=
  if text.toList.contains '\x27' && !text.toList.contains '"' then '"' else '\x27'

def quoted (text : String) : String :=
  let quote := quoteFor text
  String.ofList (quote :: text.toList.flatMap (quotedChar quote) ++ [quote])

/-- An absent text is written `None`. -/
def quotedOption : Option String → String
  | none => "None"
  | some text => quoted text

end DeriveBounds.Text
