/-!
Tokens of a type expression. The first character of a token decides its kind, so the text of a
token determines it.
-/
namespace DeriveBounds

inductive Punct
  | pathSep | arrow | less | greater | openParen | closeParen | openBracket | closeBracket
  | openBrace | closeBrace | comma | semicolon | ampersand | star | equals | plus | minus | slash
  deriving DecidableEq, Repr

def Punct.text : Punct → String
  | pathSep => "::"
  | arrow => "->"
  | less => "<"
  | greater => ">"
  | openParen => "("
  | closeParen => ")"
  | openBracket => "["
  | closeBracket => "]"
  | openBrace => "\x7b"
  | closeBrace => "\x7d"
  | comma => ","
  | semicolon => ";"
  | ampersand => "&"
  | star => "*"
  | equals => "="
  | plus => "+"
  | minus => "-"
  | slash => "/"

/-- The mark that closes a bracket. -/
def Punct.closer? : Punct → Option Punct
  | openParen => some closeParen
  | openBracket => some closeBracket
  | openBrace => some closeBrace
  | _ => none

/-- A lifetime keeps its leading apostrophe. -/
inductive Token
  | lifetime (name : String)
  | ident (name : String)
  | number (text : String)
  | punct (mark : Punct)
  deriving DecidableEq, Repr

def Token.text : Token → String
  | lifetime name => name
  | ident name => name
  | number text => text
  | punct mark => mark.text

end DeriveBounds
