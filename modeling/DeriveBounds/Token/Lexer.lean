import DeriveBounds.Identifier
import DeriveBounds.Step
import DeriveBounds.Token

/-!
Splitting the text of a type expression into tokens. Each token is the longest that begins where it
does, and blanks between tokens are dropped.
-/
namespace DeriveBounds

/-- Reading stopped at a character that begins neither a token nor a blank. -/
structure LexError where
  found : Char
  offset : Nat
  deriving DecidableEq, Repr

/-- The mark a character is by itself. -/
def Punct.ofChar? : Char → Option Punct
  | '<' => some .less
  | '>' => some .greater
  | '(' => some .openParen
  | ')' => some .closeParen
  | '[' => some .openBracket
  | ']' => some .closeBracket
  | '\x7b' => some .openBrace
  | '\x7d' => some .closeBrace
  | ',' => some .comma
  | ';' => some .semicolon
  | '&' => some .ampersand
  | '*' => some .star
  | '=' => some .equals
  | '+' => some .plus
  | '-' => some .minus
  | '/' => some .slash
  | _ => none

/-- The punctuation mark that begins with `c`; a mark of two characters wins over one of one. -/
def Punct.scan? (c : Char) (cs : List Char) : Option (Step (c :: cs) Punct) :=
  match c, cs with
  | ':', ':' :: _ => some (.two .pathSep)
  | '-', '>' :: _ => some (.two .arrow)
  | c, _ => (Punct.ofChar? c).map .one

/-- The token, or the run of blanks, at the front of a text. -/
def Token.scan? (c : Char) (cs : List Char) : Option (Step (c :: cs) (Option Token)) :=
  if Text.isBlank c then
    some ((Step.span Text.isBlank c cs).map fun _ => none)
  else if c = '\x27' then
    match cs with
    | d :: ds =>
      if isIdentStart d then
        some (((Step.span isIdentChar d ds).behind c).map fun name =>
          some (.lifetime (String.ofList (c :: name))))
      else none
    | [] => none
  else if isIdentStart c then
    some ((Step.span isIdentChar c cs).map fun name => some (.ident (String.ofList name)))
  else if c.isDigit then
    some ((Step.span isIdentChar c cs).map fun text => some (.number (String.ofList text)))
  else
    (Punct.scan? c cs).map fun step => step.map fun mark => some (.punct mark)

/-- The tokens of a text, or what is left of it where no token begins. -/
def Token.scanAll (text : List Char) : Except (List Char) (List Token) :=
  match text with
  | [] => .ok []
  | c :: cs =>
    match Token.scan? c cs with
    | none => .error (c :: cs)
    | some step => do
      let tokens ← Token.scanAll step.rest
      return step.value.toList ++ tokens
termination_by text.length
decreasing_by exact step.shorter

/-- The tokens of a text. -/
def tokenize (text : String) : Except LexError (List Token) :=
  match Token.scanAll text.toList with
  | .ok tokens => .ok tokens
  | .error left => .error ⟨left.headD ' ', text.length - left.length⟩

end DeriveBounds
