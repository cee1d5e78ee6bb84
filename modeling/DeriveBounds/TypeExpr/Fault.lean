import DeriveBounds.Text.Quoted
import DeriveBounds.Token.Lexer

/-!
Why a text is not a type expression.
-/
namespace DeriveBounds

inductive TypeFault
  | character (error : LexError)
  | empty
  | unexpectedEnd
  | trailing (found : Token)
  | unexpected (found : Token)
  | unsupported (keyword : String)
  | expected (mark : Punct) (found : Token)
  | pointerQualifier (found : Token)
  | segment (found : Token)
  | unclosed (closing : Punct)
  | emptyRun (closing : Punct)
  deriving DecidableEq, Repr

def TypeFault.detail : TypeFault → String
  | character error =>
    "unexpected character " ++ Text.quoted error.found.toString ++ " at offset " ++
      toString error.offset
  | empty => "empty type"
  | unexpectedEnd => "unexpected end of type"
  | trailing found => "unexpected trailing " ++ Text.quoted found.text
  | unexpected found => "unexpected " ++ Text.quoted found.text
  | unsupported keyword => "'" ++ keyword ++ "' types are not supported"
  | expected mark found =>
    "expected " ++ Text.quoted mark.text ++ ", found " ++ Text.quoted found.text
  | pointerQualifier found =>
    "expected 'const' or 'mut' after '*', found " ++ Text.quoted found.text
  | segment found => "expected a path segment, found " ++ Text.quoted found.text
  | unclosed closing => "missing " ++ Text.quoted closing.text
  | emptyRun closing => "empty expression before " ++ Text.quoted closing.text

/-- A text that is no type expression, and why. -/
structure TypeTextError where
  text : String
  fault : TypeFault
  deriving DecidableEq, Repr

def TypeTextError.message (error : TypeTextError) : String :=
  "Invalid type " ++ Text.quoted error.text ++ ": " ++ error.fault.detail

end DeriveBounds
