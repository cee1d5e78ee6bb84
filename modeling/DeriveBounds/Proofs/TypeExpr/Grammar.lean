import DeriveBounds.TypeExpr.Parser

/-!
The grammar of type expressions: which token lists are forms of which type. A form says nothing of
how it is read, and no rule looks at what follows.
-/
namespace DeriveBounds

/-- Words that begin no path in the place of a type. -/
def reservedWords : List String := ["fn", "dyn", "impl", "_"]

/-- The mark that closes what a token opens. -/
def Token.closer? : Token → Option Punct
  | .punct mark => mark.closer?
  | _ => none

/-- A run of tokens up to a closing mark, behind brackets that expect these closers. All brackets
opened in it are closed in it; a closer that none expects is a token like others. -/
inductive RunForm (closing : Punct) : List Punct → List Token → Prop where
  | done : RunForm closing [] []
  | opened (opens : token.closer? = some closer) (rest : RunForm closing (closer :: closers) run) :
      RunForm closing closers (token :: run)
  | closed (rest : RunForm closing closers run) :
      RunForm closing (closer :: closers) (.punct closer :: run)
  | plain (opens : token.closer? = none)
      (unexpected : ∀ closer, closers.head? = some closer → token ≠ .punct closer)
      (inside : closers = [] → token ≠ .punct closing) (rest : RunForm closing closers run) :
      RunForm closing closers (token :: run)

/-- A run is kept as the texts of its tokens with single spaces between them. -/
def runText (run : List Token) : String :=
  Text.join " " (run.map Token.text)

inductive LengthForm : List Token → Option String → Prop where
  | absent : LengthForm [] none
  | present (run : RunForm .closeBracket [] tokens) (filled : tokens ≠ []) :
      LengthForm (.punct .semicolon :: tokens) (some (runText tokens))

def lifetimeMark : Option String → List Token
  | none => []
  | some name => [.lifetime name]

def mutMark (mutable : Bool) : List Token :=
  if mutable then [.ident "mut"] else []

mutual

inductive TypeForm : List Token → TypeExpr → Prop where
  | reference (inner : TypeForm tokens type)
      (unmarked : mutable = false → tokens.head? ≠ some (.ident "mut")) :
      TypeForm (.punct .ampersand :: (lifetimeMark lifetime ++ (mutMark mutable ++ tokens)))
        (.reference lifetime mutable type)
  | pointer (inner : TypeForm tokens type) :
      TypeForm (.punct .star :: .ident (if mutable then "mut" else "const") :: tokens)
        (.pointer mutable type)
  | group (inner : TypeForm tokens type) :
      TypeForm (.punct .openParen :: (tokens ++ [.punct .closeParen])) type
  | tuple (elements : TypesForm tokens types trailing)
      (notGroup : types.length = 1 → trailing = true) :
      TypeForm (.punct .openParen :: (tokens ++ [.punct .closeParen])) (.tuple types)
  | array (element : TypeForm tokens type) (length : LengthForm after text) :
      TypeForm (.punct .openBracket :: (tokens ++ (after ++ [.punct .closeBracket])))
        (.array type text)
  | qualified (self : TypeForm tokens type) (trait : TraitForm named path)
      (segments : SegmentsForm after names) :
      TypeForm (.punct .less :: (tokens ++ (named ++ .punct .greater :: .punct .pathSep :: after)))
        (.qualified type path names)
  | function (params : TypesForm tokens types trailing) (output : OutputForm after result) :
      TypeForm (.ident "fn" :: .punct .openParen :: (tokens ++ .punct .closeParen :: after))
        (.fnPointer types result)
  | path (path : PathForm tokens type)
      (plain : ∀ name, tokens.head? = some (.ident name) → name ∉ reservedWords) :
      TypeForm tokens type

/-- Types separated by commas; the mark tells whether a comma comes last. -/
inductive TypesForm : List Token → List TypeExpr → Bool → Prop where
  | none : TypesForm [] [] false
  | last (type : TypeForm tokens expr) : TypesForm tokens [expr] false
  | comma (first : TypeForm tokens expr) (others : TypesForm rest types trailing) :
      TypesForm (tokens ++ .punct .comma :: rest) (expr :: types) (types.isEmpty || trailing)

inductive TraitForm : List Token → Option TypeExpr → Prop where
  | absent : TraitForm [] none
  | present (path : PathForm tokens type) : TraitForm (.ident "as" :: tokens) (some type)

inductive OutputForm : List Token → Option TypeExpr → Prop where
  | absent : OutputForm [] none
  | present (type : TypeForm tokens expr) : OutputForm (.punct .arrow :: tokens) (some expr)

inductive PathForm : List Token → TypeExpr → Prop where
  | relative (segments : SegmentsForm tokens names) : PathForm tokens (.path false names)
  | absolute (segments : SegmentsForm tokens names) :
      PathForm (.punct .pathSep :: tokens) (.path true names)

inductive SegmentsForm : List Token → List Segment → Prop where
  | last (segment : SegmentForm tokens name) : SegmentsForm tokens [name]
  | more (first : SegmentForm tokens name) (others : SegmentsForm rest names) :
      SegmentsForm (tokens ++ .punct .pathSep :: rest) (name :: names)

inductive SegmentForm : List Token → Segment → Prop where
  | plain : SegmentForm [.ident name] (.mk name [])
  | generic (args : ArgsForm tokens types) :
      SegmentForm (.ident name :: .punct .less :: (tokens ++ [.punct .greater])) (.mk name types)

/-- Generic arguments separated by commas; a comma may come last. -/
inductive ArgsForm : List Token → List TypeExpr → Prop where
  | none : ArgsForm [] []
  | last (arg : ArgForm tokens type) : ArgsForm tokens [type]
  | comma (first : ArgForm tokens type) (others : ArgsForm rest types) :
      ArgsForm (tokens ++ .punct .comma :: rest) (type :: types)

inductive ArgForm : List Token → TypeExpr → Prop where
  | lifetime : ArgForm [.lifetime name] (.lifetime name)
  | number : ArgForm [.number text] (.const text)
  | negative : ArgForm [.punct .minus, .number text] (.const ("-" ++ text))
  | block (run : RunForm .closeBrace [] tokens) (filled : tokens ≠ []) :
      ArgForm (.punct .openBrace :: (tokens ++ [.punct .closeBrace]))
        (.const ("\x7b " ++ runText tokens ++ " \x7d"))
  | type (type : TypeForm tokens expr) : ArgForm tokens expr

end

end DeriveBounds
