import DeriveBounds.Xml.Namespace

/-!
What may stand before and after the root element: the declaration, comments, instructions and
spaces. Anything else is a stray token, whole or broken.
-/
namespace DeriveBounds.Xml

/-- A token that has no place outside the root element. -/
inductive StrayToken
  | plain
  | parameterEntity
  deriving DecidableEq, Repr

private def plainBefore (fits : Char → Bool) : List Char → Except Break StrayToken
  | [] => .ok .plain
  | c :: rest => if fits c then .ok .plain else .error (.invalid (c :: rest).length)

private def among (chars : List Char) (c : Char) : Bool := isXmlSpace c || chars.contains c

/-- A literal behind its opening quote. -/
private def strayLiteral (quote : Char) : List Char → Except Break StrayToken
  | [] => .error .ended
  | c :: rest =>
    if c = quote then plainBefore (among ['>', '%', '[']) rest
    else if isXmlChar c then strayLiteral quote rest
    else .error (.invalid (c :: rest).length)

/-- How much of a name has been read: all of it fits a name, up to one colon, or it is a mere
run of name characters. -/
private inductive NameForm
  | name | prefixed | token

/-- The rest of a name or of a run of name characters. Only a name can be followed by a mark of
repetition. -/
private def strayName (form : NameForm) : List Char → Except Break StrayToken
  | [] => .ok .plain
  | c :: rest =>
    if isNameChar c then strayName form rest
    else if c = ':' then
      match form, rest.head? with
      | .name, none => .error .ended
      | .name, some d => strayName (if isNameChar d then .prefixed else .token) rest
      | _, _ => strayName .token rest
    else if among ['>', ')', ',', '|', '[', '%'] c then .ok .plain
    else if ['*', '?', '+'].contains c then
      match form with
      | .token => .error (.invalid (c :: rest).length)
      | _ => .ok .plain
    else .error (.invalid (c :: rest).length)

/-- A percent sign and what belongs to it. -/
private def strayPercent : List Char → Except Break StrayToken
  | [] => .error .ended
  | c :: rest =>
    if isNameStart c then
      match rest.dropWhile isNameChar with
      | [] => .error .ended
      | d :: ds => if d = ';' then .ok .parameterEntity else .error (.invalid (d :: ds).length)
    else plainBefore (among ['%']) (c :: rest)

/-- A number sign and what belongs to it. -/
private def strayNumberSign : List Char → Except Break StrayToken
  | [] => .error .ended
  | c :: rest =>
    if isNameStart c then plainBefore (among [')', '>', '%', '|']) (rest.dropWhile isNameChar)
    else .error (.invalid (c :: rest).length)

/-- A token other than markup and spaces. -/
def strayToken : List Char → Except Break StrayToken
  | [] => .error .ended
  | c :: rest =>
    if c = '"' ∨ c = '\x27' then strayLiteral c rest
    else if c = '%' then strayPercent rest
    else if [',', '[', '(', '|', '>'].contains c then .ok .plain
    else if c = ']' then if rest = [']'] then .error .ended else .ok .plain
    else if c = ')' then plainBefore (among ['*', '?', '+', '>', ',', '|', ')']) rest
    else if c = '#' then strayNumberSign rest
    else if isNameStart c then strayName .name rest
    else if isNameChar c ∨ c = ':' then strayName .token rest
    else .error (.invalid (c :: rest).length)

/-- A markup declaration behind `<!`. -/
private def strayDeclaration : List Char → Except Break StrayToken
  | [] => .error .ended
  | '%' :: [] => .error .ended
  | '%' :: c :: rest =>
    if among ['%'] c then .error (.invalid ('%' :: c :: rest).length) else .ok .plain
  | c :: rest =>
    if isXmlSpace c then .ok .plain
    else if c.isAlpha || c == '_' then strayDeclaration rest
    else .error (.invalid (c :: rest).length)

/-- A piece of text outside the root element. -/
inductive Outside
  | space
  | instruction
  | declaration (text : List Char) (after : Nat)
  | stray (token : StrayToken)
  | root

private def strayOr (first : Char) (cs : List Char) (scan : Except Break StrayToken) :
    Except Fault (Step (first :: cs) Outside) :=
  match scan with
  | .ok token => .ok (.one (.stray token))
  | .error stop => .error (stop.fault (first :: cs).length)

/-- Reads a piece of text outside the root element. A stray token or the root is not read to its
end: it stops what is outside. Whether a character beyond ASCII can begin a name is left to the
reader of the root. -/
def scanOutside (first : Char) (cs : List Char) : Except Fault (Step (first :: cs) Outside) :=
  let start := (first :: cs).length
  if isXmlSpace first then .ok ((Step.span isXmlSpace first cs).map fun _ => .space)
  else if first = '<' then
    match cs with
    | [] => .error ⟨.unclosedToken, start⟩
    | '!' :: '-' :: rest => do
      let comment ← (scanComment rest).mapError (Break.fault start)
      return (((comment.map fun _ => .instruction).behind _).behind _).behind _
    | '!' :: '[' :: _ => .ok (.one (.stray .plain))
    | '!' :: c :: rest =>
      if c.isAlpha || c == '_' then strayOr _ _ (strayDeclaration rest)
      else .error ⟨.invalidToken, (c :: rest).length⟩
    | ['!'] => .error ⟨.unclosedToken, start⟩
    | '?' :: rest => do
      let instruction ← (scanInstruction rest).mapError (Break.fault start)
      let outside : Outside := match instruction.value with
        | .processing => .instruction
        | .declaration text after => .declaration text after
      return ((instruction.map fun _ => outside).behind _).behind _
    | c :: rest =>
      if isNameStart c || 0x80 ≤ c.toNat then .ok (.one .root)
      else .error ⟨.invalidToken, (c :: rest).length⟩
  else strayOr _ _ (strayToken (first :: cs))

/-- A name and a quoted value in a declaration, and what follows; nothing where only spaces are
left. A mistake is told by what is left of the declaration there. -/
private def declarationItem (source : List Char) :
    Except (List Char) (Option (List Char × List Char × List Char × List Char)) :=
  match source with
  | [] => .ok none
  | c :: _ =>
    if !isXmlSpace c then .error source
    else
      let named := source.dropWhile isXmlSpace
      if named.isEmpty then .ok none
      else
        let isPart (c : Char) : Bool := c != '=' && !isXmlSpace c && c.toNat < 0x80
        let name := named.takeWhile isPart
        let behind := named.dropWhile isPart
        let equals := behind.dropWhile isXmlSpace
        match equals with
        | '=' :: rest =>
          if name.isEmpty then .error behind
          else
            match rest.dropWhile isXmlSpace with
            | quote :: valued =>
              if quote != '"' && quote != '\x27' then .error (quote :: valued)
              else
                let value := valued.takeWhile fun c => c.isAlphanum || ['.', '-', '_'].contains c
                match valued.drop value.length with
                | close :: after =>
                  if close = quote then .ok (some (named, value, valued, after))
                  else .error (close :: after)
                | [] => .error []
            | [] => .error []
        | rest => .error rest

private def itemName (named : List Char) : String :=
  String.ofList (named.takeWhile fun c => c != '=' && !isXmlSpace c)

private def declarationEnd (source : List Char) : Except (List Char) Unit :=
  let rest := source.dropWhile isXmlSpace
  if rest.isEmpty then .ok () else .error rest

private def declarationStandalone (named value valued after : List Char) :
    Except (List Char) Unit :=
  if itemName named ≠ "standalone" then .error named
  else if value = "yes".toList ∨ value = "no".toList then declarationEnd after
  else .error valued

private def declarationEncoding (named value valued after : List Char) :
    Except (List Char) Unit :=
  if itemName named = "encoding" then
    if !(value.headD ' ').isAlpha then .error valued
    else do
      match ← declarationItem after with
      | none => .ok ()
      | some (named, value, valued, after) => declarationStandalone named value valued after
  else declarationStandalone named value valued after

/-- Checks the text of a declaration: a version, then perhaps an encoding and whether the document
stands alone. -/
def checkDeclaration (text : List Char) : Except (List Char) Unit := do
  match ← declarationItem text with
  | none => .error text
  | some (named, _, _, after) =>
    if itemName named ≠ "version" then .error named
    else
      match ← declarationItem after with
      | none => .ok ()
      | some (named, value, valued, after) => declarationEncoding named value valued after

end DeriveBounds.Xml
