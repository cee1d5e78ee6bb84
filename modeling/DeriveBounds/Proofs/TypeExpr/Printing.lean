import DeriveBounds.Proofs.TypeExpr.WellFormed
import DeriveBounds.TypeExpr.Printer

/-!
What the canonical text of a tree spells. Its tokens are a function of the tree, and no two tokens
that meet in the text of a proper tree run into one.
-/
namespace DeriveBounds

/-- The tokens of a text kept in a tree. -/
def textTokens (text : String) : List Token :=
  match tokenize text with
  | .ok tokens => tokens
  | .error _ => []

def lengthTokens : Option String → List Token
  | none => []
  | some text => .punct .semicolon :: textTokens text

/-- The parts with the mark between neighbours. -/
def joinTokens (mark : Punct) : List (List Token) → List Token
  | [] => []
  | [part] => part
  | part :: rest => part ++ .punct mark :: joinTokens mark rest

mutual

/-- The tokens of the canonical text. -/
def TypeExpr.tokens : TypeExpr → List Token
  | .path leadingColon segments =>
    (if leadingColon then [.punct .pathSep] else []) ++
      joinTokens .pathSep (segmentsTokens segments)
  | .qualified self trait segments =>
    .punct .less :: (self.tokens ++ (traitTokens trait ++
      .punct .greater :: .punct .pathSep :: joinTokens .pathSep (segmentsTokens segments)))
  | .reference lifetime mutable inner =>
    .punct .ampersand :: (lifetimeMark lifetime ++ (mutMark mutable ++ inner.tokens))
  | .pointer mutable inner =>
    .punct .star :: .ident (if mutable then "mut" else "const") :: inner.tokens
  | .tuple [element] =>
    .punct .openParen :: (element.tokens ++ .punct .comma :: [.punct .closeParen])
  | .tuple elements =>
    .punct .openParen :: (joinTokens .comma (typesTokens elements) ++ [.punct .closeParen])
  | .array element length =>
    .punct .openBracket :: (element.tokens ++ (lengthTokens length ++ [.punct .closeBracket]))
  | .fnPointer params output =>
    .ident "fn" :: .punct .openParen ::
      (joinTokens .comma (typesTokens params) ++ .punct .closeParen :: outputTokens output)
  | .lifetime name => [.lifetime name]
  | .const text => textTokens text
  | .foreign _ => []

def Segment.tokens : Segment → List Token
  | .mk name [] => [.ident name]
  | .mk name args =>
    .ident name :: .punct .less :: (joinTokens .comma (typesTokens args) ++ [.punct .greater])

def typesTokens : List TypeExpr → List (List Token)
  | [] => []
  | type :: rest => type.tokens :: typesTokens rest

def segmentsTokens : List Segment → List (List Token)
  | [] => []
  | segment :: rest => segment.tokens :: segmentsTokens rest

def traitTokens : Option TypeExpr → List Token
  | none => []
  | some trait => .ident "as" :: trait.tokens

def outputTokens : Option TypeExpr → List Token
  | none => []
  | some output => .punct .arrow :: output.tokens

end

theorem typeTexts_eq_map (types : List TypeExpr) : typeTexts types = types.map TypeExpr.text := by
  induction types with
  | nil => rfl
  | cons type rest ih => rw [typeTexts, ih, List.map_cons]

theorem segmentTexts_eq_map (segments : List Segment) :
    segmentTexts segments = segments.map Segment.text := by
  induction segments with
  | nil => rfl
  | cons segment rest ih => rw [segmentTexts, ih, List.map_cons]

theorem typesTokens_eq_map (types : List TypeExpr) :
    typesTokens types = types.map TypeExpr.tokens := by
  induction types with
  | nil => rfl
  | cons type rest ih => rw [typesTokens, ih, List.map_cons]

theorem segmentsTokens_eq_map (segments : List Segment) :
    segmentsTokens segments = segments.map Segment.tokens := by
  induction segments with
  | nil => rfl
  | cons segment rest ih => rw [segmentsTokens, ih, List.map_cons]

/-- A text that no word runs on into. -/
def EndsWord (text : List Char) : Prop :=
  ∀ c, text.head? = some c → isIdentChar c = false

theorem endsWord_nil : EndsWord [] := by
  simp [EndsWord]

theorem endsWord_cons (ends : isIdentChar c = false) : EndsWord (c :: cs) := by
  intro _ same
  cases same
  exact ends

/-- Before any text that ends a word, the first text spells the tokens. -/
def Prints (text : String) (tokens : List Token) : Prop :=
  ∀ cs ts, EndsWord cs → Spells cs ts → Spells (text.toList ++ cs) (tokens ++ ts)

theorem Prints.nil : Prints "" [] :=
  fun _ _ _ rest => rest

theorem Prints.before (prints : Prints text tokens) (ends : isIdentChar c = false)
    (rest : Spells (c :: cs) ts) : Spells (text.toList ++ c :: cs) (tokens ++ ts) :=
  prints (c :: cs) ts (endsWord_cons ends) rest

theorem Prints.token {token : Token} (formed : token.isFormed = true)
    (ends : ∀ text, EndsWord text → token.EndsBefore text) : Prints token.text [token] :=
  fun cs _ word rest => .token formed (ends cs word) rest

theorem Prints.ident (named : isIdent name.toList = true) : Prints name [.ident name] := by
  change Prints (Token.ident name).text [.ident name]
  exact .token named fun _ ends => ends

theorem textTokens_of_spells {text : String} (spelled : Spells text.toList tokens) :
    textTokens text = tokens := by
  rw [textTokens, tokenize_eq_ok_iff.mpr spelled]

theorem Prints.spells (prints : Prints text tokens) : Spells text.toList tokens := by
  have spelled := prints [] [] endsWord_nil .done
  rwa [List.append_nil, List.append_nil] at spelled

theorem Prints.textTokens (prints : Prints text tokens) : textTokens text = tokens :=
  textTokens_of_spells prints.spells

/-- Any token ends before a blank. -/
theorem Token.endsBefore_of_isBlank {text : List Char} (token : Token)
    (white : Text.isBlank c = true) : token.EndsBefore (c :: text) := by
  have outside : isIdentChar c = false := by
    rw [Bool.eq_false_iff]
    intro inside
    rw [isBlank_eq_false_of_isIdentChar inside] at white
    cases white
  cases token with
  | punct mark =>
    have noAngle : c ≠ '>' := by
      intro same
      subst same
      exact absurd white (by decide)
    cases mark <;> simp [EndsBefore, noAngle]
  | _ => exact endsWord_cons outside

theorem Token.endsBefore_blank {text : List Char} (token : Token) :
    token.EndsBefore (' ' :: text) :=
  token.endsBefore_of_isBlank (by decide)

theorem Spells.parted (token : Token) (formed : token.isFormed = true) (rest : Spells text tokens) :
    Spells (token.text.toList ++ ' ' :: text) (token :: tokens) :=
  .token formed token.endsBefore_blank (.blank (by decide) rest)

theorem Token.endsBefore_of_endsWord {text : List Char} (token : Token) (ends : EndsWord text)
    (noAngle : text.head? ≠ some '>') : token.EndsBefore text := by
  cases token with
  | punct mark => cases mark <;> first | exact noAngle | trivial
  | _ => exact ends

theorem spells_runText {run : List Token} (formed : ∀ token ∈ run, token.isFormed = true)
    (ends : EndsWord text) (noAngle : text.head? ≠ some '>') (rest : Spells text tokens) :
    Spells ((runText run).toList ++ text) (run ++ tokens) := by
  induction run with
  | nil => exact rest
  | cons token others ih =>
    obtain ⟨first, formed⟩ := List.forall_mem_cons.mp formed
    cases others with
    | nil => exact .token first (token.endsBefore_of_endsWord ends noAngle) rest
    | cons next others =>
      simp only [runText, List.map_cons, Text.join_cons_cons, String.toList_append,
        List.append_assoc]
      exact .token first token.endsBefore_blank (.blank (by decide) (ih formed))

theorem textTokens_runText {run : List Token} (formed : ∀ token ∈ run, token.isFormed = true) :
    textTokens (runText run) = run := by
  have spelled := spells_runText formed endsWord_nil (by simp) .done
  rw [List.append_nil, List.append_nil] at spelled
  exact textTokens_of_spells spelled

theorem prints_number (formed : (Token.number text).isFormed = true) :
    Prints text [.number text] := by
  change Prints (Token.number text).text [.number text]
  exact .token formed fun _ ends => ends

theorem prints_negative (formed : (Token.number text).isFormed = true) :
    Prints ("-" ++ text) [.punct .minus, .number text] := by
  intro cs ts ends spelled
  simp only [String.toList_append, List.append_assoc]
  refine .mark .minus ?_ (prints_number formed cs ts ends spelled)
  cases chars : text.toList with
  | nil => simp [Token.isFormed, chars] at formed
  | cons c word =>
    simp only [Token.isFormed, chars, Bool.and_eq_true] at formed
    intro same
    cases same
    exact absurd formed.1 (by decide)

theorem prints_block {run : List Token} (formed : ∀ token ∈ run, token.isFormed = true) :
    Prints ("\x7b " ++ runText run ++ " \x7d")
      (.punct .openBrace :: (run ++ [.punct .closeBrace])) := by
  intro cs ts ends spelled
  simp only [String.toList_append, List.append_assoc, List.cons_append, List.nil_append]
  have behind : Spells (" \x7d".toList ++ cs) (.punct .closeBrace :: ts) :=
    .blank (by decide) (.mark .closeBrace trivial spelled)
  have noAngle : some ' ' ≠ some '>' := by decide
  have inside := spells_runText formed (endsWord_cons (by decide)) noAngle behind
  exact .parted (.punct .openBrace) rfl inside

theorem ConstText.prints (const : ConstText text) : Prints text (textTokens text) := by
  cases const with
  | number formed =>
    rw [(prints_number formed).textTokens]
    exact prints_number formed
  | negative formed =>
    rw [(prints_negative formed).textTokens]
    exact prints_negative formed
  | block raw =>
    obtain ⟨run, filled, formed, form, same⟩ := raw
    subst same
    rw [(prints_block formed).textTokens]
    exact prints_block formed

/-- Parts that print do so joined, when what parts them in the text spells the mark. -/
theorem prints_join {text : α → String} {tokens : α → List Token} {items : List α}
    (parts : ∀ {cs ts}, Spells cs ts →
      EndsWord (separator.toList ++ cs) ∧ Spells (separator.toList ++ cs) (.punct mark :: ts))
    (each : ∀ item ∈ items, Prints (text item) (tokens item)) :
    Prints (Text.join separator (items.map text)) (joinTokens mark (items.map tokens)) := by
  induction items with
  | nil => exact .nil
  | cons item others ih =>
    obtain ⟨first, each⟩ := List.forall_mem_cons.mp each
    cases others with
    | nil => exact first
    | cons next rest =>
      intro cs ts ends spelled
      have others := ih each cs ts ends spelled
      simp only [List.map_cons, Text.join_cons_cons, joinTokens, String.toList_append,
        List.append_assoc, List.cons_append] at others ⊢
      exact first _ _ (parts others).1 (parts others).2

theorem prints_typeTexts (each : ∀ type ∈ types, Prints type.text type.tokens) :
    Prints (Text.join ", " (typeTexts types)) (joinTokens .comma (typesTokens types)) := by
  rw [typeTexts_eq_map, typesTokens_eq_map]
  apply prints_join _ each
  intro cs ts spelled
  exact ⟨endsWord_cons (by decide), .parted (.punct .comma) rfl spelled⟩

theorem prints_segmentTexts (each : ∀ segment ∈ segments, Prints segment.text segment.tokens) :
    Prints (Text.join "::" (segmentTexts segments))
      (joinTokens .pathSep (segmentsTokens segments)) := by
  rw [segmentTexts_eq_map, segmentsTokens_eq_map]
  apply prints_join _ each
  intro cs ts spelled
  exact ⟨endsWord_cons (by decide), .mark .pathSep trivial spelled⟩

theorem prints_traitText (each : ∀ path, named = some path → Prints path.text path.tokens) :
    Prints (traitText named) (traitTokens named) := by
  cases named with
  | none => exact .nil
  | some path =>
    intro cs ts ends spelled
    simp only [traitText, traitTokens, String.toList_append, List.append_assoc]
    exact .blank (by decide) (.parted (.ident "as") rfl (each path rfl cs ts ends spelled))

theorem endsWord_traitText (ends : EndsWord cs) : EndsWord ((traitText named).toList ++ cs) := by
  cases named with
  | none => exact ends
  | some path =>
    simp only [traitText, String.toList_append, List.append_assoc]
    exact endsWord_cons (by decide)

theorem prints_outputText (each : ∀ type, result = some type → Prints type.text type.tokens) :
    Prints (outputText result) (outputTokens result) := by
  cases result with
  | none => exact .nil
  | some type =>
    intro cs ts ends spelled
    simp only [outputText, outputTokens, String.toList_append, List.append_assoc]
    exact .blank (by decide) (.parted (.punct .arrow) rfl (each type rfl cs ts ends spelled))

theorem spells_lifetimeText
    (formed : ∀ name, marked = some name → (Token.lifetime name).isFormed = true)
    (spelled : Spells text tokens) :
    Spells ((lifetimeText marked).toList ++ text) (lifetimeMark marked ++ tokens) := by
  cases marked with
  | none => exact spelled
  | some name =>
    have formed := formed name rfl
    have filled : name ≠ "" := by
      intro empty
      subst empty
      exact absurd formed (by decide)
    rw [lifetimeText, if_neg filled, String.toList_append, List.append_assoc]
    exact .parted (.lifetime name) formed spelled

theorem spells_mutText {mutable : Bool} (spelled : Spells text tokens) :
    Spells ((if mutable then "mut " else "").toList ++ text) (mutMark mutable ++ tokens) := by
  cases mutable with
  | false => exact spelled
  | true => exact .parted (.ident "mut") rfl spelled

mutual

theorem TypeExpr.Proper.prints (proper : TypeExpr.Proper type) : Prints type.text type.tokens := by
  match proper with
  | .path path plain => exact path.prints
  | .qualified self trait filled segments =>
    have selfPrints := self.prints
    have traitPrints := prints_traitText fun path same => (trait path same).prints
    have segmentsPrint := prints_segmentTexts fun name member => (segments name member).prints
    intro cs ts ends spelled
    simp only [TypeExpr.text, TypeExpr.tokens, String.toList_append, List.append_assoc,
      List.cons_append]
    have behind := Spells.mark .greater trivial
      (.mark .pathSep trivial (segmentsPrint cs ts ends spelled))
    have angle := traitPrints.before (by decide) behind
    exact .mark .less trivial
      (selfPrints _ _ (endsWord_traitText (endsWord_cons (by decide))) angle)
  | .reference lifetime inner =>
    have innerPrints := inner.prints
    intro cs ts ends spelled
    simp only [TypeExpr.text, TypeExpr.tokens, String.toList_append, List.append_assoc,
      List.cons_append]
    exact .mark .ampersand trivial
      (spells_lifetimeText lifetime (spells_mutText (innerPrints cs ts ends spelled)))
  | @TypeExpr.Proper.pointer type mutable inner =>
    have innerPrints := inner.prints
    intro cs ts ends spelled
    have inside := innerPrints cs ts ends spelled
    simp only [TypeExpr.text, TypeExpr.tokens, String.toList_append, List.append_assoc,
      List.cons_append]
    cases mutable with
    | false => exact .mark .star trivial (.parted (.ident "const") rfl inside)
    | true => exact .mark .star trivial (.parted (.ident "mut") rfl inside)
  | @TypeExpr.Proper.tuple types elements =>
    have each := fun type member => (elements type member).prints
    intro cs ts ends spelled
    have close := Spells.mark .closeParen trivial spelled
    have inside := (prints_typeTexts each).before (by decide) close
    match types with
    | [] => exact .mark .openParen trivial close
    | [element] =>
      simp only [TypeExpr.text, TypeExpr.tokens, String.toList_append, List.append_assoc,
        List.cons_append, List.nil_append]
      have first := each element List.mem_cons_self
      exact .mark .openParen trivial
        (first.before (by decide) (.mark .comma trivial close))
    | first :: second :: rest =>
      simp only [TypeExpr.text, TypeExpr.tokens, String.toList_append, List.append_assoc,
        List.cons_append, List.nil_append]
      exact .mark .openParen trivial inside
  | @TypeExpr.Proper.array type size element length =>
    have elementPrints := element.prints
    intro cs ts ends spelled
    have close := Spells.mark .closeBracket trivial spelled
    cases size with
    | none =>
      simp only [TypeExpr.text, TypeExpr.tokens, lengthTokens, String.toList_append,
        List.append_assoc, List.cons_append, List.nil_append]
      exact .mark .openBracket trivial (elementPrints.before (by decide) close)
    | some text =>
      obtain ⟨run, filled, formed, form, same⟩ := length text rfl
      subst same
      simp only [TypeExpr.text, TypeExpr.tokens, lengthTokens, textTokens_runText formed,
        String.toList_append, List.append_assoc, List.cons_append, List.nil_append]
      have noAngle : some ']' ≠ some '>' := by decide
      have inside := spells_runText formed (endsWord_cons (by decide)) noAngle close
      exact .mark .openBracket trivial (elementPrints _ _ (endsWord_cons (by decide))
        (.parted (.punct .semicolon) rfl inside))
  | .function params output =>
    have paramsPrint := prints_typeTexts fun type member => (params type member).prints
    have outputPrints := prints_outputText fun type same => (output type same).prints
    intro cs ts ends spelled
    simp only [TypeExpr.text, TypeExpr.tokens, String.toList_append, List.append_assoc,
      List.cons_append]
    have behind := Spells.mark .closeParen trivial (outputPrints cs ts ends spelled)
    have inside := paramsPrint.before (by decide) behind
    have word : Prints "fn" [.ident "fn"] := .ident rfl
    exact word.before (by decide) (.mark .openParen trivial inside)

theorem TypeExpr.ProperPath.prints (proper : TypeExpr.ProperPath type) :
    Prints type.text type.tokens := by
  match proper with
  | @TypeExpr.ProperPath.path names leadingColon filled segments =>
    have written := prints_segmentTexts fun segment member => (segments segment member).prints
    intro cs ts ends spelled
    simp only [TypeExpr.text, TypeExpr.tokens, String.toList_append, List.append_assoc]
    have behind := written cs ts ends spelled
    cases leadingColon with
    | false => exact behind
    | true => exact .mark .pathSep trivial behind

theorem Segment.Proper.prints {segment : Segment} (proper : Segment.Proper segment) :
    Prints segment.text segment.tokens := by
  match proper with
  | @Segment.Proper.mk types name named args =>
    have word := Prints.ident named
    have argsPrint := prints_typeTexts fun type member => (args type member).prints
    cases types with
    | nil => exact word
    | cons first others =>
      intro cs ts ends spelled
      simp only [Segment.text, Segment.tokens, String.toList_append, List.append_assoc,
        List.cons_append]
      have behind := Spells.mark .greater trivial spelled
      have inside := argsPrint.before (by decide) behind
      exact word.before (by decide) (.mark .less trivial inside)

theorem TypeExpr.ProperArg.prints (proper : TypeExpr.ProperArg type) :
    Prints type.text type.tokens := by
  match proper with
  | .lifetime formed => exact Prints.token formed fun _ ends => ends
  | .const const => exact const.prints
  | .type type => exact type.prints

end

end DeriveBounds
