import Mathlib
import DeriveBounds.Proofs.Token.LongestMatch

/-!
What tokens keep of a text. Their texts are the text without its blanks, joined by blanks they are
read again, and texts with blanks between them are read one by one. A text that is not read stops
at the first place, behind longest lexemes, where no lexeme begins.
-/
namespace DeriveBounds

variable {text other : List Char} {tokens others : List Token} {token : Token} {c : Char}

theorem Token.isBlank_eq_false_of_isFormed (formed : token.isFormed = true) :
    ∀ c ∈ token.text.toList, Text.isBlank c = false := by
  cases token with
  | lifetime name =>
    simp only [isFormed] at formed
    split at formed
    · rename_i word chars
      simp only [text, chars]
      exact List.forall_mem_cons.mpr ⟨by decide, isBlank_eq_false_of_isIdent formed⟩
    · cases formed
  | ident name => exact isBlank_eq_false_of_isIdent formed
  | number digits =>
    simp only [isFormed] at formed
    split at formed
    · rename_i digit word chars
      obtain ⟨digit, inside⟩ := Bool.and_eq_true_iff.mp formed
      simp only [text, chars]
      refine List.forall_mem_cons.mpr ⟨?_, fun c member => ?_⟩
      · exact isBlank_eq_false_of_isIdentChar (isIdentChar_of_isDigit digit)
      · exact isBlank_eq_false_of_isIdentChar (List.all_eq_true.mp inside c member)
    · cases formed
  | punct mark =>
    have filled : (Token.punct mark).text.toList.all (fun c => !Text.isBlank c) = true := by
      cases mark <;> rfl
    simpa using filled

theorem Token.endsBefore_congr (head : text.head? = other.head?) :
    token.EndsBefore text ↔ token.EndsBefore other := by
  unfold EndsBefore
  split
  · rw [head]
  · rfl
  · rw [head]

/-- No character of the tokens is lost, and no other is kept. -/
theorem Spells.texts (spelled : Spells text tokens) :
    tokens.flatMap (·.text.toList) = text.filter fun c => !Text.isBlank c := by
  induction spelled with
  | done => rfl
  | blank white rest ih =>
    rw [ih, List.filter_cons_of_neg]
    rw [white]
    decide
  | token formed ends rest ih =>
    have kept := Token.isBlank_eq_false_of_isFormed formed
    rw [List.flatMap_cons, ih, List.filter_append]
    congr 1
    symm
    apply List.filter_eq_self.mpr
    intro c member
    rw [kept c member]
    rfl

/-- Texts with a blank between them are read apart. -/
theorem Spells.append (first : Spells text tokens) (white : Text.isBlank c = true)
    (second : Spells other others) : Spells (text ++ c :: other) (tokens ++ others) := by
  induction first with
  | done => exact .blank white second
  | blank white' rest ih => exact .blank white' ih
  | @token text tokens token formed ends rest ih =>
    rw [List.append_assoc]
    refine .token formed ?_ ih
    cases text with
    | nil => exact token.endsBefore_of_isBlank white
    | cons head tail => exact (Token.endsBefore_congr rfl).mp ends

theorem Spells.behind_blanks {blanks : List Char} (white : ∀ c ∈ blanks, Text.isBlank c = true)
    (spelled : Spells text tokens) : Spells (blanks ++ text) tokens := by
  induction blanks with
  | nil => exact spelled
  | cons c rest ih =>
    obtain ⟨first, white⟩ := List.forall_mem_cons.mp white
    exact .blank first (ih white)

/-- What the tokens of a text keep of it: all that is not blank, each token the form of its kind,
and that with single spaces between them they are read again. -/
structure Tokenized (text : String) (tokens : List Token) : Prop where
  texts : tokens.flatMap (·.text.toList) = text.toList.filter fun c => !Text.isBlank c
  formed : ∀ token ∈ tokens, token.isFormed = true
  stable : tokenize (Text.join " " (tokens.map Token.text)) = .ok tokens

theorem Spells.tokenized {text : String} (spelled : Spells text.toList tokens) :
    Tokenized text tokens := by
  constructor
  case texts => exact spelled.texts
  case formed => exact spelled.formed
  case stable =>
    have again := spells_runText spelled.formed endsWord_nil (by simp) .done
    rw [List.append_nil, List.append_nil] at again
    exact tokenize_eq_ok_iff.mpr again

/-- The text is taken in longest lexemes up to the offset, where the character found there begins
neither blanks nor a token. -/
def StopsAt (text : String) (error : LexError) : Prop :=
  ∃ tokens rest, text.toList.drop error.offset = error.found :: rest ∧
    Consumes text.toList tokens (error.found :: rest) ∧ ¬ BeginsLexeme (error.found :: rest)

theorem tokenize_eq_error_iff {text : String} {error : LexError} :
    tokenize text = .error error ↔ StopsAt text error := by
  have failed : tokenize text = .error error ↔ ∃ left, Token.scanAll text.toList = .error left ∧
      ⟨left.headD ' ', text.length - left.length⟩ = error := by
    unfold tokenize
    cases Token.scanAll text.toList <;> simp
  have dropped {left : List Char} (suffix : left <:+ text.toList) :
      text.toList.drop (text.length - left.length) = left := by
    obtain ⟨front, whole⟩ := suffix
    rw [← String.length_toList, ← whole]
    simp
  rw [failed]
  constructor
  · intro parts
    obtain ⟨left, scanned, same⟩ := parts
    subst same
    obtain ⟨filled, stuck, tokens, consumes⟩ := scanAll_eq_error_iff.mp scanned
    obtain ⟨c, rest, same⟩ := List.exists_cons_of_ne_nil filled
    subst same
    exact ⟨tokens, rest, dropped consumes.suffix, consumes, stuck⟩
  · intro stops
    obtain ⟨tokens, rest, behind, consumes, stuck⟩ := stops
    refine ⟨error.found :: rest, scanAll_eq_error_iff.mpr ⟨by simp, stuck, tokens, consumes⟩, ?_⟩
    have place := congrArg List.length behind
    rw [List.length_drop, String.length_toList, List.length_cons] at place
    cases error with
    | mk found offset =>
      simp only [LexError.mk.injEq, List.headD_cons, List.length_cons, true_and]
      dsimp only at place
      omega

/-- What tokens say of their text, how texts are put together, and where reading stops. -/
theorem tokenize_lossless (text : String) :
    (∀ tokens, tokenize text = .ok tokens → Tokenized text tokens) ∧
      (∀ tokens other others blanks, tokenize text = .ok tokens → tokenize other = .ok others →
        blanks ≠ "" → (∀ c ∈ blanks.toList, Text.isBlank c = true) →
        tokenize (text ++ blanks ++ other) = .ok (tokens ++ others)) ∧
      ∀ error, tokenize text = .error error ↔ StopsAt text error := by
  refine ⟨fun tokens read => (tokenize_eq_ok_iff.mp read).tokenized, ?_, fun error => ?_⟩
  · intro tokens other others blanks first second filled white
    have filled : blanks.toList ≠ [] := fun empty => filled (String.toList_eq_nil_iff.mp empty)
    obtain ⟨c, rest, chars⟩ := List.exists_cons_of_ne_nil filled
    rw [chars] at white
    obtain ⟨blank, white⟩ := List.forall_mem_cons.mp white
    have behind := Spells.behind_blanks white (tokenize_eq_ok_iff.mp second)
    have spelled := (tokenize_eq_ok_iff.mp first).append blank behind
    apply tokenize_eq_ok_iff.mpr
    simpa [chars] using spelled
  · exact tokenize_eq_error_iff

/-- A minus and an angle stay apart, and the arrow is one mark. -/
theorem tokenize_lossless_sample :
    let tokens : List Token := [.punct .ampersand, .lifetime "'a", .ident "T", .punct .minus]
    let others : List Token := [.punct .greater, .punct .arrow, .number "3u"]
    tokenize "&'a\tT-" = .ok tokens ∧ Tokenized "&'a\tT-" tokens ∧
      tokenize ">->3u" = .ok others ∧ tokenize ("&'a\tT-" ++ "\u00a0\n" ++ ">->3u") =
        .ok (tokens ++ others) ∧
      tokenize "T # 'a" = .error ⟨'#', 2⟩ ∧ StopsAt "T # 'a" ⟨'#', 2⟩ := by
  intro tokens others
  have first : tokenize "&'a\tT-" = .ok tokens := by cbv
  have second : tokenize ">->3u" = .ok others := by cbv
  have failed : tokenize "T # 'a" = .error ⟨'#', 2⟩ := by cbv
  obtain ⟨lossless, separable, _⟩ := tokenize_lossless "&'a\tT-"
  obtain ⟨_, _, stops⟩ := tokenize_lossless "T # 'a"
  exact ⟨first, lossless tokens first, second,
    separable tokens ">->3u" others "\u00a0\n" first second (by decide) (List.all_eq_true.mp rfl),
    failed, (stops _).mp failed⟩

end DeriveBounds
