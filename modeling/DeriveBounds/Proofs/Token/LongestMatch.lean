import Mathlib.Data.List.TakeWhile
import DeriveBounds.Proofs.TypeExpr.Printing

/-!
How a text comes apart. What is read at its front is the longest run of blanks or token that begins
there, and reading fails exactly where none begins. Nothing but blanks is lost, and with a blank
between them two texts are read apart.
-/
namespace DeriveBounds

/-- What can be taken from a text at once: blanks, or the text of a formed token. -/
inductive Lexeme : Option Token → List Char → Prop where
  | blanks (filled : word ≠ []) (white : ∀ c ∈ word, Text.isBlank c = true) : Lexeme none word
  | token (formed : token.isFormed = true) : Lexeme (some token) token.text.toList

/-- A lexeme begins the text. -/
def BeginsLexeme (text : List Char) : Prop :=
  ∃ found word, Lexeme found word ∧ word <+: text

/-- A lexeme that begins the text, and none that begins it is longer. -/
structure LongestLexeme (found : Option Token) (word text : List Char) : Prop where
  lexeme : Lexeme found word
  begins : word <+: text
  longest : ∀ other shorter, Lexeme other shorter → shorter <+: text →
    shorter.length ≤ word.length

/-- The first text is taken, one longest lexeme behind the other, up to the second; the tokens are
those among the lexemes. -/
inductive Consumes : List Char → List Token → List Char → Prop where
  | done : Consumes rest [] rest
  | lexeme (first : LongestLexeme found word (word ++ text)) (others : Consumes text tokens rest) :
      Consumes (word ++ text) (found.toList ++ tokens) rest

variable {text rest word more left : List Char} {found other : Option Token} {token : Token}
  {tokens : List Token}

theorem isIdent_append (plain : isIdent word = true) (inside : ∀ c ∈ more, isIdentChar c = true) :
    isIdent (word ++ more) = true := by
  cases word with
  | nil => cases plain
  | cons first others =>
    simp only [isIdent, List.cons_append, Bool.and_eq_true, List.all_append,
      List.all_eq_true] at plain ⊢
    exact ⟨plain.1, plain.2, inside⟩

namespace Token

theorem Front.scans (front : Front text found rest) :
    ∃ c cs, text = c :: cs ∧ Scans c cs found rest := by
  cases front with
  | blanks white => exact ⟨_, _, rfl, scans_blank white⟩
  | token formed ends => exact scans_token formed ends

theorem Front.unique (front : Front text found rest) (again : Front text other left) :
    found = other ∧ rest = left := by
  obtain ⟨c, cs, same, step, scanned, value, after⟩ := front.scans
  obtain ⟨_, _, same', step', scanned', value', after'⟩ := again.scans
  cases same.symm.trans same'
  cases scanned.symm.trans scanned'
  exact ⟨value.symm.trans value', after.symm.trans after'⟩

theorem endsBefore_nil (token : Token) : token.EndsBefore [] := by
  cases token with
  | punct mark => cases mark <;> simp [EndsBefore]
  | _ => exact endsWord_nil

/-- A word that is carried on is still a word. -/
theorem front_carried (formed : token.isFormed = true) (unmarked : ∀ mark, token ≠ .punct mark) :
    ∃ longer, Front (token.text.toList ++ rest) (some longer) (rest.dropWhile isIdentChar) := by
  have inside : ∀ c ∈ rest.takeWhile isIdentChar, isIdentChar c = true :=
    List.all_eq_true.mp List.all_takeWhile
  have ends : EndsWord (rest.dropWhile isIdentChar) := fun _ head => not_of_head?_dropWhile head
  cases token with
  | punct mark => exact absurd rfl (unmarked mark)
  | ident name =>
    refine ⟨.ident (String.ofList (name.toList ++ rest.takeWhile isIdentChar)), ?_⟩
    refine front_word _ ?_ (by simp [Token.text]) ends
    simpa [isFormed] using isIdent_append formed inside
  | number digits =>
    refine ⟨.number (String.ofList (digits.toList ++ rest.takeWhile isIdentChar)), ?_⟩
    refine front_word _ ?_ (by simp [Token.text]) ends
    cases chars : digits.toList with
    | nil => simp [isFormed, chars] at formed
    | cons first others =>
      simp only [isFormed, chars, Bool.and_eq_true, List.all_eq_true] at formed
      simpa [isFormed, formed.1] using formed.2
  | lifetime name =>
    refine ⟨.lifetime (String.ofList (name.toList ++ rest.takeWhile isIdentChar)), ?_⟩
    refine front_word _ ?_ (by simp [Token.text]) ends
    simp only [isFormed] at formed
    split at formed
    · rename_i name chars
      simpa [isFormed, chars] using isIdent_append formed inside
    · cases formed

end Token

open Token (Front)

theorem Lexeme.front (lexeme : Lexeme found word) : Front word found [] := by
  cases lexeme with
  | blanks filled white =>
    obtain ⟨c, cs, same⟩ := List.exists_cons_of_ne_nil filled
    subst same
    obtain ⟨first, others⟩ := List.forall_mem_cons.mp white
    have whole : Front (c :: cs) none _ := .blanks first
    rwa [List.dropWhile_eq_nil_iff.mpr others] at whole
  | token formed =>
    have whole := Front.token formed (Token.endsBefore_nil _)
    rwa [List.append_nil] at whole

/-- Where a lexeme begins a text, at least as much is read. -/
theorem Lexeme.front_append (lexeme : Lexeme found word) (rest : List Char) :
    ∃ other left, Front (word ++ rest) other left ∧ left.length ≤ rest.length := by
  cases lexeme with
  | blanks filled white =>
    obtain ⟨c, cs, same⟩ := List.exists_cons_of_ne_nil filled
    subst same
    obtain ⟨first, others⟩ := List.forall_mem_cons.mp white
    have whole : Front (c :: (cs ++ rest)) none _ := .blanks first
    rw [List.dropWhile_append_of_pos others] at whole
    exact ⟨none, _, whole, (List.dropWhile_suffix _).length_le⟩
  | @token token formed =>
    by_cases ends : token.EndsBefore rest
    · exact ⟨_, rest, .token formed ends, Nat.le_refl _⟩
    · by_cases marked : ∃ mark, token = .punct mark
      · obtain ⟨mark, same⟩ := marked
        subst same
        -- of all marks only a minus goes on, into an arrow
        cases mark
        case minus =>
          obtain ⟨after, same⟩ := List.head?_eq_some_iff.mp (Decidable.not_not.mp ends)
          subst same
          exact ⟨_, after, Front.mark .arrow trivial, Nat.le_succ _⟩
        all_goals exact absurd trivial ends
      · have unmarked : ∀ mark, token ≠ .punct mark := fun mark same => marked ⟨mark, same⟩
        obtain ⟨longer, front⟩ := Token.front_carried formed unmarked
        exact ⟨_, _, front, (List.dropWhile_suffix _).length_le⟩

theorem Lexeme.unique (lexeme : Lexeme found word) (again : Lexeme other word) : found = other :=
  (lexeme.front.unique again.front).1

theorem BeginsLexeme.exists_front (begins : BeginsLexeme text) :
    ∃ found rest, Front text found rest := by
  obtain ⟨_, word, lexeme, more, same⟩ := begins
  subst same
  obtain ⟨found, rest, front, _⟩ := lexeme.front_append more
  exact ⟨found, rest, front⟩

/-- What is read at the front of a text is the longest lexeme there. -/
theorem Token.Front.longest (front : Front text found rest) :
    ∃ word, text = word ++ rest ∧ LongestLexeme found word text := by
  have taken : ∃ word, text = word ++ rest ∧ Lexeme found word := by
    cases front with
    | @blanks c cs white =>
      refine ⟨c :: cs.takeWhile Text.isBlank, ?_, .blanks (by simp) ?_⟩
      · rw [List.cons_append, List.takeWhile_append_dropWhile]
      · exact List.forall_mem_cons.mpr ⟨white, List.all_eq_true.mp List.all_takeWhile⟩
    | token formed ends => exact ⟨_, rfl, .token formed⟩
  obtain ⟨word, whole, lexeme⟩ := taken
  refine ⟨word, whole, lexeme, ⟨rest, whole.symm⟩, ?_⟩
  intro other shorter begun within
  obtain ⟨more, same⟩ := within
  obtain ⟨_, left, again, bound⟩ := begun.front_append more
  rw [same] at again
  obtain ⟨_, same'⟩ := front.unique again
  subst same'
  have total := congrArg List.length (same.trans whole)
  rw [List.length_append, List.length_append] at total
  omega

theorem LongestLexeme.front (first : LongestLexeme found word (word ++ text)) :
    Front (word ++ text) found text := by
  obtain ⟨other, left, front, bound⟩ := first.lexeme.front_append text
  obtain ⟨word', whole, longest⟩ := front.longest
  have shorter := first.longest _ _ longest.lexeme longest.begins
  have total := congrArg List.length whole
  rw [List.length_append, List.length_append] at total
  obtain ⟨same, same'⟩ := List.append_inj whole (by omega)
  subst same same'
  rwa [first.lexeme.unique longest.lexeme]

theorem Consumes.of_front (front : Front text found rest) (others : Consumes rest tokens left) :
    Consumes text (found.toList ++ tokens) left := by
  obtain ⟨word, whole, longest⟩ := front.longest
  subst whole
  exact .lexeme longest others

theorem scan?_eq_none_iff : Token.scan? c cs = none ↔ ¬ BeginsLexeme (c :: cs) := by
  constructor
  · intro stuck begins
    obtain ⟨_, _, front⟩ := begins.exists_front
    obtain ⟨_, _, same, step, scanned, _⟩ := front.scans
    cases same
    rw [stuck] at scanned
    cases scanned
  · intro stuck
    cases scanned : Token.scan? c cs with
    | none => rfl
    | some step =>
      have front := Token.Scans.front ⟨step, scanned, rfl, rfl⟩
      obtain ⟨word, _, longest⟩ := front.longest
      exact absurd ⟨_, word, longest.lexeme, longest.begins⟩ stuck

theorem Consumes.suffix (consumes : Consumes text tokens rest) : rest <:+ text := by
  induction consumes with
  | done => exact List.suffix_refl _
  | lexeme first others ih => exact ih.trans (List.suffix_append _ _)

/-- Reading stops at what is left when it is not empty and no lexeme begins it. -/
theorem scanAll_eq_error_iff : Token.scanAll text = .error left ↔
    left ≠ [] ∧ ¬ BeginsLexeme left ∧ ∃ tokens, Consumes text tokens left := by
  constructor
  · intro failed
    fun_induction Token.scanAll text with
    | case1 => cases failed
    | case2 c cs stuck =>
      cases failed
      exact ⟨by simp, scan?_eq_none_iff.mp stuck, [], .done⟩
    | case3 c cs step found ih =>
      cases others : Token.scanAll step.rest with
      | ok tokens =>
        rw [others] at failed
        cases failed
      | error left' =>
        rw [others] at failed
        cases failed
        obtain ⟨filled, stuck, tokens, consumes⟩ := ih others
        have front := Token.Scans.front ⟨step, found, rfl, rfl⟩
        exact ⟨filled, stuck, _, .of_front front consumes⟩
  · intro parts
    obtain ⟨filled, stuck, tokens, consumes⟩ := parts
    induction consumes with
    | done =>
      obtain ⟨c, cs, same⟩ := List.exists_cons_of_ne_nil filled
      subst same
      rw [Token.scanAll.eq_def]
      simp only [scan?_eq_none_iff.mpr stuck]
    | lexeme first others ih =>
      obtain ⟨c, cs, same, scans⟩ := first.front.scans
      rw [same, Token.scanAll_of_scans scans, ih filled stuck]
      rfl

end DeriveBounds
