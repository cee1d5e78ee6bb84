import DeriveBounds.Token.Lexer
import DeriveBounds.Proofs.Outcome

/-!
How a text spells tokens: the texts of the tokens in order, with blanks between them wherever one
token would otherwise run on into the next. Reading a text gives the tokens it spells.
-/
namespace DeriveBounds

/-- The form of a token of each kind. -/
def Token.isFormed : Token → Bool
  | lifetime name =>
    match name.toList with
    | '\x27' :: name => isIdent name
    | _ => false
  | ident name => isIdent name.toList
  | number text =>
    match text.toList with
    | c :: cs => c.isDigit && cs.all isIdentChar
    | [] => false
  | punct _ => true

/-- A token that ends where the text begins, because the text does not carry it on. -/
def Token.EndsBefore (text : List Char) : Token → Prop
  | punct .minus => text.head? ≠ some '>'
  | punct _ => True
  | _ => ∀ c, text.head? = some c → isIdentChar c = false

inductive Spells : List Char → List Token → Prop where
  | done : Spells [] []
  | blank (white : Text.isBlank c = true) (rest : Spells text tokens) : Spells (c :: text) tokens
  | token (formed : token.isFormed = true) (ends : token.EndsBefore text)
      (rest : Spells text tokens) : Spells (token.text.toList ++ text) (token :: tokens)

/-- What is read at once at the front of a text: a run of blanks as far as it goes, or a formed token
that the rest does not carry on. -/
inductive Token.Front : List Char → Option Token → List Char → Prop where
  | blanks (white : Text.isBlank c = true) : Front (c :: cs) none (cs.dropWhile Text.isBlank)
  | token (formed : token.isFormed = true) (ends : token.EndsBefore rest) :
      Front (token.text.toList ++ rest) (some token) rest

variable {c : Char} {cs text word : List Char} {token : Token} {tokens : List Token}

theorem Spells.mark (mark : Punct) (ends : (Token.punct mark).EndsBefore text)
    (rest : Spells text tokens) : Spells (mark.text.toList ++ text) (.punct mark :: tokens) := by
  have spelling : mark.text = (Token.punct mark).text := rfl
  rw [spelling]
  exact .token rfl ends rest

theorem Spells.formed (spelled : Spells text tokens) : ∀ token ∈ tokens, token.isFormed = true := by
  induction spelled with
  | done => simp
  | blank white rest ih => exact ih
  | token formed ends rest ih => exact List.forall_mem_cons.mpr ⟨formed, ih⟩

theorem takeWhile_append_of_ends {p : Char → Bool} (all : word.all p = true)
    (ends : ∀ c, text.head? = some c → p c = false) : (word ++ text).takeWhile p = word := by
  rw [List.takeWhile_append_of_pos (by simpa using all)]
  cases text with
  | nil => simp
  | cons c rest => simp [ends c rfl]

theorem dropWhile_append_of_ends {p : Char → Bool} (all : word.all p = true)
    (ends : ∀ c, text.head? = some c → p c = false) : (word ++ text).dropWhile p = text := by
  rw [List.dropWhile_append_of_pos (by simpa using all)]
  cases text with
  | nil => simp
  | cons c rest => simp [ends c rfl]

theorem not_of_head?_dropWhile {p : Char → Bool} (head : (text.dropWhile p).head? = some c) :
    p c = false := by
  have stopped := List.head?_dropWhile_not p text
  rw [head] at stopped
  exact stopped

theorem isIdentChar_of_isIdentStart (start : isIdentStart c = true) : isIdentChar c = true := by
  simp only [isIdentStart, isIdentChar, Bool.or_eq_true, Char.isAlphanum] at *
  exact start.imp_left .inl

theorem isIdentChar_of_isDigit (digit : c.isDigit = true) : isIdentChar c = true := by
  simp [isIdentChar, Char.isAlphanum, digit]

/-- Where the letters lie. -/
theorem isAlpha_iff : c.isAlpha = true ↔
    65 ≤ c.toNat ∧ c.toNat ≤ 90 ∨ 97 ≤ c.toNat ∧ c.toNat ≤ 122 := by
  have ranges : c.isAlpha = (decide ('A'.val ≤ c.val ∧ c.val ≤ 'Z'.val) ||
      ('a'.val ≤ c.val && c.val ≤ 'z'.val)) := rfl
  rw [ranges]
  simp only [Bool.or_eq_true, Bool.and_eq_true, decide_eq_true_eq, UInt32.le_iff_toNat_le]
  exact Iff.rfl

/-- Where the digits lie. -/
theorem isDigit_iff : c.isDigit = true ↔ 48 ≤ c.toNat ∧ c.toNat ≤ 57 := by
  have range : c.isDigit = ('0'.val ≤ c.val && c.val ≤ '9'.val) := rfl
  rw [range]
  simp only [Bool.and_eq_true, decide_eq_true_eq, UInt32.le_iff_toNat_le]
  exact Iff.rfl

/-- Where the characters of words lie. -/
theorem toNat_of_isIdentChar (inside : isIdentChar c = true) :
    48 ≤ c.toNat ∧ c.toNat ≤ 57 ∨ 65 ≤ c.toNat ∧ c.toNat ≤ 90 ∨ c.toNat = 95 ∨
      97 ≤ c.toNat ∧ c.toNat ≤ 122 := by
  simp only [isIdentChar, Char.isAlphanum, Bool.or_eq_true, beq_iff_eq, isAlpha_iff,
    isDigit_iff] at inside
  rcases inside with (letter | digit) | underscore
  · omega
  · omega
  · subst underscore
    decide

theorem isBlank_eq_false_of_isIdentChar (inside : isIdentChar c = true) :
    Text.isBlank c = false := by
  have place := toNat_of_isIdentChar inside
  simp only [Text.isBlank, Text.blankRuns, List.any_cons, List.any_nil, Bool.or_eq_false_iff,
    Bool.and_eq_false_iff, decide_eq_false_iff_not, and_true]
  omega

theorem isBlank_eq_false_of_isIdent {word : List Char} (plain : isIdent word = true) :
    ∀ c ∈ word, Text.isBlank c = false := by
  cases word with
  | nil => cases plain
  | cons first rest =>
    obtain ⟨start, inside⟩ := Bool.and_eq_true_iff.mp plain
    refine List.forall_mem_cons.mpr ⟨?_, fun c member => ?_⟩
    · exact isBlank_eq_false_of_isIdentChar (isIdentChar_of_isIdentStart start)
    · exact isBlank_eq_false_of_isIdentChar (List.all_eq_true.mp inside c member)

theorem ne_apostrophe_of_isIdentChar (inside : isIdentChar c = true) : c ≠ '\x27' := by
  intro same
  subst same
  exact absurd inside (by decide)

theorem isIdentStart_eq_false_of_isDigit (digit : c.isDigit = true) : isIdentStart c = false := by
  rw [isDigit_iff] at digit
  rw [Bool.eq_false_iff]
  intro start
  simp only [isIdentStart, Bool.or_eq_true, beq_iff_eq, isAlpha_iff] at start
  rcases start with letter | underscore
  · omega
  · subst underscore
    exact absurd digit (by decide)

namespace Token

/-- What reading at the front of a text gives, and what it leaves. -/
def Scans (c : Char) (cs : List Char) (found : Option Token) (rest : List Char) : Prop :=
  ∃ step, scan? c cs = some step ∧ step.value = found ∧ step.rest = rest

theorem scanAll_of_scans (scans : Scans c cs found rest) :
    scanAll (c :: cs) = (scanAll rest).map (found.toList ++ ·) := by
  obtain ⟨step, scanned, value, left⟩ := scans
  subst value left
  rw [scanAll.eq_def]
  simp only [scanned]
  cases scanAll step.rest <;> rfl

theorem scans_blank (white : Text.isBlank c = true) :
    Scans c cs none (cs.dropWhile Text.isBlank) := by
  unfold Scans scan?
  simp only [white, ↓reduceIte]
  exact ⟨_, rfl, rfl, rfl⟩

theorem scans_ident (start : isIdentStart c = true) :
    Scans c cs (some (.ident (String.ofList (c :: cs.takeWhile isIdentChar))))
      (cs.dropWhile isIdentChar) := by
  have inside := isIdentChar_of_isIdentStart start
  unfold Scans scan?
  simp only [isBlank_eq_false_of_isIdentChar inside,
    ne_apostrophe_of_isIdentChar inside, start, Bool.false_eq_true, ↓reduceIte]
  exact ⟨_, rfl, rfl, rfl⟩

theorem scans_number (digit : c.isDigit = true) :
    Scans c cs (some (.number (String.ofList (c :: cs.takeWhile isIdentChar))))
      (cs.dropWhile isIdentChar) := by
  have inside := isIdentChar_of_isDigit digit
  unfold Scans scan?
  simp only [isBlank_eq_false_of_isIdentChar inside,
    ne_apostrophe_of_isIdentChar inside, isIdentStart_eq_false_of_isDigit digit, digit,
    Bool.false_eq_true, ↓reduceIte]
  exact ⟨_, rfl, rfl, rfl⟩

theorem scans_lifetime (start : isIdentStart c = true) :
    Scans '\x27' (c :: cs)
      (some (.lifetime (String.ofList ('\x27' :: c :: cs.takeWhile isIdentChar))))
      (cs.dropWhile isIdentChar) := by
  have notBlank : Text.isBlank '\x27' = false := by decide
  unfold Scans scan?
  simp only [notBlank, start, Bool.false_eq_true, ↓reduceIte]
  exact ⟨_, rfl, rfl, rfl⟩

theorem scans_mark (step : Step (c :: cs) Punct)
    (other : Text.isBlank c = false ∧ c ≠ '\x27' ∧ isIdentStart c = false ∧ c.isDigit = false)
    (scanned : Punct.scan? c cs = some step) : Scans c cs (some (.punct step.value)) step.rest := by
  obtain ⟨notBlank, notQuote, notStart, notDigit⟩ := other
  unfold Scans scan?
  simp only [notBlank, notQuote, notStart, notDigit, scanned, Bool.false_eq_true, ↓reduceIte]
  exact ⟨_, rfl, rfl, rfl⟩

/-- A mark is read as itself, unless it is a minus that an angle would make an arrow. -/
theorem scans_punct (mark : Punct) (ends : (punct mark).EndsBefore text) :
    ∃ c cs, mark.text.toList ++ text = c :: cs ∧ Scans c cs (some (.punct mark)) text := by
  cases mark
  case minus =>
    have single : Punct.scan? '-' text = some (.one .minus) := by
      cases text with
      | nil => rfl
      | cons d rest =>
        have notAngle : d ≠ '>' := fun same => ends (congrArg some same)
        simp [Punct.scan?, notAngle, Punct.ofChar?]
    exact ⟨'-', text, rfl, scans_mark (.one .minus) (by decide) single⟩
  case pathSep => exact ⟨':', ':' :: text, rfl, scans_mark (.two .pathSep) (by decide) rfl⟩
  case arrow => exact ⟨'-', '>' :: text, rfl, scans_mark (.two .arrow) (by decide) rfl⟩
  all_goals exact ⟨_, text, rfl, scans_mark (.one _) (by decide) rfl⟩

/-- A formed token that the text does not carry on is read as itself. -/
theorem scans_token (formed : token.isFormed = true) (ends : token.EndsBefore text) :
    ∃ c cs, token.text.toList ++ text = c :: cs ∧ Scans c cs (some token) text := by
  cases token with
  | lifetime name =>
    simp only [isFormed] at formed
    split at formed
    · rename_i word chars
      cases word with
      | nil => simp [isIdent] at formed
      | cons c word =>
        obtain ⟨start, all⟩ := Bool.and_eq_true_iff.mp formed
        have scans : Scans '\x27' (c :: (word ++ text)) _ _ := scans_lifetime start
        rw [takeWhile_append_of_ends all ends, dropWhile_append_of_ends all ends, ← chars,
          String.ofList_toList] at scans
        exact ⟨_, _, congrArg (· ++ text) chars, scans⟩
    · cases formed
  | ident name =>
    cases chars : name.toList with
    | nil => simp [isFormed, chars, isIdent] at formed
    | cons c word =>
      simp only [isFormed, chars, isIdent, Bool.and_eq_true] at formed
      obtain ⟨start, all⟩ := formed
      have scans : Scans c (word ++ text) _ _ := scans_ident start
      rw [takeWhile_append_of_ends all ends, dropWhile_append_of_ends all ends, ← chars,
        String.ofList_toList] at scans
      exact ⟨_, _, congrArg (· ++ text) chars, scans⟩
  | number digits =>
    cases chars : digits.toList with
    | nil => simp [isFormed, chars] at formed
    | cons c word =>
      simp only [isFormed, chars, Bool.and_eq_true] at formed
      obtain ⟨digit, all⟩ := formed
      have scans : Scans c (word ++ text) _ _ := scans_number digit
      rw [takeWhile_append_of_ends all ends, dropWhile_append_of_ends all ends, ← chars,
        String.ofList_toList] at scans
      exact ⟨_, _, congrArg (· ++ text) chars, scans⟩
  | punct mark => exact scans_punct mark ends

theorem scanAll_dropWhile_blank (text : List Char) :
    scanAll (text.dropWhile Text.isBlank) = scanAll text := by
  cases text with
  | nil => rfl
  | cons c rest =>
    by_cases white : Text.isBlank c = true
    · rw [List.dropWhile_cons_of_pos white, scanAll_of_scans (scans_blank white)]
      cases scanAll (rest.dropWhile Text.isBlank) <;> rfl
    · rw [List.dropWhile_cons_of_neg white]

/-- A word that is read as far as it goes is one token. -/
theorem front_word (start : List Char) (formed : token.isFormed = true)
    (word : token.text.toList = start ++ text.takeWhile isIdentChar)
    (ends : token.EndsBefore (text.dropWhile isIdentChar)) :
    Front (start ++ text) (some token) (text.dropWhile isIdentChar) := by
  have whole : start ++ text = token.text.toList ++ text.dropWhile isIdentChar := by
    rw [word, List.append_assoc, List.takeWhile_append_dropWhile]
  exact whole ▸ .token formed ends

theorem spells_of_dropWhile_blank (spelled : Spells (text.dropWhile Text.isBlank) tokens) :
    Spells text tokens := by
  induction text with
  | nil => exact spelled
  | cons c rest ih =>
    by_cases white : Text.isBlank c = true
    · rw [List.dropWhile_cons_of_pos white] at spelled
      exact .blank white (ih spelled)
    · rwa [List.dropWhile_cons_of_neg white] at spelled

theorem text_of_ofChar? {mark : Punct} (known : Punct.ofChar? c = some mark) :
    mark.text.toList = [c] := by
  unfold Punct.ofChar? at known
  split at known <;> cases known <;> rfl

theorem Front.mark (mark : Punct) {rest : List Char} (ends : (punct mark).EndsBefore rest) :
    Front (mark.text.toList ++ rest) (some (punct mark)) rest := by
  have spelling : mark.text = (punct mark).text := rfl
  rw [spelling]
  exact .token rfl ends

theorem front_punct {step : Step (c :: cs) Punct} (scanned : Punct.scan? c cs = some step) :
    Front (c :: cs) (some (punct step.value)) step.rest := by
  unfold Punct.scan? at scanned
  split at scanned
  · cases scanned
    exact .mark .pathSep trivial
  · cases scanned
    exact .mark .arrow trivial
  · rename_i noArrow
    obtain ⟨mark, known, same⟩ := Option.map_eq_some_iff.mp scanned
    subst same
    have char := text_of_ofChar? known
    have ends : (punct mark).EndsBefore cs := by
      cases mark
      case minus =>
        intro head
        obtain ⟨rest, same⟩ := List.head?_eq_some_iff.mp head
        exact noArrow rest (List.head_eq_of_cons_eq char).symm same
      all_goals trivial
    have whole : mark.text.toList ++ cs = c :: cs := congrArg (· ++ cs) char
    change Front (c :: cs) (some (punct mark)) cs
    rw [← whole]
    exact .mark mark ends

/-- What is read at the front of a text is what stands there. -/
theorem Scans.front (scans : Scans c cs found rest) : Front (c :: cs) found rest := by
  obtain ⟨step, scanned, value, left⟩ := scans
  subst value left
  unfold scan? at scanned
  split at scanned
  · rename_i white
    cases scanned
    exact .blanks white
  · split at scanned
    · rename_i quote
      subst quote
      split at scanned
      · rename_i d ds
        split at scanned
        · rename_i start
          cases scanned
          change Front (['\x27', d] ++ ds)
            (some (lifetime (String.ofList ('\x27' :: d :: ds.takeWhile isIdentChar)))) _
          exact front_word _ (by simp [isFormed, isIdent, start]) (by simp [Token.text])
            (fun _ head => not_of_head?_dropWhile head)
        · cases scanned
      · cases scanned
    · split at scanned
      · rename_i start
        cases scanned
        change Front ([c] ++ cs) (some (ident (String.ofList (c :: cs.takeWhile isIdentChar)))) _
        exact front_word _ (by simp [isFormed, isIdent, start]) (by simp [Token.text])
          (fun _ head => not_of_head?_dropWhile head)
      · split at scanned
        · rename_i digit
          cases scanned
          change Front ([c] ++ cs)
            (some (number (String.ofList (c :: cs.takeWhile isIdentChar)))) _
          exact front_word _ (by simp [isFormed, digit]) (by simp [Token.text])
            (fun _ head => not_of_head?_dropWhile head)
        · obtain ⟨punctStep, found, same⟩ := Option.map_eq_some_iff.mp scanned
          subst same
          exact front_punct found

theorem Front.spells (front : Front text found rest) (spelled : Spells rest tokens) :
    Spells text (found.toList ++ tokens) := by
  cases front with
  | blanks white => exact .blank white (spells_of_dropWhile_blank spelled)
  | token formed ends => exact .token formed ends spelled

end Token

theorem Spells.scanAll (spelled : Spells text tokens) : Token.scanAll text = .ok tokens := by
  induction spelled with
  | done => rw [Token.scanAll.eq_def]
  | @blank c text tokens white rest ih =>
    rw [Token.scanAll_of_scans (Token.scans_blank white), Token.scanAll_dropWhile_blank, ih]
    rfl
  | @token token text tokens formed ends rest ih =>
    obtain ⟨c, cs, front, scans⟩ := Token.scans_token formed ends
    rw [front, Token.scanAll_of_scans scans, ih]
    rfl

theorem Spells.of_scanAll (scanned : Token.scanAll text = .ok tokens) : Spells text tokens := by
  fun_induction Token.scanAll text generalizing tokens with
  | case1 =>
    cases scanned
    exact .done
  | case2 c cs none => cases scanned
  | case3 c cs step found ih =>
    obtain ⟨rest, restScanned, same⟩ := bind_eq_ok_iff.mp scanned
    cases same
    exact (Token.Scans.front ⟨step, found, rfl, rfl⟩).spells (ih restScanned)

/-- Reading a text gives the tokens it spells. -/
theorem tokenize_eq_ok_iff {text : String} {tokens : List Token} :
    tokenize text = .ok tokens ↔ Spells text.toList tokens := by
  unfold tokenize
  constructor
  · intro read
    split at read
    · rename_i scanned
      cases read
      exact .of_scanAll scanned
    · cases read
  · intro spelled
    rw [spelled.scanAll]

end DeriveBounds
