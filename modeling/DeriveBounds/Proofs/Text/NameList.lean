import DeriveBounds.Identifier
import DeriveBounds.Text.Layout

/-!
Texts that list names. The names of a text are those it lists, and they come apart at every
separator, so it does not matter how names are spread over texts.
-/
namespace DeriveBounds

/-- The text lists the names in order: no name holds a separator, and behind each of them stands a
separator or the end. -/
inductive ListsNames : List Char → List String → Prop where
  | done : ListsNames [] []
  | separator (separates : separatesNames c = true) (rest : ListsNames text names) :
      ListsNames (c :: text) names
  | name (filled : word ≠ []) (whole : ∀ c ∈ word, separatesNames c = false)
      (ends : ∀ c, text.head? = some c → separatesNames c = true) (rest : ListsNames text names) :
      ListsNames (word ++ text) (String.ofList word :: names)

/-- Between them, the texts list the names in order. -/
inductive ListAll : List String → List String → Prop where
  | nil : ListAll [] []
  | cons {text : String} (lists : ListsNames text.toList names) (rest : ListAll texts others) :
      ListAll (text :: texts) (names ++ others)

/-- The texts list the same names in the same order, however these are spread over them. -/
def SameNames (first second : List String) : Prop :=
  ∃ names, ListAll first names ∧ ListAll second names

variable {c : Char} {text rest word begun : List Char} {names texts : List String}

theorem namesFrom_nil_separator (separates : separatesNames c = true) :
    namesFrom [] (c :: text) = namesFrom [] text := by
  simp [namesFrom, separates]

/-- Names come apart at a separator. All else about their lists follows from this. -/
theorem namesFrom_append_separator (separates : separatesNames c = true) :
    namesFrom begun (text ++ c :: rest) = namesFrom begun text ++ namesFrom [] rest := by
  induction text generalizing begun with
  | nil =>
    simp only [List.nil_append, namesFrom, separates, ↓reduceIte]
    split <;> simp
  | cons d text ih =>
    simp only [List.cons_append, namesFrom]
    split
    · split
      · exact ih
      · rw [ih, List.cons_append]
    · exact ih

theorem namesFrom_append_of_whole (whole : ∀ c ∈ word, separatesNames c = false) :
    namesFrom begun (word ++ text) = namesFrom (word.reverse ++ begun) text := by
  induction word generalizing begun with
  | nil => rfl
  | cons c word ih =>
    obtain ⟨first, whole⟩ := List.forall_mem_cons.mp whole
    simp only [List.cons_append, namesFrom, first, Bool.false_eq_true, ↓reduceIte, ih whole,
      List.reverse_cons, List.append_assoc, List.nil_append]

/-- A name ends where a separator or nothing stands behind it. -/
theorem namesFrom_of_ends (filled : begun ≠ [])
    (ends : ∀ c, text.head? = some c → separatesNames c = true) :
    namesFrom begun text = String.ofList begun.reverse :: namesFrom [] text := by
  cases text with
  | nil => simp [namesFrom, filled]
  | cons c text =>
    have separates := ends c rfl
    simp [namesFrom, separates, filled]

theorem namesFrom_nil_separators {separators : List Char}
    (separate : ∀ c ∈ separators, separatesNames c = true) :
    namesFrom [] (separators ++ text) = namesFrom [] text := by
  induction separators with
  | nil => rfl
  | cons c others ih =>
    obtain ⟨first, separate⟩ := List.forall_mem_cons.mp separate
    rw [List.cons_append, namesFrom_nil_separator first, ih separate]

theorem ListsNames.namesFrom (lists : ListsNames text names) : namesFrom [] text = names := by
  induction lists with
  | done => rfl
  | separator separates rest ih => rw [namesFrom_nil_separator separates, ih]
  | name filled whole ends rest ih =>
    rw [namesFrom_append_of_whole whole, List.append_nil, namesFrom_of_ends (by simpa) ends,
      List.reverse_reverse, ih]

theorem ListsNames.of_namesFrom (whole : ∀ c ∈ begun, separatesNames c = false) :
    ListsNames (begun.reverse ++ text) (DeriveBounds.namesFrom begun text) := by
  induction text generalizing begun with
  | nil =>
    by_cases filled : begun = []
    · subst filled
      exact .done
    · rw [namesFrom_of_ends filled (by simp)]
      exact .name (by simpa) (by simpa) (by simp) .done
  | cons c text ih =>
    by_cases separates : separatesNames c = true
    · have behind : ListsNames (c :: text) (DeriveBounds.namesFrom [] (c :: text)) := by
        rw [namesFrom_nil_separator separates]
        exact .separator separates (@ih [] (by simp))
      by_cases filled : begun = []
      · subst filled
        exact behind
      · have ends : ∀ d, (c :: text).head? = some d → separatesNames d = true := by
          simpa using separates
        rw [namesFrom_of_ends filled ends]
        exact .name (by simpa) (by simpa) ends behind
    · rw [Bool.not_eq_true] at separates
      have longer := ih (List.forall_mem_cons.mpr ⟨separates, whole⟩)
      simpa [DeriveBounds.namesFrom, separates] using longer

/-- The names of a text are those it lists. -/
theorem namesIn_eq_iff {text : String} : namesIn text = names ↔ ListsNames text.toList names := by
  constructor
  · intro same
    subst same
    exact @ListsNames.of_namesFrom text.toList [] (by simp)
  · exact ListsNames.namesFrom

/-- A name that is listed holds no separator. -/
theorem ListsNames.whole (lists : ListsNames text names) :
    ∀ name ∈ names, ∀ c ∈ name.toList, separatesNames c = false := by
  induction lists with
  | done => simp
  | separator separates rest ih => exact ih
  | name filled whole ends rest ih =>
    refine List.forall_mem_cons.mpr ⟨?_, ih⟩
    rwa [String.toList_ofList]

theorem namesIn_append {first second separator : String} (filled : separator ≠ "")
    (separate : ∀ c ∈ separator.toList, separatesNames c = true) :
    namesIn (first ++ separator ++ second) = namesIn first ++ namesIn second := by
  have filled : separator.toList ≠ [] := fun empty => filled (String.toList_eq_nil_iff.mp empty)
  obtain ⟨c, others, chars⟩ := List.exists_cons_of_ne_nil filled
  rw [chars] at separate
  obtain ⟨separates, separate⟩ := List.forall_mem_cons.mp separate
  rw [namesIn, String.toList_append, String.toList_append, chars, List.append_assoc,
    List.cons_append, namesFrom_append_separator separates, namesFrom_nil_separators separate]
  rfl

/-- Joined by separators, texts list what each of them lists. -/
theorem namesIn_join {separator : String} (filled : separator ≠ "")
    (separate : ∀ c ∈ separator.toList, separatesNames c = true) :
    namesIn (Text.join separator texts) = texts.flatMap namesIn := by
  induction texts with
  | nil => rfl
  | cons text rest ih =>
    cases rest with
    | nil => simp
    | cons next others =>
      rw [Text.join_cons_cons, namesIn_append filled separate, ih, ← List.flatMap_cons]

theorem listAll_iff : ListAll texts names ↔ texts.flatMap namesIn = names := by
  constructor
  · intro lists
    induction lists with
    | nil => rfl
    | cons lists rest ih => rw [List.flatMap_cons, namesIn_eq_iff.mpr lists, ih]
  · intro same
    subst same
    induction texts with
    | nil => exact .nil
    | cons text texts ih => exact .cons (namesIn_eq_iff.mp rfl) ih

theorem sameNames_iff {first second : List String} :
    SameNames first second ↔ first.flatMap namesIn = second.flatMap namesIn := by
  simp only [SameNames, listAll_iff, exists_eq_left']
  exact eq_comm

end DeriveBounds
