import Mathlib
import DeriveBounds.Proofs.Classified
import DeriveBounds.Proofs.Token.Spelling
import DeriveBounds.Registry

/-!
Selection by name beside classification. A name is looked up as it is written, and classified
without the blanks around it, so the two agree as long as no type that is asked for is padded.
-/
namespace DeriveBounds

open Xml (Element)

/-- The name of the type that an element is classified as. -/
def typeName? (element : Element) : Option String :=
  (classify element).toOption.map (·.name)

/-- Selection goes by the names of types: what is selected holds every type of a wanted name, in
the order of the elements, and a name is missed only where no type has it. -/
def SelectionAgrees (elements : List Element) (names : List String) : Prop :=
  match selectTypes elements names with
  | .ok selected => selected.Sublist elements ∧
    (elements.filter fun element => (typeName? element).any names.contains).Sublist selected
  | .error (.typesNotFound absent) =>
    ∀ name ∈ absent, ∀ element ∈ elements, typeName? element ≠ some name
  | .error _ => False

/-- An element writes the name like this. -/
def Spelled (elements : List Element) (name : String) : Prop :=
  ∃ element ∈ elements, element.attribute? "name" = some name

/-- The element is a type of the name, but writes it otherwise. -/
def Padded (element : Element) (name : String) : Prop :=
  typeName? element = some name ∧ element.attribute? "name" ≠ some name

variable {elements : List Element} {element : Element} {names : List String} {name text : String}

/-- There is nothing to strip from an identifier. -/
theorem strip_of_isIdent (plain : isIdent text.toList = true) : Text.strip text = text := by
  have filled := isBlank_eq_false_of_isIdent plain
  have untouched (word : List Char) (inside : ∀ c ∈ word, Text.isBlank c = false) :
      word.dropWhile Text.isBlank = word := by
    rw [List.dropWhile_eq_self_iff]
    intro long
    rw [inside _ (List.getElem_mem long)]
    exact Bool.false_ne_true
  have turned : ∀ c ∈ text.toList.reverse, Text.isBlank c = false :=
    fun c member => filled c (List.mem_reverse.mp member)
  rw [Text.strip, untouched _ filled, untouched _ turned, List.reverse_reverse,
    String.ofList_toList]

theorem mem_sortedNames : name ∈ sortedNames names ↔ name ∈ names := by
  rw [sortedNames, List.mem_eraseDups, List.mem_mergeSort]

theorem strip_of_typeName? (typed : typeName? element = some name) :
    Text.strip (element.attributeD "name") = name := by
  obtain ⟨definition, classified, same⟩ := Option.map_eq_some_iff.mp typed
  have classified : classify element = .ok definition := by
    cases read : classify element with
    | error error => simp [read, Except.toOption] at classified
    | ok found =>
      simp only [read, Except.toOption, Option.some.injEq] at classified
      rw [classified]
  rw [← same, (Classified.of_classify classified).name]

/-- A type that writes an identifier has it as its name. -/
theorem eq_of_typeName? (typed : typeName? element = some name)
    (written : element.attribute? "name" = some text) (plain : isIdent text.toList = true) :
    text = name := by
  have stripped := strip_of_typeName? typed
  rwa [Element.attributeD, written, Option.getD_some, strip_of_isIdent plain] at stripped

section

variable (asked : names ≠ [])

include asked

theorem selectTypes_of_spelled (spelled : ∀ name ∈ names, Spelled elements name) :
    selectTypes elements names =
      .ok (elements.filter fun element => (element.attribute? "name").any names.contains) := by
  have found : names.filter (fun name =>
      !(elements.map (·.attribute? "name")).contains (some name)) = [] := by
    rw [List.filter_eq_nil_iff]
    intro name member
    simpa [Spelled] using spelled name member
  have none : sortedNames [] = [] := by simp [sortedNames]
  rw [selectTypes, if_neg (by simpa using asked)]
  simp only [found, none, List.isEmpty_nil, ↓reduceIte]

/-- Where a name is written by no element, exactly such names are missed. -/
theorem selectTypes_of_missing (missing : ¬ ∀ name ∈ names, Spelled elements name) :
    ∃ absent, selectTypes elements names = .error (.typesNotFound absent) ∧
      ∀ name, name ∈ absent ↔ name ∈ names ∧ ¬ Spelled elements name := by
  have members (name : String) : name ∈ sortedNames (names.filter fun name =>
      !(elements.map (·.attribute? "name")).contains (some name)) ↔
        name ∈ names ∧ ¬ Spelled elements name := by
    simp [mem_sortedNames, Spelled]
  refine ⟨_, ?_, members⟩
  rw [selectTypes, if_neg (by simpa using asked), if_neg]
  rw [List.isEmpty_iff]
  intro empty
  apply missing
  intro name member
  by_contra unwritten
  have present := (members name).mpr ⟨member, unwritten⟩
  rw [empty] at present
  cases present

end

/-- A filter keeps what a narrower one keeps, in the same order. -/
theorem filter_sublist_filter_iff {items : List α} {narrow wide : α → Bool} :
    (items.filter narrow).Sublist (items.filter wide) ↔
      ∀ item ∈ items, narrow item = true → wide item = true := by
  constructor
  · intro kept item member due
    exact (List.mem_filter.mp (kept.subset (List.mem_filter.mpr ⟨member, due⟩))).2
  · intro wider
    have within : items.filter narrow = (items.filter wide).filter narrow := by
      rw [List.filter_filter]
      apply List.filter_congr
      intro item member
      cases due : narrow item with
      | false => rfl
      | true => exact (wider item member due).symm
    rw [within]
    exact List.filter_sublist

/-- Selection of identifiers goes by the names of types unless a type that is wanted is padded, and
either it stays out of a selection that is made, or it is there under a name that is missed. -/
theorem selectTypes_agrees_iff (asked : names ≠ [])
    (plain : ∀ name ∈ names, isIdent name.toList = true) :
    SelectionAgrees elements names ↔
      ¬ ∃ element ∈ elements, ∃ name ∈ names, Padded element name ∧
        ((∀ other ∈ names, Spelled elements other) ∨ ¬ Spelled elements name) := by
  by_cases spelled : ∀ name ∈ names, Spelled elements name
  · rw [SelectionAgrees, selectTypes_of_spelled asked spelled]
    simp only [filter_sublist_filter_iff, List.filter_sublist, true_and]
    constructor
    · intro law parts
      obtain ⟨element, member, name, wanted, ⟨typed, padded⟩, _⟩ := parts
      have chosen := law element member (by simpa [typed] using wanted)
      obtain ⟨text, written, listed⟩ : ∃ text, element.attribute? "name" = some text ∧
          text ∈ names := by
        simpa [Option.any_eq_true] using chosen
      have same := eq_of_typeName? typed written (plain text listed)
      exact padded (same ▸ written)
    · intro clean element member wanted
      obtain ⟨name, typed, listed⟩ : ∃ name, typeName? element = some name ∧ name ∈ names := by
        simpa [Option.any_eq_true] using wanted
      by_contra left
      have padded : element.attribute? "name" ≠ some name := by
        intro written
        apply left
        simpa [written] using listed
      exact clean ⟨element, member, name, listed, ⟨typed, padded⟩, .inl spelled⟩
  · obtain ⟨absent, missed, members⟩ := selectTypes_of_missing asked spelled
    rw [SelectionAgrees, missed]
    constructor
    · intro law parts
      obtain ⟨element, member, name, wanted, padded, either⟩ := parts
      have unwritten := either.resolve_left spelled
      exact law name ((members name).mpr ⟨wanted, unwritten⟩) element member padded.1
    · intro clean name listed element member typed
      obtain ⟨wanted, unwritten⟩ := (members name).mp listed
      have padded : Padded element name :=
        ⟨typed, fun written => unwritten ⟨element, member, written⟩⟩
      exact clean ⟨element, member, name, wanted, padded, .inr unwritten⟩

/-- A struct without members. -/
private def emptyStruct (name : String) : Element :=
  ⟨"type", [("name", name), ("category", "struct")], none, []⟩

theorem selectTypes_agrees_iff_sample :
    let elements := [emptyStruct "Pair", emptyStruct " Pair "]
    ["Pair"] ≠ [] ∧ (∀ name ∈ ["Pair"], isIdent name.toList = true) ∧
      (SelectionAgrees elements ["Pair"] ↔
        ¬ ∃ element ∈ elements, ∃ name ∈ ["Pair"], Padded element name ∧
          ((∀ other ∈ ["Pair"], Spelled elements other) ∨ ¬ Spelled elements name)) := by
  intro elements
  have asked : ["Pair"] ≠ [] := by decide
  have plain : ∀ name ∈ ["Pair"], isIdent name.toList = true := by decide
  exact ⟨asked, plain, selectTypes_agrees_iff asked plain⟩

/-- A type is missed under the name that it is classified and listed by. -/
theorem selectTypes_misses_padded :
    typeName? (emptyStruct " Pair ") = some "Pair" ∧
      selectTypes [emptyStruct " Pair "] ["Pair"] = .error (.typesNotFound ["Pair"]) ∧
      ¬ SelectionAgrees [emptyStruct " Pair "] ["Pair"] := by
  have typed : typeName? (emptyStruct " Pair ") = some "Pair" := by cbv
  have missed : selectTypes [emptyStruct " Pair "] ["Pair"] = .error (.typesNotFound ["Pair"]) := by
    cbv
  refine ⟨typed, missed, ?_⟩
  intro law
  rw [SelectionAgrees, missed] at law
  exact law "Pair" (List.mem_singleton_self _) _ (List.mem_singleton_self _) typed

end DeriveBounds
