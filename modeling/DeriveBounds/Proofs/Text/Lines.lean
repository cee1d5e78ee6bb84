import DeriveBounds.Text.Layout
import DeriveBounds.Text.Line

/-!
The lines of a joined text. No line has a break in it, so lines that are joined are read back
exactly when they have none of their own.
-/
namespace DeriveBounds.Text

/-- No character of the text breaks a line. -/
def Unbroken (text : String) : Prop := ∀ c ∈ text.toList, isLineBreak c = false

instance : DecidablePred Unbroken := fun text =>
  decidable_of_iff (text.toList.all fun c => !isLineBreak c) (by simp [Unbroken])

variable {text first second part separator : String} {parts : List String}
  {chars line rest : List Char} {c : Char}

@[simp] theorem unbroken_empty : Unbroken "" := by decide

@[simp] theorem unbroken_append :
    Unbroken (first ++ second) ↔ Unbroken first ∧ Unbroken second := by
  simp [Unbroken, or_imp, forall_and]

@[simp] theorem unbroken_indent : Unbroken (indent text) ↔ Unbroken text := by
  simp +decide [indent]

theorem unbroken_join (plain : Unbroken separator)
    (each : ∀ part ∈ parts, Unbroken part) : Unbroken (join separator parts) := by
  induction parts with
  | nil => exact unbroken_empty
  | cons part rest ih =>
    obtain ⟨own, others⟩ := List.forall_mem_cons.mp each
    cases rest with
    | nil => exact own
    | cons next rest =>
      rw [join_cons_cons]
      exact unbroken_append.mpr ⟨unbroken_append.mpr ⟨own, plain⟩, ih others⟩

theorem join_append {before after : List String} (some : before ≠ []) (more : after ≠ []) :
    join separator (before ++ after) =
      join separator before ++ separator ++ join separator after := by
  induction before with
  | nil => exact absurd rfl some
  | cons part rest ih =>
    cases rest with
    | nil =>
      obtain ⟨next, others, same⟩ := List.exists_cons_of_ne_nil more
      subst same
      exact join_cons_cons separator part next others
    | cons next rest =>
      have later := ih (List.cons_ne_nil next rest)
      rw [List.cons_append] at later
      rw [List.cons_append, List.cons_append, join_cons_cons, later, join_cons_cons]
      simp only [String.append_assoc]

/-- Joining joined parts joins all of them. -/
theorem join_map_join {blocks : List (List String)} (filled : ∀ block ∈ blocks, block ≠ []) :
    join separator (blocks.map (join separator)) = join separator blocks.flatten := by
  induction blocks with
  | nil => rfl
  | cons block rest ih =>
    obtain ⟨own, others⟩ := List.forall_mem_cons.mp filled
    have later := ih others
    cases rest with
    | nil => simp
    | cons next rest =>
      have more : (next :: rest).flatten ≠ [] := by
        obtain ⟨its, _⟩ := List.forall_mem_cons.mp others
        simp [its]
      rw [List.flatten_cons, join_append own more, ← later, List.map_cons, List.map_cons,
        join_cons_cons]

/-- A joined text ends as its last part does, unless that is empty. -/
theorem getLast?_join {last : String} (final : parts.getLast? = some last) (filled : last ≠ "") :
    (join separator parts).toList.getLast? = last.toList.getLast? := by
  have chars : last.toList ≠ [] := fun empty => filled (String.toList_eq_nil_iff.mp empty)
  induction parts with
  | nil => cases final
  | cons part rest ih =>
    cases rest with
    | nil =>
      cases final
      rfl
    | cons next rest =>
      have later := ih (by simpa using final)
      rw [join_cons_cons, String.toList_append, List.getLast?_append, later]
      simp [List.getLast?_eq_some_getLast chars]

theorem linesFrom_cons (free : isLineBreak c = false) :
    linesFrom line (c :: rest) = linesFrom (c :: line) rest := by
  rw [linesFrom]
  · rw [if_neg (by simp [free])]
  · intro rest' carriage _
    subst carriage
    exact absurd free (by decide)

/-- What breaks no line belongs to the line begun so far. -/
theorem linesFrom_append (free : ∀ c ∈ chars, isLineBreak c = false) :
    linesFrom line (chars ++ rest) = linesFrom (chars.reverse ++ line) rest := by
  induction chars generalizing line with
  | nil => rfl
  | cons c chars ih =>
    obtain ⟨own, others⟩ := List.forall_mem_cons.mp free
    rw [List.cons_append, linesFrom_cons own, ih others, List.reverse_cons, List.append_assoc]
    rfl

theorem linesFrom_lineFeed : linesFrom line ('\n' :: rest) =
    String.ofList line.reverse :: linesFrom [] rest := by
  rw [linesFrom]
  · exact if_pos rfl
  · nofun

theorem lines_of_unbroken (free : Unbroken text) (filled : text ≠ "") : lines text = [text] := by
  have chars : text.toList ≠ [] := fun empty => filled (String.toList_eq_nil_iff.mp empty)
  have read : linesFrom [] (text.toList ++ []) = _ := linesFrom_append free
  rw [List.append_nil, List.append_nil] at read
  rw [lines, read, linesFrom]
  simp [chars]

/-- A first line that ends in a line feed is read before the rest. -/
theorem lines_append_lineFeed (free : Unbroken first) :
    lines (first ++ "\n" ++ second) = first :: lines second := by
  have chars : (first ++ "\n" ++ second).toList = first.toList ++ '\n' :: second.toList := by
    simp
  rw [lines, chars, linesFrom_append free, linesFrom_lineFeed]
  simp [lines]

/-- Lines that are joined are read back when none has a break and the last is not empty. -/
theorem lines_join (free : ∀ part ∈ parts, Unbroken part) (filled : parts.getLast? ≠ some "") :
    lines (join "\n" parts) = parts := by
  induction parts with
  | nil => rfl
  | cons part rest ih =>
    obtain ⟨own, others⟩ := List.forall_mem_cons.mp free
    cases rest with
    | nil => exact lines_of_unbroken own (by simpa using filled)
    | cons next rest =>
      rw [join_cons_cons, lines_append_lineFeed own, ih others (by simpa using filled)]

/-- Lines that each end in a line feed are read back, empty ones too. -/
theorem lines_join_lineFeed (free : ∀ part ∈ parts, Unbroken part) (some : parts ≠ []) :
    lines (join "\n" parts ++ "\n") = parts := by
  induction parts with
  | nil => exact absurd rfl some
  | cons part rest ih =>
    obtain ⟨own, others⟩ := List.forall_mem_cons.mp free
    cases rest with
    | nil =>
      have read : lines (part ++ "\n" ++ "") = part :: lines "" := lines_append_lineFeed own
      rwa [String.append_empty] at read
    | cons next rest =>
      rw [join_cons_cons, String.append_assoc, lines_append_lineFeed own,
        ih others (List.cons_ne_nil next rest)]

theorem unbroken_of_mem_linesFrom (free : ∀ c ∈ line, isLineBreak c = false)
    (member : part ∈ linesFrom line chars) : Unbroken part := by
  have closed : Unbroken (String.ofList line.reverse) := by
    intro c member
    exact free c (by simpa using member)
  induction line, chars using linesFrom.induct with
  | case1 line empty => simp [linesFrom, empty] at member
  | case2 line filled =>
    simp [linesFrom, filled] at member
    exact member ▸ closed
  | case3 line rest ih =>
    rw [linesFrom] at member
    rcases List.mem_cons.mp member with own | later
    · exact own ▸ closed
    · exact ih (by simp) later (by simp)
  | case4 line c rest other broken ih =>
    have read : linesFrom line (c :: rest) = String.ofList line.reverse :: linesFrom [] rest := by
      rw [linesFrom]
      · exact if_pos broken
      · exact other
    rw [read] at member
    rcases List.mem_cons.mp member with own | later
    · exact own ▸ closed
    · exact ih (by simp) later (by simp)
  | case5 line c rest other whole ih =>
    have own : isLineBreak c = false := by simpa using whole
    rw [linesFrom_cons own] at member
    have more : ∀ d ∈ c :: line, isLineBreak d = false := List.forall_mem_cons.mpr ⟨own, free⟩
    refine ih more member ?_
    intro d present
    exact more d (by simpa [or_comm] using present)

/-- No line of a text has a break in it. -/
theorem unbroken_of_mem_lines (member : part ∈ lines text) : Unbroken part :=
  unbroken_of_mem_linesFrom (by simp) member

/-- Lines that are joined are read back exactly when none of them has a break. -/
theorem lines_join_iff (filled : parts.getLast? ≠ some "") :
    lines (join "\n" parts) = parts ↔ ∀ part ∈ parts, Unbroken part := by
  constructor
  · intro same part member
    rw [← same] at member
    exact unbroken_of_mem_lines member
  · exact fun free => lines_join free filled

end DeriveBounds.Text
