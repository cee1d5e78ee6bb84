import DeriveBounds.Proofs.TypeExpr.Stable
import DeriveBounds.TypeExpr.Mention

/-!
Searching a proper tree. What was read from a text is proper, and every path of a proper tree has a
first name, so the search for type parameters and the rendering both succeed.
-/
namespace DeriveBounds

theorem parseType_proper (parsed : parseType text = .ok type) : type.Proper := by
  obtain ⟨tokens, tokenized, reads⟩ := parseType_eq_ok_iff_reads.mp parsed
  exact (reads_whole_iff.mp reads).proper (tokenize_eq_ok_iff.mp tokenized).formed

variable {phantoms : List String}

theorem none_notMem_typeHeads (each : ∀ type ∈ types, none ∉ TypeExpr.heads phantoms type) :
    none ∉ typeHeads phantoms types := by
  induction types with
  | nil => simp [typeHeads]
  | cons type rest ih =>
    obtain ⟨first, each⟩ := List.forall_mem_cons.mp each
    rw [typeHeads, List.mem_append, not_or]
    exact ⟨first, ih each⟩

theorem none_notMem_optionHeads
    (each : ∀ type, option = some type → none ∉ TypeExpr.heads phantoms type) :
    none ∉ optionHeads phantoms option := by
  cases option with
  | none => simp [optionHeads]
  | some type => exact each type rfl

/-- The arguments of a segment that have a first name in every path. -/
def Segment.Headed (phantoms : List String) : Segment → Prop
  | .mk _ args => none ∉ typeHeads phantoms args

theorem none_notMem_segmentHeads (each : ∀ segment ∈ segments, Segment.Headed phantoms segment) :
    none ∉ segmentHeads phantoms segments := by
  induction segments with
  | nil => simp [segmentHeads]
  | cons segment rest ih =>
    cases segment
    obtain ⟨first, each⟩ := List.forall_mem_cons.mp each
    rw [segmentHeads, List.mem_append, not_or]
    exact ⟨first, ih each⟩

theorem none_notMem_pathHeads (each : ∀ segment ∈ segments, Segment.Headed phantoms segment) :
    none ∉ pathHeads phantoms segments := by
  induction segments with
  | nil => simp [pathHeads]
  | cons segment rest ih =>
    cases segment
    obtain ⟨first, each⟩ := List.forall_mem_cons.mp each
    cases rest with
    | nil =>
      rw [pathHeads]
      split
      · simp
      · exact first
    | cons next rest =>
      rw [pathHeads, List.mem_append, not_or]
      · exact ⟨first, ih each⟩
      · simp

theorem none_notMem_pathHead (filled : segments ≠ []) : none ∉ pathHead leadingColon segments := by
  cases segments with
  | nil => exact absurd rfl filled
  | cons segment rest =>
    cases segment
    rw [pathHead]
    split <;> simp

mutual

/-- No path of a proper tree is without segments. -/
theorem TypeExpr.Proper.heads (proper : TypeExpr.Proper type) : none ∉ type.heads phantoms := by
  match proper with
  | .path path plain => exact path.heads
  | .qualified self trait filled segments =>
    rw [TypeExpr.heads, List.mem_append, List.mem_append, not_or, not_or]
    exact ⟨⟨self.heads, none_notMem_optionHeads fun path same => (trait path same).heads⟩,
      none_notMem_segmentHeads fun name member => (segments name member).headed⟩
  | .reference lifetime inner => exact inner.heads
  | .pointer inner => exact inner.heads
  | .tuple elements => exact none_notMem_typeHeads fun type member => (elements type member).heads
  | .array element length => exact element.heads
  | .function params output =>
    rw [TypeExpr.heads, List.mem_append, not_or]
    exact ⟨none_notMem_typeHeads fun type member => (params type member).heads,
      none_notMem_optionHeads fun type same => (output type same).heads⟩

theorem TypeExpr.ProperPath.heads (proper : TypeExpr.ProperPath type) :
    none ∉ type.heads phantoms := by
  match proper with
  | .path filled segments =>
    rw [TypeExpr.heads, List.mem_append, not_or]
    exact ⟨none_notMem_pathHead filled,
      none_notMem_pathHeads fun name member => (segments name member).headed⟩

theorem Segment.Proper.headed {segment : Segment} (proper : Segment.Proper segment) :
    segment.Headed phantoms := by
  match proper with
  | .mk named args => exact none_notMem_typeHeads fun type member => (args type member).heads

theorem TypeExpr.ProperArg.heads (proper : TypeExpr.ProperArg type) :
    none ∉ type.heads phantoms := by
  match proper with
  | .lifetime formed => simp [TypeExpr.heads]
  | .const const => simp [TypeExpr.heads]
  | .type type => exact type.heads

end

/-- The search of a proper tree gives the names it mentions. -/
theorem TypeExpr.Proper.mentioned (proper : TypeExpr.Proper type) (names : List String) :
    type.mentioned phantoms names =
      .ok (names.filter fun name => (type.heads phantoms).contains (some name)) := by
  have headed : (type.heads phantoms).contains none = false := by simpa using proper.heads
  simp only [TypeExpr.mentioned, headed, Bool.false_eq_true, ↓reduceIte]

end DeriveBounds
