import DeriveBounds.TypeExpr.Mention

/-!
Phantom markers in type expressions. The search passes over the arguments of a marker, so further
markers only take mentions away, and what stands behind a marker makes no difference.
-/
namespace DeriveBounds

variable {few many phantoms : List String}

mutual

/-- With more markers there are fewer first names. -/
theorem TypeExpr.heads_sublist (more : few ⊆ many) (type : TypeExpr) :
    (type.heads many).Sublist (type.heads few) := by
  match type with
  | .path leadingColon segments =>
    exact (List.Sublist.refl _).append (pathHeads_sublist more segments)
  | .qualified self trait segments =>
    exact ((self.heads_sublist more).append (optionHeads_sublist more trait)).append
      (segmentHeads_sublist more segments)
  | .reference _ _ inner => exact inner.heads_sublist more
  | .pointer _ inner => exact inner.heads_sublist more
  | .tuple elements => exact typeHeads_sublist more elements
  | .array element _ => exact element.heads_sublist more
  | .fnPointer params output =>
    exact (typeHeads_sublist more params).append (optionHeads_sublist more output)
  | .lifetime _ => exact .refl _
  | .const _ => exact .refl _
  | .foreign _ => exact .refl _

theorem pathHeads_sublist (more : few ⊆ many) (segments : List Segment) :
    (pathHeads many segments).Sublist (pathHeads few segments) := by
  match segments with
  | [] => exact .refl _
  | [.mk name args] =>
    rw [pathHeads, pathHeads]
    split
    · exact List.nil_sublist _
    · rename_i unmarked
      have kept : ¬ few.contains name = true := by
        intro marked
        rw [List.contains_iff_mem] at marked unmarked
        exact unmarked (more marked)
      rw [if_neg kept]
      exact typeHeads_sublist more args
  | .mk _ args :: next :: rest =>
    rw [pathHeads, pathHeads]
    · exact (typeHeads_sublist more args).append (pathHeads_sublist more (next :: rest))
    · simp
    · simp

theorem segmentHeads_sublist (more : few ⊆ many) (segments : List Segment) :
    (segmentHeads many segments).Sublist (segmentHeads few segments) := by
  match segments with
  | [] => exact .refl _
  | .mk _ args :: rest =>
    exact (typeHeads_sublist more args).append (segmentHeads_sublist more rest)

theorem typeHeads_sublist (more : few ⊆ many) (types : List TypeExpr) :
    (typeHeads many types).Sublist (typeHeads few types) := by
  match types with
  | [] => exact .refl _
  | type :: rest => exact (type.heads_sublist more).append (typeHeads_sublist more rest)

theorem optionHeads_sublist (more : few ⊆ many) (option : Option TypeExpr) :
    (optionHeads many option).Sublist (optionHeads few option) := by
  match option with
  | none => exact .refl _
  | some type => exact type.heads_sublist more

end

mutual

/-- The type without the arguments of its markers, at any depth. -/
def TypeExpr.cleared (phantoms : List String) : TypeExpr → TypeExpr
  | .path leadingColon segments => .path leadingColon (clearedPath phantoms segments)
  | .qualified self trait segments =>
    .qualified (self.cleared phantoms) (clearedOption phantoms trait)
      (clearedSegments phantoms segments)
  | .reference lifetime mutable inner => .reference lifetime mutable (inner.cleared phantoms)
  | .pointer mutable inner => .pointer mutable (inner.cleared phantoms)
  | .tuple elements => .tuple (clearedTypes phantoms elements)
  | .array element length => .array (element.cleared phantoms) length
  | .fnPointer params output =>
    .fnPointer (clearedTypes phantoms params) (clearedOption phantoms output)
  | .lifetime name => .lifetime name
  | .const text => .const text
  | .foreign shown => .foreign shown

/-- The last segment of a path loses its arguments where it names a marker. -/
def clearedPath (phantoms : List String) : List Segment → List Segment
  | [] => []
  | [.mk name args] =>
    [.mk name (if phantoms.contains name then [] else clearedTypes phantoms args)]
  | .mk name args :: rest => .mk name (clearedTypes phantoms args) :: clearedPath phantoms rest

/-- The segments behind a qualified type name no marker. -/
def clearedSegments (phantoms : List String) : List Segment → List Segment
  | [] => []
  | .mk name args :: rest =>
    .mk name (clearedTypes phantoms args) :: clearedSegments phantoms rest

def clearedTypes (phantoms : List String) : List TypeExpr → List TypeExpr
  | [] => []
  | type :: rest => type.cleared phantoms :: clearedTypes phantoms rest

def clearedOption (phantoms : List String) : Option TypeExpr → Option TypeExpr
  | none => none
  | some type => some (type.cleared phantoms)

end

theorem pathHead_clearedPath (leadingColon : Bool) (segments : List Segment) :
    pathHead leadingColon (clearedPath phantoms segments) = pathHead leadingColon segments := by
  match segments with
  | [] => rfl
  | [.mk name args] => rfl
  | .mk name args :: next :: rest => rfl

theorem clearedPath_ne_nil {segments : List Segment} (filled : segments ≠ []) :
    clearedPath phantoms segments ≠ [] := by
  match segments with
  | [] => exact absurd rfl filled
  | [.mk name args] => simp [clearedPath]
  | .mk name args :: next :: rest => simp [clearedPath]

mutual

/-- The search never reaches the arguments of a marker. -/
theorem TypeExpr.heads_cleared (type : TypeExpr) :
    (type.cleared phantoms).heads phantoms = type.heads phantoms := by
  match type with
  | .path leadingColon segments =>
    rw [TypeExpr.cleared, TypeExpr.heads, TypeExpr.heads, pathHead_clearedPath,
      pathHeads_clearedPath segments]
  | .qualified self trait segments =>
    rw [TypeExpr.cleared, TypeExpr.heads, TypeExpr.heads, self.heads_cleared,
      optionHeads_clearedOption trait, segmentHeads_clearedSegments segments]
  | .reference _ _ inner => exact inner.heads_cleared
  | .pointer _ inner => exact inner.heads_cleared
  | .tuple elements => exact typeHeads_clearedTypes elements
  | .array element _ => exact element.heads_cleared
  | .fnPointer params output =>
    rw [TypeExpr.cleared, TypeExpr.heads, TypeExpr.heads, typeHeads_clearedTypes params,
      optionHeads_clearedOption output]
  | .lifetime _ => rfl
  | .const _ => rfl
  | .foreign _ => rfl

theorem pathHeads_clearedPath (segments : List Segment) :
    pathHeads phantoms (clearedPath phantoms segments) = pathHeads phantoms segments := by
  match segments with
  | [] => rfl
  | [.mk name args] =>
    rw [clearedPath, pathHeads, pathHeads]
    split
    · rfl
    · exact typeHeads_clearedTypes args
  | .mk _ args :: next :: rest =>
    rw [clearedPath, pathHeads, pathHeads, typeHeads_clearedTypes args,
      pathHeads_clearedPath (next :: rest)]
    · simp
    · exact clearedPath_ne_nil (List.cons_ne_nil _ _)
    · simp

theorem segmentHeads_clearedSegments (segments : List Segment) :
    segmentHeads phantoms (clearedSegments phantoms segments) =
      segmentHeads phantoms segments := by
  match segments with
  | [] => rfl
  | .mk _ args :: rest =>
    rw [clearedSegments, segmentHeads, segmentHeads, typeHeads_clearedTypes args,
      segmentHeads_clearedSegments rest]

theorem typeHeads_clearedTypes (types : List TypeExpr) :
    typeHeads phantoms (clearedTypes phantoms types) = typeHeads phantoms types := by
  match types with
  | [] => rfl
  | type :: rest =>
    rw [clearedTypes, typeHeads, typeHeads, type.heads_cleared, typeHeads_clearedTypes rest]

theorem optionHeads_clearedOption (option : Option TypeExpr) :
    optionHeads phantoms (clearedOption phantoms option) = optionHeads phantoms option := by
  match option with
  | none => rfl
  | some type => exact type.heads_cleared

end

theorem TypeExpr.mentioned_cleared (type : TypeExpr) (names : List String) :
    (type.cleared phantoms).mentioned phantoms names = type.mentioned phantoms names := by
  rw [mentioned, mentioned, type.heads_cleared]

end DeriveBounds
