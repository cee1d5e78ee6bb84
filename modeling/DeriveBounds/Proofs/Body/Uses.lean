import DeriveBounds.Proofs.Body.Marks

/-!
What a body makes and reads, and the bodies of records: every field that the capability is about is
made once, or read once for every value that the capability works on.
-/
namespace DeriveBounds

def Piece.made? : Piece → Option Field
  | .made field => some field
  | _ => none

def Piece.used? : Piece → Option Place
  | .used place => some place
  | _ => none

/-- The fields whose default value is made, in the order of the lines. -/
def madeIn (lines : List Line) : List Field := (marksOf lines).filterMap Piece.made?

/-- The places that are read, in the order of the lines. -/
def usedIn (lines : List Line) : List Place := (marksOf lines).filterMap Piece.used?

/-- The places of one value that are read, in the order of the lines. -/
def usedOn (side : Side) (lines : List Line) : List Place := (usedIn lines).filter (·.side = side)

namespace Capability

variable (capability : Capability)

/-- The values that a body works on. -/
def sides : Capability → List Side
  | .default | .eq => []
  | .debug | .clone => [.self]
  | .partialEq => [.self, .other]

/-- The fields that a capability is about. -/
def concerned (fields : List Field) : List Field :=
  match capability with
  | .default | .clone => fields
  | .debug | .partialEq | .eq => fields.filter (!·.skip)

/-- What stands for one field: its default value, or the places where it is read. -/
def valueMarks (place : Side → Field → Place) (field : Field) : List Piece :=
  match capability with
  | .default => [.made field]
  | _ => capability.sides.map fun side => .used (place side field)

end Capability

namespace Capability

/-- A capability is about the fields that its requirements do not pass over. -/
theorem concerned_eq_filter (capability : Capability) (fields : List Field) :
    capability.concerned fields = fields.filter (!·.skippedFor capability) := by
  have all : fields.filter (fun field => !(field.skip && false)) = fields := by simp
  cases capability with
  | default => exact all.symm
  | clone => exact all.symm
  | debug => simp [concerned, Field.skippedFor, honorsSkip]
  | partialEq => simp [concerned, Field.skippedFor, honorsSkip]
  | eq => simp [concerned, Field.skippedFor, honorsSkip]

theorem concerned_flatMap (capability : Capability) (items : List α) (part : α → List Field) :
    capability.concerned (items.flatMap part) =
      items.flatMap fun item => capability.concerned (part item) := by
  simp only [concerned_eq_filter, List.filter_flatMap]

theorem filter_sides (capability : Capability) (side : Side) :
    capability.sides.filter (· = side) = if side ∈ capability.sides then [side] else [] := by
  cases capability <;> cases side <;> rfl

end Capability

variable {definition : Definition} {capability : Capability} {lines : List Line}
  {fields : List Field} {place : Side → Field → Place} {side : Side}

theorem madeIn_eq (marks : marksOf lines = fields.flatMap (capability.valueMarks place)) :
    madeIn lines = if capability = .default then fields else [] := by
  rw [madeIn, marks, List.filterMap_flatMap]
  cases capability <;> simp [Capability.valueMarks, Capability.sides, Piece.made?]

theorem usedIn_eq (marks : marksOf lines = fields.flatMap (capability.valueMarks place)) :
    usedIn lines = fields.flatMap fun field => capability.sides.map (place · field) := by
  rw [usedIn, marks, List.filterMap_flatMap]
  cases capability <;>
    simp [Capability.valueMarks, Capability.sides, List.filterMap_cons, Piece.used?]

/-- Every field is read once for every value that the capability works on. -/
theorem usedOn_eq (marks : marksOf lines = fields.flatMap (capability.valueMarks place))
    (placed : ∀ side field, (place side field).side = side) :
    usedOn side lines = if side ∈ capability.sides then fields.map (place side) else [] := by
  have one (field : Field) : (capability.sides.map (place · field)).filter (·.side = side) =
      if side ∈ capability.sides then [place side field] else [] := by
    have own := congrArg (List.map (place · field)) (capability.filter_sides side)
    simpa [List.filter_map, Function.comp_def, placed, apply_ite (List.map _)] using own
  rw [usedOn, usedIn_eq marks, List.filter_flatMap]
  simp only [one]
  split
  · exact List.map_eq_flatMap.symm
  · simp

section

variable (record : definition.shape.isEnum = false)

theorem marksOf_defaultBody (derivable : defaultBody definition = .ok lines) :
    marksOf lines = definition.shape.fields.flatMap (Capability.default.valueMarks .member) := by
  cases shape : definition.shape with
  | struct fields =>
    simp only [defaultBody, shape] at derivable
    cases derivable
    rw [marksOf_functionBlock, marksOf_structBlock]
    rfl
  | tuple fields =>
    simp only [defaultBody, shape] at derivable
    cases derivable
    rw [marksOf_functionBlock, marksOf_tupleBlock]
    rfl
  | enum variants =>
    simp only [defaultBody, shape] at derivable
    cases derivable

include record

theorem marksOf_debugBody : marksOf (debugBody definition) =
    (keptFields definition.shape.fields).flatMap (Capability.debug.valueMarks .member) := by
  rw [debugBody, marksOf_functionBlock]
  cases shape : definition.shape with
  | struct fields =>
    cases fields with
    | nil => rfl
    | cons first rest => exact (marksOf_showFields ..).trans (marksOf_map fun _ _ => rfl)
  | tuple fields => exact (marksOf_showFields ..).trans (marksOf_map fun _ _ => rfl)
  | enum variants =>
    rw [shape] at record
    cases record

theorem marksOf_cloneBody : marksOf (cloneBody definition) =
    definition.shape.fields.flatMap (Capability.clone.valueMarks .member) := by
  rw [cloneBody, marksOf_functionBlock]
  cases shape : definition.shape with
  | struct fields => exact marksOf_structBlock ..
  | tuple fields => exact marksOf_tupleBlock ..
  | enum variants =>
    rw [shape] at record
    cases record

theorem marksOf_partialEqBody : marksOf (partialEqBody definition) =
    (keptFields definition.shape.fields).flatMap (Capability.partialEq.valueMarks .member) := by
  have compared (fields : List Field) : marksOf (allEqualLines (comparisons .member fields)) =
      (keptFields fields).flatMap (Capability.partialEq.valueMarks .member) :=
    (marksOf_allEqualLines _).trans (marksOf_map fun _ _ => rfl)
  rw [partialEqBody, marksOf_functionBlock]
  cases shape : definition.shape with
  | struct fields => exact compared fields
  | tuple fields => exact compared fields
  | enum variants =>
    rw [shape] at record
    cases record

/-- What the body of a record makes and reads. -/
theorem marksOf_bodyLines (own : capability ≠ .eq)
    (derivable : bodyLines definition capability = .ok lines) :
    marksOf lines =
      (capability.concerned definition.shape.fields).flatMap (capability.valueMarks .member) := by
  cases capability with
  | default => exact marksOf_defaultBody derivable
  | debug =>
    cases derivable
    exact marksOf_debugBody record
  | clone =>
    cases derivable
    exact marksOf_cloneBody record
  | partialEq =>
    cases derivable
    exact marksOf_partialEqBody record
  | eq => exact absurd rfl own

end

end DeriveBounds
