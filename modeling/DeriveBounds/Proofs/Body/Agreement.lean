import DeriveBounds.Proofs.Body.Arms
import DeriveBounds.Proofs.Bounds.Refusal

/-!
A body uses the fields that its bounds come from: all of them for `Default` and `Clone`, and those
that are not skipped for `Debug` and `PartialEq`.
-/
namespace DeriveBounds

/-- A field as if it were not skipped. -/
def Field.unmarked (field : Field) : Field := { field with skip := false }

/-- How the lines of a body read: each as what is written for its pieces. What stands for no field
is a fixed word, in which no field is read or made, or a name of the definition. -/
structure Definition.BodyReads (definition : Definition) (lines : List Line) : Prop where
  written : List.Forall₂ Line.Writes lines (textsOf lines)
  silent : ∀ line ∈ lines, ∀ text, .word text ∈ line → Silent text
  named : ∀ line ∈ lines, ∀ text, .name text ∈ line → definition.Names text

/-- What the fields of a record are built of: default values, or clones of the values in `self`. -/
def Capability.builds? : Capability → Option (Field → String)
  | .default => some fun _ => "::core::default::Default::default()"
  | .clone => some fun field => "::core::clone::Clone::clone(&self." ++ field.label ++ ")"
  | .debug | .partialEq | .eq => none

/-- The lines are those of a function that builds the record of these parts. -/
def Shape.BuiltIn (shape : Shape) (part : Field → String) (lines : List Line) : Prop :=
  ∃ signature, textsOf lines =
    (signature ++ " \x7b") :: (shape.builtText part).map Text.indent ++ ["\x7d"]

/-- How the body of a capability uses the fields of a definition: what stands for fields in its
lines are the values that are due, each once and in order, and in an enum their patterns. Where a
record is built, each field is built of its own value. -/
structure Definition.BodyUses (definition : Definition) (capability : Capability)
    (lines : List Line) : Prop extends definition.BodyReads lines where
  made : madeIn lines =
    if capability = .default then capability.concerned definition.shape.fields else []
  used : ∀ side, (usedOn side lines).map Place.field =
    if side ∈ capability.sides then capability.concerned definition.shape.fields else []
  record : definition.shape.isEnum = false → marksOf lines =
    (capability.concerned definition.shape.fields).flatMap (capability.valueMarks .member)
  built : definition.shape.isEnum = false → ∀ part, capability.builds? = some part →
    definition.shape.BuiltIn part lines
  arms : ∀ variants, definition.shape = .enum variants → MatchUses capability variants lines

variable {definition : Definition} {capability : Capability} {variants : List Variant}
  {lines : List Line}

namespace Definition

theorem BodyReads.of_bodyLines (derivable : bodyLines definition capability = .ok lines) :
    definition.BodyReads lines :=
  ⟨writes_textsOf lines, silent_bodyLines derivable, names_bodyLines derivable⟩

section

variable {line : Field → Line} {part : Field → String}
  (same : ∀ field, (line field).text = part field) (signature : String) (fields : List Field)

include same

theorem built_tupleBlock :
    (Shape.tuple fields).BuiltIn part (functionBlock signature (tupleBlock fields line)) := by
  refine ⟨signature, ?_⟩
  rw [filled_tupleBlock.textsOf_functionBlock, textsOf_tupleBlock, funext same]

theorem built_structBlock :
    (Shape.struct fields).BuiltIn part (functionBlock signature (structBlock fields line)) := by
  refine ⟨signature, ?_⟩
  rw [filled_structBlock.textsOf_functionBlock, textsOf_structBlock, funext same]

end

/-- Each field is built of its own value. -/
theorem built_bodyLines {part : Field → String} (record : definition.shape.isEnum = false)
    (builds : capability.builds? = some part)
    (derivable : bodyLines definition capability = .ok lines) :
    definition.shape.BuiltIn part lines := by
  cases capability with
  | default =>
    cases builds
    have made (field : Field) : Line.text [.made field] = "::core::default::Default::default()" :=
      Line.writes_iff.mp (.cons _ _ _ _ (.made field) .nil)
    cases shape : definition.shape with
    | struct fields =>
      simp only [bodyLines, defaultBody, shape] at derivable
      cases derivable
      exact built_structBlock made _ fields
    | tuple fields =>
      simp only [bodyLines, defaultBody, shape] at derivable
      cases derivable
      exact built_tupleBlock made _ fields
    | enum variants =>
      rw [shape] at record
      cases record
  | clone =>
    cases builds
    cases derivable
    have cloned (field : Field) : (cloneMember field).text =
        "::core::clone::Clone::clone(&self." ++ field.label ++ ")" := by
      simp [cloneMember, cloneOf, Piece.text, Place.text, Side.name, Capability.traitPath,
        ← String.append_assoc]
    rw [cloneBody]
    cases shape : definition.shape with
    | struct fields => exact built_structBlock cloned _ fields
    | tuple fields => exact built_tupleBlock cloned _ fields
    | enum variants =>
      rw [shape] at record
      cases record
  | debug => cases builds
  | partialEq => cases builds
  | eq => cases builds

theorem BodyUses.of_record (own : capability ≠ .eq) (record : definition.shape.isEnum = false)
    (derivable : bodyLines definition capability = .ok lines) :
    definition.BodyUses capability lines := by
  have marks := marksOf_bodyLines record own derivable
  constructor
  case toBodyReads => exact .of_bodyLines derivable
  case made => exact madeIn_eq marks
  case used =>
    intro side
    rw [usedOn_eq marks fun _ _ => rfl]
    split
    · simp [Function.comp_def, Place.field]
    · rfl
  case record => exact fun _ => marks
  case built => exact fun _ _ builds => built_bodyLines record builds derivable
  case arms =>
    intro variants shape
    rw [shape] at record
    cases record

theorem BodyUses.of_enum (own : capability ≠ .eq) (shape : definition.shape = .enum variants)
    (units : ∀ variant ∈ variants, variant.style = .unit → variant.fields = [])
    (derivable : bodyLines definition capability = .ok lines) :
    definition.BodyUses capability lines := by
  have uses := matchUses_bodyLines own shape units derivable
  have possible : capability ≠ .default := by
    intro same
    have enum : definition.shape.isEnum = true := by
      rw [shape]
      rfl
    exact exists_bodyLines_iff.mp ⟨lines, derivable⟩ ⟨same, enum⟩
  constructor
  case toBodyReads => exact .of_bodyLines derivable
  case made => rw [uses.madeIn_eq possible, if_neg possible]
  case used => simpa [shape, Shape.fields] using uses.usedOn_eq
  case record => simp [shape, Shape.isEnum]
  case built => simp [shape, Shape.isEnum]
  case arms =>
    intro others same
    rw [shape] at same
    cases same
    exact uses

/-- The body of a classified definition makes and reads the fields that the capability is about. -/
theorem BodyUses.of_classified {element : Xml.Element} (classified : Classified element definition)
    (own : capability ≠ .eq) (derivable : bodyLines definition capability = .ok lines) :
    definition.BodyUses capability lines := by
  cases shape : definition.shape with
  | struct fields => exact .of_record own (by rw [shape]; rfl) derivable
  | tuple fields => exact .of_record own (by rw [shape]; rfl) derivable
  | enum variants =>
    exact .of_enum own shape (fun variant member => (classified.unit_iff shape member).mp) derivable

variable {phantoms : List String} {field : Field} {fields : List Field}
  {requirements : List Requirement} {item : ImplItem}

/-- Where a field is not passed over, its skip mark makes no difference. -/
theorem fieldRequirements_unmarked (phantoms : List String)
    (concerned : field.skippedFor capability = false) :
    definition.fieldRequirements phantoms field.unmarked capability =
      definition.fieldRequirements phantoms field capability := by
  have active : field.unmarked.skippedFor capability = false := rfl
  simp only [fieldRequirements, concerned, active]
  rfl

/-- The requirements come from the fields that the capability is about, as if none was skipped. -/
theorem requirementsOf_concerned
    (required : definition.requirementsOf phantoms capability fields = .ok requirements) :
    definition.requirementsOf phantoms capability
      ((capability.concerned fields).map Field.unmarked) = .ok requirements := by
  rw [Capability.concerned_eq_filter]
  induction fields generalizing requirements with
  | nil => exact required
  | cons field rest ih =>
    simp only [requirementsOf, bind_eq_ok_iff, pure_eq_ok_iff] at required
    obtain ⟨first, firstRead, others, othersRead, same⟩ := required
    subst same
    cases skipped : field.skippedFor capability with
    | true =>
      -- once its override is checked, a skipped field requires nothing
      have inactive : field.activeFor capability = false := by
        rw [Field.activeFor_eq_not_skippedFor, skipped]
        rfl
      obtain rfl := fieldRequirements_inactive inactive firstRead
      simpa [skipped] using ih othersRead
    | false =>
      have kept := (fieldRequirements_unmarked phantoms skipped).trans firstRead
      simp [skipped, requirementsOf, kept, ih othersRead, bind, Except.bind, pure, Except.pure]

/-- An enum whose one variant has a field that is skipped and a field with a raw name. -/
private def partedElement : Xml.Element :=
  let leaf (tag text : String) : Xml.Element := ⟨tag, [], some text, []⟩
  let member (name skip : String) : Xml.Element :=
    ⟨"member", [("skip", skip)], none, [leaf "name" name, leaf "type" "T"]⟩
  ⟨"type", [("name", "Tree"), ("category", "enum")], none, [
    ⟨"param", [("name", "T")], none, []⟩,
    ⟨"variant", [("name", "Node")], none, [member "cache" "true", member "r#type" ""]⟩]⟩

private def partedDefinition : Definition :=
  let field (name : String) (skip : Bool) : Field :=
    ⟨.named name, .path false [.mk "T" []], skip, []⟩
  ⟨"Tree", [⟨"T", .type, none, none⟩],
    .enum [⟨"Node", .struct, [field "cache" true, field "r#type" false]⟩], [], []⟩

private def partedItem : ImplItem :=
  ⟨"Tree", .partialEq, [⟨"T", .partialEq, .inferred⟩], ["T: ::core::cmp::PartialEq"],
    Text.join "\n" [
      "fn eq(&self, other: &Self) -> bool \x7b",
      "    if ::core::mem::discriminant(self) != ::core::mem::discriminant(other) \x7b",
      "        return false;",
      "    \x7d",
      "    match (self, other) \x7b",
      "        (Self::Node \x7b cache: _, r#type: __self_type \x7d, " ++
        "Self::Node \x7b cache: _, r#type: __other_type \x7d) => __self_type == __other_type,",
      "    \x7d",
      "\x7d"]⟩

end Definition

end DeriveBounds
