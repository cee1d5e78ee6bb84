import DeriveBounds.Classify
import DeriveBounds.Proofs.Outcome

/-!
Why an element is not read. Whatever reader fails, it fails with an error over a shape, a type text
or the name of a capability, which is about no single capability and names the type that is read.
-/
namespace DeriveBounds

open Xml (Element)

/-- An error over an element of a known name that cannot be read. -/
structure Unreadable (type : String) (error : DeriveError) : Prop where
  code : error.code ∈ [DeriveCode.unrecognizedShape, .invalidType, .unknownCapability]
  capability : error.capability? = none
  type : error.type? = some type

variable {type : String} {error : DeriveError}

theorem Unreadable.shape (code : error.code = .unrecognizedShape)
    (capability : error.capability? = none) (about : error.type? = some type) :
    Unreadable type error :=
  ⟨by simp [code], capability, about⟩

theorem readCapability_unreadable (name : Option String) (place : CapabilityPlace) :
    FailsOnly (Unreadable type) (readCapability name type place) := by
  unfold readCapability
  split
  · exact .of_error ⟨by simp [DeriveError.code], rfl, rfl⟩
  · split
    · exact .of_error ⟨by simp [DeriveError.code], rfl, rfl⟩
    · exact .of_ok

theorem readParam_unreadable (element : Element) :
    FailsOnly (Unreadable type) (readParam element type) := by
  simp only [readParam]
  split
  · split
    · split
      · exact .of_throw_bind (.shape rfl rfl rfl)
      · exact .of_pure
    · exact .of_throw_bind (.shape rfl rfl rfl)
  · exact .of_throw (.shape rfl rfl rfl)

theorem readParams_unreadable (elements : List Element) :
    FailsOnly (Unreadable type) (readParams type elements) := by
  induction elements with
  | nil => exact .of_ok
  | cons element rest ih =>
    simp only [readParams]
    exact .of_bind (readParam_unreadable element) fun _ => .of_bind ih fun _ => .of_pure

theorem readOverrides_unreadable (owner : String) (key : FieldKey) (overrides : List Override)
    (elements : List Element) :
    FailsOnly (Unreadable type) (readOverrides type owner key overrides elements) := by
  induction elements generalizing overrides with
  | nil => exact .of_ok
  | cons bound rest ih =>
    exact .of_bind (readCapability_unreadable _ _) fun _ => ih _

theorem readMember_unreadable (element : Element) (position : Int) (owner : String) :
    FailsOnly (Unreadable type) (readMember element position type owner) := by
  simp only [readMember]
  split
  · exact .of_throw_bind (.shape rfl rfl rfl)
  · refine .of_bind (.of_mapError fun _ => ⟨by simp [DeriveError.code], rfl, rfl⟩) fun _ => ?_
    exact .of_bind (readOverrides_unreadable owner _ _ _) fun _ => .of_pure

theorem readMembers_unreadable (owner : String) (position : Nat) (members : List Element) :
    FailsOnly (Unreadable type) (readMembers type owner position members) := by
  induction members generalizing position with
  | nil => exact .of_ok
  | cons member rest ih =>
    exact .of_bind (readMember_unreadable member position owner) fun _ =>
      .of_bind (ih _) fun _ => .of_pure

theorem readFields_unreadable (members : List Element) (owner : String) :
    FailsOnly (Unreadable type) (readFields members type owner) := by
  simp only [readFields]
  split
  · exact .of_pure
  · refine .of_bind (readMembers_unreadable owner 0 members) fun fields => ?_
    split
    · exact .of_throw_bind (.shape rfl rfl rfl)
    · split
      · exact .of_throw_bind (.shape rfl rfl rfl)
      · exact .of_pure

theorem readVariants_unreadable (taken : List String) (elements : List Element) :
    FailsOnly (Unreadable type) (readVariants type taken elements) := by
  induction elements generalizing taken with
  | nil => exact .of_ok
  | cons element rest ih =>
    simp only [readVariants]
    split
    · split
      · exact .of_throw_bind (.shape rfl rfl rfl)
      · exact .of_bind (readFields_unreadable _ _) fun _ => .of_bind (ih _) fun _ => .of_pure
    · exact .of_throw_bind (.shape rfl rfl rfl)

theorem readShape_unreadable (element : Element) :
    FailsOnly (Unreadable type) (readShape element type) := by
  simp only [readShape]
  split
  · exact .of_bind (readFields_unreadable _ _) fun _ => .of_pure
  · split
    · exact .of_bind (readVariants_unreadable _ _) fun _ => .of_pure
    · exact .of_throw_bind (.shape rfl rfl rfl)
  · exact .of_throw (.shape rfl rfl rfl)

theorem readBoundedTo_unreadable (elements : List Element) :
    FailsOnly (Unreadable type) (readBoundedTo type elements) := by
  induction elements with
  | nil => exact .of_ok
  | cons element rest ih =>
    have others (capability : Option Capability) : FailsOnly (Unreadable type) (do
        let expr ← (parseType (element.text.getD "")).mapError (.boundedToType type)
        let bounds ← readBoundedTo type rest
        return ⟨expr, capability⟩ :: bounds) :=
      .of_bind (.of_mapError fun _ => ⟨by simp [DeriveError.code], rfl, rfl⟩) fun _ =>
        .of_bind ih fun _ => .of_pure
    simp only [readBoundedTo]
    split
    · exact others none
    · exact .of_bind (.of_map (readCapability_unreadable _ _)) others

theorem readDerives_unreadable (names : List String) :
    FailsOnly (Unreadable type) (readDerives type names) := by
  induction names with
  | nil => exact .of_ok
  | cons name rest ih =>
    exact .of_bind (readCapability_unreadable _ _) fun _ => .of_bind ih fun _ => .of_pure

theorem classify_of_unnamed {element : Element}
    (unnamed : isName (Text.strip (element.attributeD "name")) = false) :
    classify element = .error (.typeName (Text.strip (element.attributeD "name"))) := by
  simp only [classify, unnamed]
  rfl

/-- Once its name is accepted, an element is refused for a reason that names it. -/
theorem classify_unreadable {element : Element}
    (named : isName (Text.strip (element.attributeD "name")) = true) :
    FailsOnly (Unreadable (Text.strip (element.attributeD "name"))) (classify element) := by
  simp only [classify, named]
  refine .of_bind (readParams_unreadable _) fun params => ?_
  split
  · exact .of_throw_bind (.shape rfl rfl rfl)
  · refine .of_bind (readShape_unreadable element) fun shape => ?_
    refine .of_bind (readBoundedTo_unreadable _) fun boundedTo => ?_
    exact .of_bind (readDerives_unreadable _) fun _ => .of_pure

/-- An element is refused over its name, or for a reason that names it. -/
theorem classify_failsOnly (element : Element) :
    FailsOnly (fun error => error = .typeName (Text.strip (element.attributeD "name")) ∨
      Unreadable (Text.strip (element.attributeD "name")) error) (classify element) := by
  cases named : isName (Text.strip (element.attributeD "name")) with
  | true => exact (classify_unreadable named).mono fun _ => .inr
  | false =>
    rw [classify_of_unnamed named]
    exact .of_error (.inl rfl)

end DeriveBounds
