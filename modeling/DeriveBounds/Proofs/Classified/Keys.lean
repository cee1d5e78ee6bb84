import DeriveBounds.Proofs.Classified.Shape

/-!
How the fields of a list are known. The keys fit the style of the list: positions counted from zero,
or distinct names. Members that can each be read make a list of fields exactly when none of them has
a name, or all have and no two the same.
-/
namespace DeriveBounds

open Xml (Element)

variable {members : List Element} {fields : List Field} {style : Style} {type owner : String}

/-- The name of a member, which may be empty. -/
def memberName (member : Element) : String :=
  Text.strip ((member.childText? "name").getD "")

/-- The keys are the positions, counted from zero. -/
def KeyedByPosition (fields : List Field) : Prop :=
  fields.map (·.key) = (List.range fields.length).map fun index => .position index

/-- The keys are distinct names, none of them empty. -/
structure KeyedByName (fields : List Field) : Prop where
  named : ∀ field ∈ fields, ∃ name, field.key = .named name ∧ name ≠ ""
  distinct : (fields.map (·.key)).Nodup

theorem memberKey_of_unnamed {member : Element} (unnamed : memberName member = "")
    (position : Int) : memberKey member position = .position position :=
  if_pos unnamed

theorem memberKey_of_named {member : Element} (named : memberName member ≠ "") (position : Int) :
    memberKey member position = .named (memberName member) :=
  if_neg named

theorem memberKey_isNamed_iff {member : Element} {position : Int} :
    (memberKey member position).isNamed = true ↔ memberName member ≠ "" := by
  by_cases unnamed : memberName member = ""
  · simp [memberKey_of_unnamed unnamed, FieldKey.isNamed, unnamed]
  · simp [memberKey_of_named unnamed, FieldKey.isNamed, unnamed]

theorem readMembers_keys {position : Nat}
    (read : readMembers type owner position members = .ok fields) :
    fields.map (·.key) =
      (members.zipIdx position).map fun entry => memberKey entry.1 entry.2 := by
  induction members generalizing fields position with
  | nil =>
    cases read
    rfl
  | cons member rest ih =>
    simp only [readMembers, bind_eq_ok_iff, pure_eq_ok_iff] at read
    obtain ⟨first, firstRead, others, othersRead, same⟩ := read
    subst same
    rw [List.map_cons, ih othersRead, (MemberRead.of_readMember firstRead).key]
    rfl

/-- What holds of all members under the keys of their fields. -/
theorem readMembers_forall_key {position : Nat}
    (read : readMembers type owner position members = .ok fields) (holds : FieldKey → Prop) :
    (∀ field ∈ fields, holds field.key) ↔
      ∀ entry ∈ members.zipIdx position, holds (memberKey entry.1 entry.2) := by
  have keys := congrArg (fun keys => ∀ key ∈ keys, holds key) (readMembers_keys read)
  simpa only [List.forall_mem_map, eq_iff_iff] using keys

theorem readMembers_all_named {position : Nat}
    (read : readMembers type owner position members = .ok fields) :
    (∀ field ∈ fields, field.key.isNamed = true) ↔ ∀ member ∈ members, memberName member ≠ "" := by
  rw [readMembers_forall_key read (fun key => key.isNamed = true)]
  simp only [memberKey_isNamed_iff]
  rw [← List.forall_mem_map (f := Prod.fst) (P := fun member => memberName member ≠ ""),
    List.zipIdx_map_fst]

theorem readMembers_none_named {position : Nat}
    (read : readMembers type owner position members = .ok fields) :
    (∀ field ∈ fields, field.key.isNamed = false) ↔
      ∀ member ∈ members, memberName member = "" := by
  rw [readMembers_forall_key read (fun key => key.isNamed = false)]
  simp only [← Bool.not_eq_true, memberKey_isNamed_iff, not_not]
  rw [← List.forall_mem_map (f := Prod.fst) (P := fun member => memberName member = ""),
    List.zipIdx_map_fst]

theorem keys_of_unnamed (read : readMembers type owner 0 members = .ok fields)
    (unnamed : ∀ member ∈ members, memberName member = "") : KeyedByPosition fields := by
  have keys := readMembers_keys read
  have counted : fields.length = members.length := by simpa using congrArg List.length keys
  have positions : (members.zipIdx.map fun entry => memberKey entry.1 entry.2) =
      members.zipIdx.map fun entry => .position entry.2 :=
    List.map_congr_left fun entry member =>
      memberKey_of_unnamed (unnamed entry.1 (List.fst_mem_of_mem_zipIdx member)) entry.2
  rw [KeyedByPosition, keys, positions, counted, List.range_eq_range', ← List.zipIdx_map_snd,
    List.map_map]
  rfl

theorem labels_eq (fields : List Field) :
    fields.map Field.label = (fields.map (·.key)).map FieldKey.label := by
  rw [List.map_map]
  rfl

theorem labels_of_named {position : Nat}
    (read : readMembers type owner position members = .ok fields)
    (named : ∀ member ∈ members, memberName member ≠ "") :
    fields.map Field.label = members.map memberName := by
  have names : ((members.zipIdx position).map fun entry => (memberKey entry.1 entry.2).label) =
      ((members.zipIdx position).map Prod.fst).map memberName := by
    rw [List.map_map]
    apply List.map_congr_left
    intro entry member
    rw [memberKey_of_named (named entry.1 (List.fst_mem_of_mem_zipIdx member))]
    rfl
  rw [List.zipIdx_map_fst] at names
  rw [labels_eq, readMembers_keys read, List.map_map]
  exact names

/-- Positions are told apart by their labels. -/
theorem KeyedByPosition.labels_nodup (keyed : KeyedByPosition fields) :
    (fields.map Field.label).Nodup := by
  rw [labels_eq, keyed, List.map_map]
  apply List.Nodup.map _ List.nodup_range
  intro index other same
  have same : Int.repr index = Int.repr other := same
  exact Int.ofNat_inj.mp (Int.repr_injective same)

theorem KeyedByPosition.isNamed (keyed : KeyedByPosition fields) :
    ∀ field ∈ fields, field.key.isNamed = false := by
  have keys : ∀ key ∈ fields.map (·.key), key.isNamed = false := by
    rw [keyed]
    simp [FieldKey.isNamed]
  simpa only [List.forall_mem_map] using keys

theorem KeyedByName.isNamed (keyed : KeyedByName fields) :
    ∀ field ∈ fields, field.key.isNamed = true := by
  intro field member
  obtain ⟨name, same, _⟩ := keyed.named field member
  rw [same]
  rfl

/-- The keys of a list of fields fit its style. -/
structure StyleFits (style : Style) (fields : List Field) : Prop where
  unit : style = .unit ↔ fields = []
  tuple : style = .tuple ↔ fields ≠ [] ∧ KeyedByPosition fields
  struct : style = .struct ↔ fields ≠ [] ∧ KeyedByName fields

theorem FieldsRead.keyedByPosition (read : FieldsRead members type owner style fields)
    (unnamed : ∀ field ∈ fields, field.key.isNamed = false) : KeyedByPosition fields :=
  keys_of_unnamed read.read ((readMembers_none_named read.read).mp unnamed)

theorem FieldsRead.keyedByName (read : FieldsRead members type owner style fields)
    (named : ∀ field ∈ fields, field.key.isNamed = true) : KeyedByName fields := by
  constructor
  case named =>
    have named := (readMembers_all_named read.read).mp named
    rw [readMembers_forall_key read.read (fun key => ∃ name, key = .named name ∧ name ≠ "")]
    intro entry member
    have named := named entry.1 (List.fst_mem_of_mem_zipIdx member)
    exact ⟨memberName entry.1, memberKey_of_named named entry.2, named⟩
  case distinct =>
    have distinct := read.distinct
    rw [labels_eq] at distinct
    exact distinct.of_map

theorem styleOf_eq_tuple_iff :
    styleOf fields = .tuple ↔ fields ≠ [] ∧ ∀ field ∈ fields, field.key.isNamed = false := by
  unfold styleOf
  split
  · rename_i empty
    simp [List.isEmpty_iff.mp empty]
  · rename_i filled
    have filled : fields ≠ [] := by simpa using filled
    simp [filled]

theorem styleOf_eq_struct_iff :
    styleOf fields = .struct ↔ ∃ field ∈ fields, field.key.isNamed = true := by
  unfold styleOf
  split
  · rename_i empty
    simp [List.isEmpty_iff.mp empty]
  · simp

theorem FieldsRead.styleFits (read : FieldsRead members type owner style fields) :
    StyleFits style fields := by
  have style := read.style
  subst style
  constructor
  case unit => exact styleOf_eq_unit_iff
  case tuple =>
    rw [styleOf_eq_tuple_iff]
    exact and_congr_right' ⟨read.keyedByPosition, KeyedByPosition.isNamed⟩
  case struct =>
    rw [styleOf_eq_struct_iff]
    constructor
    · intro some
      have all := List.all_eq_true.mp (read.uniform (List.any_eq_true.mpr some))
      obtain ⟨field, member, _⟩ := some
      exact ⟨List.ne_nil_of_mem member, read.keyedByName all⟩
    · intro parts
      obtain ⟨filled, keyed⟩ := parts
      obtain ⟨field, member⟩ := List.exists_mem_of_ne_nil fields filled
      exact ⟨field, member, keyed.isNamed field member⟩

theorem readMembers_eq_ok {position : Nat}
    (accepted : ∀ entry ∈ members.zipIdx position,
      ∃ field, readMember entry.1 entry.2 type owner = .ok field) :
    ∃ fields, readMembers type owner position members = .ok fields := by
  induction members generalizing position with
  | nil => exact ⟨[], rfl⟩
  | cons member rest ih =>
    rw [List.zipIdx_cons] at accepted
    obtain ⟨first, others⟩ := List.forall_mem_cons.mp accepted
    obtain ⟨field, fieldRead⟩ := first
    obtain ⟨fields, fieldsRead⟩ := ih others
    refine ⟨field :: fields, ?_⟩
    simp only [readMembers, fieldRead, fieldsRead]
    rfl

theorem FieldsRead.readFields_eq (read : FieldsRead members type owner style fields) :
    readFields members type owner = .ok (style, fields) := by
  have once := (firstRepeated?_eq_none_iff _).mpr read.distinct
  have style := read.style
  subst style
  cases members with
  | nil =>
    cases read.read
    rfl
  | cons member rest =>
    have unmixed : (fields.any (·.key.isNamed) && !fields.all (·.key.isNamed)) = false := by
      cases named : fields.any (·.key.isNamed) with
      | false => rfl
      | true => simp [read.uniform named]
    have filled : fields.isEmpty = false := by
      have counted := congrArg List.length (readMembers_keys read.read)
      cases fields with
      | nil => simp at counted
      | cons first others => rfl
    simp only [readFields, List.isEmpty_cons, read.read, bind, Except.bind, unmixed, once, styleOf,
      filled, Bool.false_eq_true, ↓reduceIte]
    rfl

/-- A list of members makes fields exactly when all of them are read, none or all are named, and
their labels differ. -/
theorem readFields_eq_ok_iff : readFields members type owner = .ok (style, fields) ↔
    FieldsRead members type owner style fields :=
  ⟨.of_readFields, FieldsRead.readFields_eq⟩

/-- Members that are read make fields unless names are mixed with positions or repeated. -/
theorem readFields_succeeds_iff
    (accepted : ∀ entry ∈ members.zipIdx,
      ∃ field, readMember entry.1 entry.2 type owner = .ok field) :
    (∃ style fields, readFields members type owner = .ok (style, fields)) ↔
      (∀ member ∈ members, memberName member = "") ∨
        (∀ member ∈ members, memberName member ≠ "") ∧ (members.map memberName).Nodup := by
  obtain ⟨found, foundRead⟩ := readMembers_eq_ok accepted
  constructor
  · intro succeeds
    obtain ⟨style, fields, read⟩ := succeeds
    have read := FieldsRead.of_readFields read
    cases named : fields.any (·.key.isNamed) with
    | false =>
      left
      have unnamed : ∀ field ∈ fields, field.key.isNamed = false := by simpa using named
      exact (readMembers_none_named read.read).mp unnamed
    | true =>
      have all := List.all_eq_true.mp (read.uniform named)
      right
      have named := (readMembers_all_named read.read).mp all
      refine ⟨named, ?_⟩
      have distinct := read.distinct
      rwa [labels_of_named read.read named] at distinct
  · intro either
    rcases either with unnamed | ⟨named, distinct⟩
    · have keyed := keys_of_unnamed foundRead unnamed
      refine ⟨_, found, readFields_eq_ok_iff.mpr ⟨foundRead, ?_, keyed.labels_nodup, rfl⟩⟩
      intro named
      obtain ⟨field, member, named⟩ := List.any_eq_true.mp named
      rw [keyed.isNamed field member] at named
      cases named
    · refine ⟨_, found, readFields_eq_ok_iff.mpr ⟨foundRead, ?_, ?_, rfl⟩⟩
      · intro _
        exact List.all_eq_true.mpr ((readMembers_all_named foundRead).mpr named)
      · rwa [labels_of_named foundRead named]

end DeriveBounds
