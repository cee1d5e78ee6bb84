import DeriveBounds.Proofs.Bounds.Exact
import DeriveBounds.Proofs.Derivation.Accounts

/-!
`Eq` beside `PartialEq`. Where nothing is declared for `Eq` alone, its impl asks of every type what
the impl of `PartialEq` asks. An override can part the two: `Eq` checks the one for `PartialEq` only
where it takes it over, so it may be derived where `PartialEq` is refused.
-/
namespace DeriveBounds

/-- The same bound for `Eq`. -/
def Requirement.asEq (requirement : Requirement) : Requirement :=
  { requirement with capability := .eq }

namespace Definition

/-- A parameter bound as it was declared. -/
def Declares (definition : Definition) (predicate : String) : Prop :=
  ∃ param ∈ definition.params, ∃ text, param.bounds = some text ∧
    predicate = param.name ++ ": " ++ text

/-- What an impl bounds by its own trait: the types of the declared bounds for its capability, and
the parameters of its bounds. -/
inductive Subject (definition : Definition) (capability : Capability)
    (bounds : List Requirement) : String → Prop where
  | boundedTo (bound : BoundedTo) (member : bound ∈ definition.declaredBounds capability)
      (text : String) (rendered : bound.type.render = .ok text) :
      Subject definition capability bounds text
  | found (bound : Requirement) (member : bound ∈ bounds) :
      Subject definition capability bounds bound.param

variable {definition : Definition} {phantoms : List String} {capability : Capability}
  {bounds : List Requirement} {item : ImplItem} {element : Xml.Element} {field : Field}
  {param predicate : String}

/-- A predicate is a declared bound, or one of a subject by the trait of the capability. -/
theorem predicate_iff_subject : definition.Predicate capability bounds predicate ↔
    definition.Declares predicate ∨
      ∃ subject, definition.Subject capability bounds subject ∧
        predicate = subject ++ ": " ++ capability.traitPath := by
  constructor
  · intro due
    cases due with
    | @declared param text member given => exact .inl ⟨param, member, text, given, rfl⟩
    | @boundedTo bound text member covers rendered =>
      exact .inr ⟨text, .boundedTo bound (mem_declaredBounds.mpr ⟨member, covers⟩) text rendered, rfl⟩
    | @found bound member => exact .inr ⟨bound.param, .found bound member, rfl⟩
  · intro either
    rcases either with ⟨param, member, text, given, same⟩ | ⟨subject, bounded, same⟩
    · exact same ▸ .declared member given
    · subst same
      cases bounded with
      | boundedTo bound member text rendered =>
        obtain ⟨declared, covers⟩ := mem_declaredBounds.mp member
        exact .boundedTo declared covers rendered
      | found bound member => exact .found member

theorem implFor_not_refused (typed : definition.Typed)
    (derived : definition.implFor phantoms capability = .ok item) :
    ¬ definition.Refused capability := by
  intro refused
  obtain ⟨error, found⟩ := Option.isSome_iff_exists.mp (refusal?_isSome_iff.mpr refused)
  rw [implFor_eq_error typed phantoms found] at derived
  cases derived

theorem exists_implFor_of_not_refused (typed : definition.Typed) (phantoms : List String)
    (free : ¬ definition.Refused capability) :
    ∃ item, definition.implFor phantoms capability = .ok item := by
  apply implFor_eq_ok typed phantoms
  rw [← refusal?_isSome_iff, Bool.not_eq_true, Option.isSome_eq_false_iff] at free
  exact Option.isNone_iff_eq_none.mp free

/-- Bounds for `Eq` are about the same types and parameters. -/
theorem subject_asEq_iff {subject : String}
    (declared : definition.declaredBounds .eq = definition.declaredBounds .partialEq) :
    definition.Subject .eq (bounds.map Requirement.asEq) subject ↔
      definition.Subject .partialEq bounds subject := by
  constructor
  · intro bounded
    cases bounded with
    | boundedTo bound member text rendered =>
      exact .boundedTo bound (declared ▸ member) subject rendered
    | found bound member =>
      obtain ⟨source, present, same⟩ := List.mem_map.mp member
      subst same
      exact .found source present
  · intro bounded
    cases bounded with
    | boundedTo bound member text rendered =>
      exact .boundedTo bound (declared ▸ member) subject rendered
    | found bound member => exact .found bound.asEq (List.mem_map_of_mem member)

private theorem any_eq_any {items : List α} {p q : α → Bool}
    (same : ∀ item ∈ items, p item = q item) : items.any p = items.any q := by
  rw [Bool.eq_iff_iff, List.any_eq_true, List.any_eq_true]
  apply exists_congr
  intro item
  apply and_congr_right
  intro member
  rw [same item member]

theorem effectiveOverride?_eq (absent : field.override? .eq = none) :
    field.effectiveOverride? .eq = field.effectiveOverride? .partialEq := by
  simp only [Field.effectiveOverride?, absent, ↓reduceIte, reduceCtorEq]
  cases field.override? .partialEq <;> rfl

theorem activeFor_eq (field : Field) : field.activeFor .eq = field.activeFor .partialEq := rfl

/-- Without an override for `Eq`, a field makes it fail only where it makes `PartialEq` fail. -/
theorem offends_partialEq (absent : field.override? .eq = none)
    (offends : definition.Offends .eq field) : definition.Offends .partialEq field := by
  rcases offends with own | ⟨_, _, _, shared⟩
  · exact absurd own (misnames_of_override?_eq_none absent)
  · exact .inl shared

/-- What a declared bound of another capability than `Eq` covers. -/
theorem covers_eq {bound : BoundedTo} (unrestricted : bound.capability ≠ some .eq) :
    bound.covers .eq = true → bound.covers .partialEq = true := by
  unfold BoundedTo.covers
  cases declared : bound.capability with
  | none => simp
  | some capability =>
    have different : capability ≠ .eq := fun same => unrestricted (same ▸ declared)
    simp [different]

section

variable (plain : ∀ field ∈ definition.shape.fields, field.override? .eq = none)
  (unrestricted : ∀ bound ∈ definition.boundedTo, bound.capability ≠ some .eq)

include plain in
theorem overrides_eq (param : String) :
    definition.overrides .eq param = definition.overrides .partialEq param := by
  apply any_eq_any
  intro field member
  rw [activeFor_eq, effectiveOverride?_eq (plain field member)]

include plain in
theorem infers_eq (phantoms : List String) (param : String) :
    definition.infers phantoms .eq param = definition.infers phantoms .partialEq param := by
  apply any_eq_any
  intro field member
  rw [activeFor_eq, effectiveOverride?_eq (plain field member)]

include unrestricted in
theorem applies_eq {bound : BoundedTo} (member : bound ∈ definition.boundedTo) :
    (bound.covers .eq || decide (Capability.eq = .eq) && bound.covers .partialEq) =
      (bound.covers .partialEq || decide (Capability.partialEq = .eq) && bound.covers .partialEq) := by
  have covers := covers_eq (unrestricted bound member)
  cases own : bound.covers .eq with
  | false => simp
  | true => simp [covers own]

include unrestricted in
theorem declaredBounds_eq : definition.declaredBounds .eq = definition.declaredBounds .partialEq :=
  List.filter_congr fun _ member => applies_eq unrestricted member

include unrestricted in
theorem standsIn_eq (param : String) :
    definition.standsIn .eq param = definition.standsIn .partialEq param := by
  apply any_eq_any
  intro bound member
  rw [applies_eq unrestricted member]

include plain unrestricted in
theorem expectedBound_eq (phantoms : List String) (param : String) :
    definition.expectedBound phantoms .eq param =
      (definition.expectedBound phantoms .partialEq param).map Requirement.asEq := by
  unfold expectedBound
  rw [overrides_eq plain, standsIn_eq unrestricted, infers_eq plain]
  split
  · rfl
  · split <;> rfl

end

/-- Where no field has an override for `Eq` and no declared bound is for `Eq` alone, `Eq` is derived
along with `PartialEq`: for the same declared bounds, with the same bounds in the same order, and
with each predicate by the trait of `PartialEq` turned into one by that of `Eq`. -/
theorem implFor_eq_mirrors (classified : classify element = .ok definition)
    (plain : ∀ field ∈ definition.shape.fields, field.override? .eq = none)
    (unrestricted : ∀ bound ∈ definition.boundedTo, bound.capability ≠ some .eq)
    (derived : definition.implFor phantoms .partialEq = .ok item) :
    ∃ other, definition.implFor phantoms .eq = .ok other ∧
      other.bounds = item.bounds.map (fun bound => { bound with capability := .eq }) ∧
      definition.declaredBounds .eq = definition.declaredBounds .partialEq ∧
      (∀ predicate, predicate ∈ item.predicates ↔ definition.Declares predicate ∨
        ∃ subject, definition.Subject .partialEq item.bounds subject ∧
          predicate = subject ++ ": " ++ Capability.partialEq.traitPath) ∧
      ∀ predicate, predicate ∈ other.predicates ↔ definition.Declares predicate ∨
        ∃ subject, definition.Subject .partialEq item.bounds subject ∧
          predicate = subject ++ ": " ++ Capability.eq.traitPath := by
  have parts := Classified.of_classify classified
  have free : ¬ definition.Refused .partialEq := implFor_not_refused parts.typed derived
  have alsoFree : ¬ definition.Refused .eq := by
    intro refused
    rcases refused with ⟨other, _⟩ | ⟨field, member, offends⟩
    · cases other
    · exact free (.inr ⟨field, member, offends_partialEq (plain field member) offends⟩)
  obtain ⟨other, alsoDerived⟩ := exists_implFor_of_not_refused parts.typed phantoms alsoFree
  obtain ⟨bounds, predicates⟩ := implFor_bounds parts derived
  obtain ⟨otherBounds, otherPredicates⟩ := implFor_bounds parts alsoDerived
  have mirrored : other.bounds = item.bounds.map Requirement.asEq := by
    rw [otherBounds, bounds, List.map_filterMap]
    exact List.filterMap_congr fun param _ => expectedBound_eq plain unrestricted phantoms param
  have declared := declaredBounds_eq unrestricted
  refine ⟨other, alsoDerived, mirrored, declared, ?_, ?_⟩
  · intro predicate
    rw [predicates, predicate_iff_subject]
  · intro predicate
    rw [otherPredicates, predicate_iff_subject]
    apply or_congr_right
    apply exists_congr
    intro subject
    rw [mirrored, subject_asEq_iff declared]

/-- A tuple of three fields, of which one is skipped and one has an override for `PartialEq`. A
declared bound for `PartialEq` stands in for the parameter of the first. -/
private def mirroredElement : Xml.Element :=
  let leaf (tag text : String) : Xml.Element := ⟨tag, [], some text, []⟩
  ⟨"type", [("name", "Pair"), ("category", "struct")], none, [
    ⟨"param", [("name", "T"), ("bounds", "Send")], none, []⟩,
    ⟨"param", [("name", "U")], none, []⟩,
    ⟨"member", [], none, [leaf "type" "Vec<T>"]⟩,
    ⟨"member", [("skip", "true")], none, [leaf "type" "U"]⟩,
    ⟨"member", [], none, [leaf "type" "T",
      ⟨"bound", [("capability", "PartialEq")], some "U", []⟩]⟩,
    ⟨"bounded-to", [("capability", "PartialEq")], some "T::Item", []⟩]⟩

private def mirroredDefinition : Definition :=
  let named (name : String) : TypeExpr := .path false [.mk name []]
  ⟨"Pair", [⟨"T", .type, some "Send", none⟩, ⟨"U", .type, none, none⟩],
    .tuple [⟨.position 0, .path false [.mk "Vec" [named "T"]], false, []⟩,
      ⟨.position 1, named "U", true, []⟩,
      ⟨.position 2, named "T", false, [⟨.partialEq, ["U"]⟩]⟩],
    [⟨.path false [.mk "T" [], .mk "Item" []], some .partialEq⟩], []⟩

private def mirroredBody : String :=
  "fn eq(&self, other: &Self) -> bool \x7b\n" ++
    "    self.0 == other.0\n        && self.2 == other.2\n\x7d"

theorem implFor_eq_mirrors_sample :
    classify mirroredElement = .ok mirroredDefinition ∧
      (∀ field ∈ mirroredDefinition.shape.fields, field.override? .eq = none) ∧
      (∀ bound ∈ mirroredDefinition.boundedTo, bound.capability ≠ some .eq) ∧
      ∃ item, mirroredDefinition.implFor defaultPhantoms .partialEq = .ok item ∧
        item.bounds = [⟨"U", .partialEq, .override⟩] ∧
        ∃ other, mirroredDefinition.implFor defaultPhantoms .eq = .ok other ∧
          other.bounds = item.bounds.map (fun bound => { bound with capability := .eq }) ∧
          mirroredDefinition.declaredBounds .eq = mirroredDefinition.declaredBounds .partialEq ∧
          (∀ predicate, predicate ∈ item.predicates ↔ mirroredDefinition.Declares predicate ∨
            ∃ subject, mirroredDefinition.Subject .partialEq item.bounds subject ∧
              predicate = subject ++ ": " ++ Capability.partialEq.traitPath) ∧
          ∀ predicate, predicate ∈ other.predicates ↔ mirroredDefinition.Declares predicate ∨
            ∃ subject, mirroredDefinition.Subject .partialEq item.bounds subject ∧
              predicate = subject ++ ": " ++ Capability.eq.traitPath := by
  have classified : classify mirroredElement = .ok mirroredDefinition := by cbv
  have plain : ∀ field ∈ mirroredDefinition.shape.fields, field.override? .eq = none := by decide
  have unrestricted : ∀ bound ∈ mirroredDefinition.boundedTo, bound.capability ≠ some .eq := by
    decide
  have derived : mirroredDefinition.implFor defaultPhantoms .partialEq =
      .ok ⟨"Pair", .partialEq, [⟨"U", .partialEq, .override⟩],
        ["T: Send", "T::Item: ::core::cmp::PartialEq", "U: ::core::cmp::PartialEq"],
        mirroredBody⟩ := by cbv
  exact ⟨classified, plain, unrestricted, _, derived, rfl,
    implFor_eq_mirrors classified plain unrestricted derived⟩

/-- `PartialEq` is refused, but only over overrides that `Eq` does not look at: those of skipped
fields and of fields with an override for `Eq`. -/
def EqAlone (definition : Definition) : Prop :=
  (∃ field ∈ definition.shape.fields, definition.Misnames field .partialEq) ∧
    ∀ field ∈ definition.shape.fields, ¬ definition.Misnames field .eq ∧
      (definition.Misnames field .partialEq → field.skip = true ∨ field.override? .eq ≠ none)

theorem eqAlone_iff : definition.EqAlone ↔
    definition.Refused .partialEq ∧ ¬ definition.Refused .eq := by
  have partialEq : definition.Refused .partialEq ↔
      ∃ field ∈ definition.shape.fields, definition.Misnames field .partialEq := by
    simp [Refused, Offends]
  rw [EqAlone, partialEq]
  apply and_congr_right
  intro _
  constructor
  · intro hidden refused
    rcases refused with ⟨other, _⟩ | ⟨field, member, offends⟩
    · cases other
    · obtain ⟨own, shared⟩ := hidden field member
      rcases offends with misnames | ⟨_, kept, absent, misnames⟩
      · exact own misnames
      · rcases shared misnames with skipped | present
        · rw [kept] at skipped
          cases skipped
        · exact present absent
  · intro free field member
    refine ⟨fun misnames => free (.inr ⟨field, member, .inl misnames⟩), fun misnames => ?_⟩
    by_contra neither
    obtain ⟨kept, absent⟩ := not_or.mp neither
    refine free (.inr ⟨field, member, .inr ⟨rfl, ?_, not_not.mp absent, misnames⟩⟩)
    exact Bool.not_eq_true _ ▸ kept

/-- Where both are asked for, an impl of `Eq` comes with one of `PartialEq`, unless only overrides
that `Eq` does not look at refuse `PartialEq`. -/
theorem derive_eq_with_partialEq_iff (classified : classify element = .ok definition)
    {requested : List Capability} (asked : .partialEq ∈ requested) (also : .eq ∈ requested)
    (phantoms : List String) :
    ∃ result, derive definition requested phantoms = .ok result ∧
      (((∃ item ∈ result.impls, item.capability = .eq) →
          ∃ item ∈ result.impls, item.capability = .partialEq) ↔
        ¬ definition.EqAlone) := by
  have typed := (Classified.of_classify classified).typed
  refine ⟨_, derive_eq_ok typed requested phantoms, ?_⟩
  rw [exists_impl_iff typed, exists_impl_iff typed, eqAlone_iff]
  simp only [asked, also, true_and]
  constructor
  · intro law parts
    exact law parts.2 parts.1
  · intro together free refused
    exact together ⟨refused, free⟩

/-- A struct whose only field is skipped, and names something undeclared for `PartialEq`. -/
private def loneElement : Xml.Element :=
  ⟨"type", [("name", "Handle"), ("category", "struct")], none, [
    ⟨"param", [("name", "T")], none, []⟩,
    ⟨"member", [("skip", "true")], none, [⟨"name", [], some "inner", []⟩, ⟨"type", [], some "T", []⟩,
      ⟨"bound", [("capability", "PartialEq")], some "Missing", []⟩]⟩]⟩

private def loneDefinition : Definition :=
  ⟨"Handle", [⟨"T", .type, none, none⟩],
    .struct [⟨.named "inner", .path false [.mk "T" []], true, [⟨.partialEq, ["Missing"]⟩]⟩], [], []⟩

theorem derive_eq_with_partialEq_iff_sample :
    classify loneElement = .ok loneDefinition ∧
      .partialEq ∈ [Capability.eq, .partialEq] ∧ .eq ∈ [Capability.eq, .partialEq] ∧
      ∃ result, derive loneDefinition [.eq, .partialEq] defaultPhantoms = .ok result ∧
        (((∃ item ∈ result.impls, item.capability = .eq) →
            ∃ item ∈ result.impls, item.capability = .partialEq) ↔
          ¬ loneDefinition.EqAlone) := by
  have classified : classify loneElement = .ok loneDefinition := by cbv
  have asked : .partialEq ∈ [Capability.eq, .partialEq] := by decide
  have also : .eq ∈ [Capability.eq, .partialEq] := by decide
  exact ⟨classified, asked, also, derive_eq_with_partialEq_iff classified asked also defaultPhantoms⟩

/-- `Eq` is derived without `PartialEq`, although both are asked for. -/
theorem derive_eq_alone : classify loneElement = .ok loneDefinition ∧
    ∃ result, derive loneDefinition [.partialEq, .eq] defaultPhantoms = .ok result ∧
      (∃ item ∈ result.impls, item.capability = .eq) ∧
      ¬ ∃ item ∈ result.impls, item.capability = .partialEq := by
  have classified : classify loneElement = .ok loneDefinition := by cbv
  have typed := (Classified.of_classify classified).typed
  refine ⟨classified, _, derive_eq_ok typed _ _, ?_, ?_⟩
  · rw [← List.mem_map, impls_capabilities typed]
    decide
  · rw [← List.mem_map, impls_capabilities typed]
    decide

end Definition

end DeriveBounds
