import DeriveBounds.Proofs.Body.Agreement
import DeriveBounds.Proofs.Derivation.FieldChange
import DeriveBounds.Proofs.Derivation.SharedBounds
import DeriveBounds.Proofs.TypeExpr.Mention

/-!
Skip marks in a derivation. `Default` and `Clone` do not see them; `Debug`, `PartialEq` and `Eq` do
not see the types of skipped fields; and further marks neither refuse a capability nor bound a
parameter that was not bound before.
-/
namespace DeriveBounds

/-- The field, without its type where it is skipped. -/
def Field.hidden (field : Field) : Field :=
  if field.skip then { field with type := .tuple [] } else field

/-- The same field, skipped at least where the other one is. -/
structure Field.SkipsMore (later field : Field) : Prop where
  unmarked : later.unmarked = field.unmarked
  skip : field.skip = true → later.skip = true

namespace Definition

/-- The definition as if no field was skipped. -/
def unmarked (definition : Definition) : Definition := definition.mapFields Field.unmarked

/-- The definition without the types of its skipped fields. -/
def hidden (definition : Definition) : Definition := definition.mapFields Field.hidden

/-- The same definition with more of its fields skipped. -/
structure SkipsMore (other definition : Definition) : Prop where
  unmarked : other.unmarked = definition.unmarked
  fields : List.Forall₂ Field.SkipsMore other.shape.fields definition.shape.fields

end Definition

variable {definition other : Definition} {phantoms : List String} {capability : Capability}
  {element : Xml.Element} {field later : Field} {param : String}

namespace Field

theorem hidden_of_skip (skipped : field.skip = true) :
    field.hidden = { field with type := .tuple [] } := if_pos skipped

theorem hidden_of_kept (kept : field.skip = false) : field.hidden = field := by
  rw [hidden, kept]
  rfl

theorem hidden_key (field : Field) : field.hidden.key = field.key := by
  unfold hidden
  split <;> rfl

theorem hidden_skip (field : Field) : field.hidden.skip = field.skip := by
  unfold hidden
  split <;> rfl

/-- A field that is kept is all there under the hidden ones. -/
theorem eq_of_hidden_eq (same : field.hidden = later.hidden) (kept : later.skip = false) :
    field = later := by
  have also : field.skip = false := by rw [← hidden_skip, same, hidden_skip, kept]
  rwa [hidden_of_kept also, hidden_of_kept kept] at same

theorem type_of_unmarked_eq (same : later.unmarked = field.unmarked) : later.type = field.type := by
  injection same

theorem overrides_of_unmarked_eq (same : later.unmarked = field.unmarked) :
    later.overrides = field.overrides := by
  injection same

namespace SkipsMore

variable (skips : later.SkipsMore field)

include skips

theorem active (active : later.activeFor capability = true) :
    field.activeFor capability = true := by
  cases marked : field.skip with
  | false => simp [activeFor, marked]
  | true => simpa [activeFor, marked, skips.skip marked] using active

theorem kept (kept : later.skip = false) : field.skip = false := by
  by_contra marked
  rw [Bool.not_eq_false] at marked
  rw [skips.skip marked] at kept
  cases kept

theorem override?_eq (capability : Capability) :
    later.override? capability = field.override? capability := by
  rw [override?, override?, overrides_of_unmarked_eq skips.unmarked]

theorem effectiveOverride?_eq (capability : Capability) :
    later.effectiveOverride? capability = field.effectiveOverride? capability := by
  rw [effectiveOverride?, effectiveOverride?, skips.override?_eq, skips.override?_eq]

end SkipsMore

end Field

theorem exists_mem_of_forall₂ {related : α → β → Prop} {items : List α} {others : List β}
    (aligned : List.Forall₂ related items others) {item : α} (member : item ∈ items) :
    ∃ other ∈ others, related item other := by
  induction aligned with
  | nil => cases member
  | cons first rest ih =>
    rcases List.mem_cons.mp member with own | behind
    · subst own
      exact ⟨_, List.mem_cons_self .., first⟩
    · obtain ⟨other, present, same⟩ := ih behind
      exact ⟨other, List.mem_cons_of_mem _ present, same⟩

namespace Definition

/-- A capability that produces every field reads no skip mark. -/
theorem implFor_of_unmarked_eq (full : capability.honorsSkip = false)
    (same : other.unmarked = definition.unmarked) :
    other.implFor phantoms capability = definition.implFor phantoms capability := by
  refine implFor_congr same (fun _ => rfl) (fun honored => ?_) fun definition field => ?_
  · rw [full] at honored
    cases honored
  · exact fieldRequirements_unmarked phantoms (by rw [Field.skippedFor, full, Bool.and_false])

theorem fieldRequirements_hidden (honored : capability.honorsSkip = true)
    (definition : Definition) (field : Field) :
    definition.fieldRequirements phantoms field.hidden capability =
      definition.fieldRequirements phantoms field capability := by
  cases marked : field.skip with
  | false => rw [Field.hidden_of_kept marked]
  | true =>
    have passed : field.skippedFor capability = true := by
      rw [Field.skippedFor, marked, honored]
      rfl
    have alsoPassed : ({ field with type := .tuple [] } : Field).skippedFor capability = true :=
      passed
    rw [Field.hidden_of_skip marked, fieldRequirements, fieldRequirements, if_pos passed,
      if_pos alsoPassed]
    rfl

/-- A capability that passes over skipped fields does not look at their types. -/
theorem implFor_of_hidden_eq (honored : capability.honorsSkip = true)
    (same : other.hidden = definition.hidden) :
    other.implFor phantoms capability = definition.implFor phantoms capability :=
  implFor_congr same Field.hidden_key (fun _ => Field.hidden_skip)
    (fieldRequirements_hidden honored)

theorem Typed.of_unmarked_eq (typed : definition.Typed)
    (same : other.unmarked = definition.unmarked) : other.Typed := by
  have frame := SharesFrame.of_eq same
  constructor
  case bounds => exact frame.boundedTo ▸ typed.bounds
  case fields =>
    intro field member
    obtain ⟨source, known, alike⟩ := frame.source member
    rw [← Field.type_of_unmarked_eq alike]
    exact typed.fields source known

theorem Typed.of_hidden_eq (typed : definition.Typed) (same : other.hidden = definition.hidden)
    (read : ∀ field ∈ other.shape.fields, field.skip = true →
      ∃ text, parseType text = .ok field.type) : other.Typed := by
  have frame := SharesFrame.of_eq same
  constructor
  case bounds => exact frame.boundedTo ▸ typed.bounds
  case fields =>
    intro field member
    cases marked : field.skip with
    | true =>
      obtain ⟨text, parsed⟩ := read field member marked
      exact parseType_proper parsed
    | false =>
      obtain ⟨source, known, alike⟩ := frame.source member
      rw [← Field.eq_of_hidden_eq alike marked]
      exact typed.fields source known

section

variable (skips : other.SkipsMore definition)

include skips

theorem SkipsMore.frame : SharesFrame Field.unmarked other definition :=
  .of_eq skips.unmarked

theorem SkipsMore.typeParams : other.typeParams = definition.typeParams := by
  rw [Definition.typeParams, Definition.typeParams, skips.frame.params]

theorem SkipsMore.source (member : later ∈ other.shape.fields) :
    ∃ field ∈ definition.shape.fields, later.SkipsMore field :=
  exists_mem_of_forall₂ skips.fields member

theorem SkipsMore.misnames (marked : later.SkipsMore field)
    (bad : other.Misnames later capability) : definition.Misnames field capability := by
  unfold Misnames at bad ⊢
  rwa [marked.override?_eq, skips.typeParams] at bad

/-- A further skip mark never makes a field fail. -/
theorem SkipsMore.offends (marked : later.SkipsMore field)
    (bad : other.Offends capability later) : definition.Offends capability field := by
  rcases bad with own | ⟨same, kept, absent, shared⟩
  · exact .inl (skips.misnames marked own)
  · exact .inr ⟨same, marked.kept kept, (marked.override?_eq .eq).symm.trans absent,
      skips.misnames marked shared⟩

theorem SkipsMore.refused (refused : other.Refused capability) :
    definition.Refused capability := by
  rcases refused with ⟨same, enum⟩ | ⟨later, member, bad⟩
  · exact .inl ⟨same, skips.frame.isEnum ▸ enum⟩
  · obtain ⟨field, present, marked⟩ := skips.source member
    exact .inr ⟨field, present, skips.offends marked bad⟩

theorem SkipsMore.overrides (overridden : other.overrides capability param = true) :
    definition.overrides capability param = true := by
  obtain ⟨later, member, due⟩ := List.any_eq_true.mp overridden
  obtain ⟨active, named⟩ := Bool.and_eq_true_iff.mp due
  obtain ⟨field, present, marked⟩ := skips.source member
  rw [marked.effectiveOverride?_eq] at named
  exact List.any_eq_true.mpr
    ⟨field, present, Bool.and_eq_true_iff.mpr ⟨marked.active active, named⟩⟩

theorem SkipsMore.infers (inferred : other.infers phantoms capability param = true) :
    definition.infers phantoms capability param = true := by
  obtain ⟨later, member, due⟩ := List.any_eq_true.mp inferred
  obtain ⟨taking, mentioned⟩ := Bool.and_eq_true_iff.mp due
  obtain ⟨active, absent⟩ := Bool.and_eq_true_iff.mp taking
  obtain ⟨field, present, marked⟩ := skips.source member
  rw [marked.effectiveOverride?_eq] at absent
  rw [Field.type_of_unmarked_eq marked.unmarked, skips.typeParams] at mentioned
  refine List.any_eq_true.mpr ⟨field, present, ?_⟩
  rw [marked.active active, absent, mentioned]
  rfl

theorem SkipsMore.standsIn : other.standsIn capability param =
    definition.standsIn capability param := by
  rw [Definition.standsIn, Definition.standsIn, skips.frame.boundedTo, skips.typeParams]

/-- A parameter that is bound was bound before, though maybe over another field: where an override
is skipped, the types of other fields may be what asks for it. -/
theorem SkipsMore.expectedBound
    (bound : (other.expectedBound phantoms capability param).isSome = true) :
    (definition.expectedBound phantoms capability param).isSome = true := by
  unfold Definition.expectedBound at bound ⊢
  split
  · rfl
  · rename_i free
    have alsoFree : ¬ other.overrides capability param = true :=
      fun overridden => free (skips.overrides overridden)
    rw [if_neg alsoFree, skips.standsIn] at bound
    split at bound
    · rename_i due
      obtain ⟨standing, inferred⟩ := Bool.and_eq_true_iff.mp due
      rw [if_pos (Bool.and_eq_true_iff.mpr ⟨standing, skips.infers inferred⟩)]
      rfl
    · cases bound

end

/-- The parameters that an impl bounds, in declaration order. -/
theorem implFor_boundedParams {item : ImplItem} (distinct : definition.typeParams.Nodup)
    (derived : definition.implFor phantoms capability = .ok item) :
    item.bounds.map (·.param) = definition.typeParams.filter fun param =>
      (definition.expectedBound phantoms capability param).isSome := by
  rw [implFor_expected distinct derived, List.map_filterMap, ← List.filterMap_eq_filter]
  apply List.filterMap_congr
  intro param _
  cases expected : definition.expectedBound phantoms capability param with
  | none => simp [expected, Option.guard]
  | some requirement => simp [expected, (expectedBound_key expected).1, Option.guard]

end Definition

open Definition

/-- Further skip marks keep every impl, with no more bounded parameters. -/
theorem Definition.SkipsMore.impls (skips : other.SkipsMore definition)
    (parts : Classified element definition) (requested : List Capability) (phantoms : List String) :
    ∀ item ∈ (derivationOf definition requested phantoms).impls,
      ∃ later ∈ (derivationOf other requested phantoms).impls,
        later.capability = item.capability ∧
          (later.bounds.map (·.param)).Sublist (item.bounds.map (·.param)) := by
  intro item member
  obtain ⟨asked, derived⟩ := mem_impls.mp member
  have distinct := parts.typeParams_nodup
  have free := implFor_not_refused parts.typed derived
  obtain ⟨later, found⟩ := exists_implFor_of_not_refused
    (parts.typed.of_unmarked_eq skips.unmarked) phantoms fun refused => free (skips.refused refused)
  have tagged := implFor_capability found
  refine ⟨later, mem_impls.mpr ⟨tagged ▸ asked, tagged ▸ found⟩, tagged, ?_⟩
  rw [implFor_boundedParams distinct derived,
    implFor_boundedParams (skips.typeParams ▸ distinct) found, skips.typeParams]
  exact List.monotone_filter_right _ fun _ => skips.expectedBound

/-- Skip marks reach only the capabilities that pass over skipped fields, these do not see the types
behind the marks, and further marks neither refuse nor bound anything more. -/
theorem derive_skip (classified : classify element = .ok definition)
    (requested : List Capability) (phantoms : List String) :
    ∃ result, derive definition requested phantoms = .ok result ∧
      (∀ other, other.unmarked = definition.unmarked → ∃ changed,
        derive other requested phantoms = .ok changed ∧
          ∀ capability ∈ [Capability.default, .clone],
            changed.outcome capability = result.outcome capability) ∧
      (∀ other, other.hidden = definition.hidden →
        (∀ field ∈ other.shape.fields, field.skip = true →
          ∃ text, parseType text = .ok field.type) →
        ∃ changed, derive other requested phantoms = .ok changed ∧
          ∀ capability ∈ [Capability.debug, .partialEq, .eq],
            changed.outcome capability = result.outcome capability) ∧
      ∀ other, other.SkipsMore definition → ∃ changed,
        derive other requested phantoms = .ok changed ∧
          ∀ item ∈ result.impls, ∃ later ∈ changed.impls, later.capability = item.capability ∧
            (later.bounds.map (·.param)).Sublist (item.bounds.map (·.param)) := by
  have parts := Classified.of_classify classified
  have typed := parts.typed
  have full : ∀ capability ∈ [Capability.default, .clone], capability.honorsSkip = false := by
    decide
  have honored : ∀ capability ∈ [Capability.debug, .partialEq, .eq],
      capability.honorsSkip = true := by
    decide
  refine ⟨_, derive_eq_ok typed requested phantoms, ?_, ?_, ?_⟩
  · intro other same
    refine ⟨_, derive_eq_ok (typed.of_unmarked_eq same) requested phantoms, ?_⟩
    intro capability member
    exact outcome_derivationOf_congr (SharesFrame.of_eq same).name
      (implFor_of_unmarked_eq (full capability member) same)
  · intro other same read
    refine ⟨_, derive_eq_ok (typed.of_hidden_eq same read) requested phantoms, ?_⟩
    intro capability member
    exact outcome_derivationOf_congr (SharesFrame.of_eq same).name
      (implFor_of_hidden_eq (honored capability member) same)
  · intro other skips
    exact ⟨_, derive_eq_ok (typed.of_unmarked_eq skips.unmarked) requested phantoms,
      skips.impls parts requested phantoms⟩

/-- A struct that skips the second of its two fields. -/
private def cachedElement : Xml.Element :=
  let member (type skip : String) : Xml.Element :=
    ⟨"member", [("skip", skip)], none, [⟨"type", [], some type, []⟩]⟩
  ⟨"type", [("name", "Lookup"), ("category", "struct")], none, [
    ⟨"param", [("name", "T")], none, []⟩,
    ⟨"param", [("name", "U")], none, []⟩,
    member "T" "",
    member "Vec<U>" "true"]⟩

/-- The definition of the struct, with its skip marks and the type of its second field left open. -/
private def cachedDefinition (first second : Bool) (type : TypeExpr) : Definition :=
  ⟨"Lookup", [⟨"T", .type, none, none⟩, ⟨"U", .type, none, none⟩],
    .tuple [⟨.position 0, .path false [.mk "T" []], first, []⟩, ⟨.position 1, type, second, []⟩],
    [], []⟩

theorem derive_skip_sample :
    let type : TypeExpr := .path false [.mk "Vec" [.path false [.mk "U" []]]]
    let definition := cachedDefinition false true type
    let swapped := cachedDefinition true false type
    let replaced := cachedDefinition false true (.tuple [])
    let skipped := cachedDefinition true true type
    classify cachedElement = .ok definition ∧
      swapped.unmarked = definition.unmarked ∧
      replaced.hidden = definition.hidden ∧
      (∀ field ∈ replaced.shape.fields, field.skip = true →
        ∃ text, parseType text = .ok field.type) ∧
      skipped.SkipsMore definition ∧
      ∃ result, derive definition Capability.all defaultPhantoms = .ok result ∧
        (∃ changed, derive swapped Capability.all defaultPhantoms = .ok changed ∧
          ∀ capability ∈ [Capability.default, .clone],
            changed.outcome capability = result.outcome capability) ∧
        (∃ changed, derive replaced Capability.all defaultPhantoms = .ok changed ∧
          ∀ capability ∈ [Capability.debug, .partialEq, .eq],
            changed.outcome capability = result.outcome capability) ∧
        ∃ changed, derive skipped Capability.all defaultPhantoms = .ok changed ∧
          ∀ item ∈ result.impls, ∃ later ∈ changed.impls, later.capability = item.capability ∧
            (later.bounds.map (·.param)).Sublist (item.bounds.map (·.param)) := by
  intro type definition swapped replaced skipped
  have classified : classify cachedElement = .ok definition := by cbv
  have unmarked : swapped.unmarked = definition.unmarked := rfl
  have hidden : replaced.hidden = definition.hidden := rfl
  have read : ∀ field ∈ replaced.shape.fields, field.skip = true →
      ∃ text, parseType text = .ok field.type := by
    intro field member marked
    rcases List.mem_cons.mp member with first | second
    · rw [first] at marked
      cases marked
    · rw [List.mem_singleton.mp second]
      exact ⟨"()", by cbv⟩
  have skips : skipped.SkipsMore definition :=
    ⟨rfl, .cons ⟨rfl, fun _ => rfl⟩ (.cons ⟨rfl, fun _ => rfl⟩ .nil)⟩
  obtain ⟨result, derived, marks, types, more⟩ :=
    derive_skip classified Capability.all defaultPhantoms
  exact ⟨classified, unmarked, hidden, read, skips, result, derived, marks _ unmarked,
    types _ hidden read, more _ skips⟩

end DeriveBounds
