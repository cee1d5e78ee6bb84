import DeriveBounds.Classify
import DeriveBounds.Proofs.Outcome

/-!
What a classified definition promises: how each part of it was read from the element, and that its
parameters have distinct names.
-/
namespace DeriveBounds

open Xml (Element)

theorem firstRepeated?_eq_none_iff (items : List String) :
    firstRepeated? items = none ↔ items.Nodup := by
  rw [firstRepeated?, List.find?_eq_none, List.nodup_iff_count]
  constructor
  · intro never item
    by_cases member : item ∈ items
    · simpa using never item member
    · simp [List.count_eq_zero_of_not_mem member]
  · intro once item _
    simpa using once item

theorem eraseDups_nodup {α : Type} [BEq α] [LawfulBEq α] (items : List α) :
    items.eraseDups.Nodup := by
  cases items with
  | nil => simp
  | cons item rest =>
    rw [List.eraseDups_cons, List.nodup_cons]
    refine ⟨?_, eraseDups_nodup (rest.filter fun other => !other == item)⟩
    simp [List.mem_eraseDups]
termination_by items.length
decreasing_by exact Nat.lt_succ_of_le (List.length_filter_le _ rest)

/-- Where each part of a classified definition comes from. -/
structure Classified (element : Element) (definition : Definition) : Prop where
  name : definition.name = Text.strip (element.attributeD "name")
  validName : isName definition.name = true
  params : readParams definition.name (element.childrenTagged "param") = .ok definition.params
  distinct : (definition.params.map (·.name)).Nodup
  shape : readShape element definition.name = .ok definition.shape
  boundedTo :
    readBoundedTo definition.name (element.childrenTagged "bounded-to") = .ok definition.boundedTo
  derives : ∃ requested,
    readDerives definition.name (namesIn (element.attributeD "derive")) = .ok requested ∧
      definition.derives = Capability.ordered requested

theorem Classified.of_classify {element : Element} {definition : Definition}
    (classified : classify element = .ok definition) : Classified element definition := by
  simp only [classify] at classified
  split at classified
  · rename_i validName
    obtain ⟨params, paramsRead, classified⟩ := bind_eq_ok_iff.mp classified
    split at classified
    · simp only [bind_eq_ok_iff, throw_ne_ok, false_and, exists_false] at classified
    · rename_i single
      simp only [bind_eq_ok_iff, pure_eq_ok_iff] at classified
      obtain ⟨shape, shapeRead, boundedTo, boundedToRead, derives, derivesRead, same⟩ := classified
      subst same
      have distinct : firstRepeated? (params.map (·.name)) = none :=
        Option.eq_none_iff_forall_ne_some.mpr single
      exact ⟨rfl, validName, paramsRead, (firstRepeated?_eq_none_iff _).mp distinct, shapeRead,
        boundedToRead, derives, derivesRead, rfl⟩
  · simp only [bind_eq_ok_iff, throw_ne_ok, false_and, exists_false] at classified

theorem Classified.typeParams_nodup {element : Element} {definition : Definition}
    (classified : Classified element definition) : definition.typeParams.Nodup :=
  (List.filter_sublist.map _).nodup classified.distinct

theorem nonEmpty_eq_some_iff {text kept : String} :
    nonEmpty text = some kept ↔ text = kept ∧ kept ≠ "" := by
  unfold nonEmpty
  split
  · rename_i empty
    constructor
    · simp
    · intro parts
      obtain ⟨same, filled⟩ := parts
      exact absurd (same ▸ empty) filled
  · rename_i filled
    constructor
    · intro same
      cases same
      exact ⟨rfl, filled⟩
    · intro parts
      obtain ⟨same, _⟩ := parts
      exact congrArg some same

/-- Where each part of a parameter comes from. -/
theorem readParam_eq_ok {element : Element} {type : String} {param : GenericParam}
    (read : readParam element type = .ok param) :
    param.name = Text.strip (element.attributeD "name") ∧
      ParamKind.ofName? ((element.attribute? "kind").getD ParamKind.type.name) = some param.kind ∧
      isParamName param.kind param.name = true ∧
      param.constType = element.attribute? "type" ∧
      (param.kind = .const → param.constType.bind nonEmpty ≠ none) ∧
      param.bounds = nonEmpty (Text.strip (element.attributeD "bounds")) := by
  simp only [readParam] at read
  split at read
  · rename_i kind kindFound
    split at read
    · rename_i validName
      split at read
      · simp only [bind_eq_ok_iff, throw_ne_ok, false_and, exists_false] at read
      · rename_i typed
        simp only [pure_eq_ok_iff] at read
        subst read
        dsimp only
        exact ⟨rfl, kindFound, validName, rfl, fun const absent => typed ⟨const, absent⟩, rfl⟩
    · simp only [bind_eq_ok_iff, throw_ne_ok, false_and, exists_false] at read
  · simp only [throw_ne_ok] at read

theorem readParams_mem {elements : List Element} {type : String} {params : List GenericParam}
    (read : readParams type elements = .ok params) (param : GenericParam)
    (member : param ∈ params) : ∃ element ∈ elements, readParam element type = .ok param := by
  induction elements generalizing params with
  | nil =>
    cases read
    simp at member
  | cons element rest ih =>
    simp only [readParams, bind_eq_ok_iff, pure_eq_ok_iff] at read
    obtain ⟨first, firstRead, others, othersRead, same⟩ := read
    subst same
    rcases List.mem_cons.mp member with own | later
    · subst own
      exact ⟨element, List.mem_cons_self .., firstRead⟩
    · obtain ⟨source, present, found⟩ := ih othersRead later
      exact ⟨source, List.mem_cons_of_mem _ present, found⟩

/-- Blank bounds of a parameter count as none. -/
theorem Classified.bounds_ne_empty {element : Element} {definition : Definition}
    (classified : Classified element definition) {param : GenericParam}
    (member : param ∈ definition.params) : param.bounds ≠ some "" := by
  obtain ⟨source, _, read⟩ := readParams_mem classified.params param member
  obtain ⟨_, _, _, _, _, bounds⟩ := readParam_eq_ok read
  rw [bounds]
  intro empty
  exact (nonEmpty_eq_some_iff.mp empty).2 rfl

end DeriveBounds
