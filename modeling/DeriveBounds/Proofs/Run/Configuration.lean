import DeriveBounds.Proofs.Classified.Coherent
import DeriveBounds.Proofs.Run.Selection
import DeriveBounds.Proofs.Text.NameList
import DeriveBounds.Config

/-!
Configurations as functions of names. Options that take names are read through the names in them
alone, however these are grouped, and what comes to be generated holds clean names only.
-/
namespace DeriveBounds

/-- The texts of an entry: its own, or those of a group. -/
inductive EntryTexts : Value → List String → Prop where
  | text (text : String) : EntryTexts (.text text) [text]
  | group (texts : List String) : EntryTexts (.texts texts) texts

/-- The texts of an option that takes names. -/
inductive OptionTexts : Value → List String → Prop where
  | absent : OptionTexts .null []
  | entries (each : List.Forall₂ EntryTexts entries groups) :
      OptionTexts (.list entries) groups.flatten

/-- The arguments with other values of the options that take names. -/
def Arguments.regiven (arguments : Arguments) (derive types phantoms : Value) : Arguments :=
  { arguments with derive := derive, types := types, phantomTypes := phantoms }

/-- The options that take names are given with these texts. -/
structure Arguments.Gives (arguments : Arguments) (derive types phantoms : List String) : Prop where
  derive : OptionTexts arguments.derive derive
  types : OptionTexts arguments.types types
  phantoms : OptionTexts arguments.phantomTypes phantoms

/-- A job for the names: it derives what these stand for and nothing else, each capability once and
in canonical order, and every type in it goes by an identifier. -/
structure GenerateJob.Names (job : GenerateJob) (derive types phantoms : List String) : Prop where
  canonical : job.capabilities.Sublist Capability.all
  distinct : job.capabilities.Nodup
  known : ∀ name ∈ derive, (Capability.ofName? name).isSome = true
  derived : ∀ capability, capability ∈ job.capabilities ↔
    ∃ name ∈ derive, Capability.ofName? name = some capability
  types : ∀ name, name ∈ job.typeNames ↔ name ∈ types
  phantoms : ∀ name, name ∈ job.phantoms ↔ name ∈ defaultPhantoms ∨ name ∈ phantoms
  identifiers : ∀ name ∈ job.typeNames ++ job.phantoms, isIdent name.toList = true

variable {arguments : Arguments} {workspace : Workspace} {job : GenerateJob} {logging : Logging}
  {entry value : Value} {entries : List Value} {groups : List (List String)}
  {names texts derive types phantoms : List String} {capabilities : List Capability}
  {flag name : String}

section Flattening

theorem groupNames_texts :
    groupNames flag (texts.map .text) = .ok (texts.flatMap namesIn) := by
  induction texts with
  | nil => rfl
  | cons text texts ih =>
    rw [List.map_cons, groupNames, ih]
    rfl

theorem entryNames_cons (given : EntryTexts entry texts) :
    entryNames flag (entry :: entries) = do
      let names ← entryNames flag entries
      return texts.flatMap namesIn ++ names := by
  cases given with
  | text text =>
    have alone := @groupNames_texts [text] flag
    rw [List.map_singleton] at alone
    rw [entryNames, alone]
    · rfl
    · nofun
  | group =>
    rw [Value.texts, entryNames, groupNames_texts]
    rfl

theorem entryNames_forall₂ (each : List.Forall₂ EntryTexts entries groups) :
    entryNames flag entries = .ok (groups.flatten.flatMap namesIn) := by
  induction each with
  | nil => rfl
  | cons given each ih =>
    rw [entryNames_cons given, ih, List.flatten_cons, List.flatMap_append]
    rfl

/-- An option comes to the names of its texts. -/
theorem flattenNames_eq_flatMap (given : OptionTexts value texts) :
    flattenNames flag value = .ok (texts.flatMap namesIn) := by
  cases given with
  | absent => rfl
  | entries each => exact entryNames_forall₂ each

/-- The grouping of texts leaves no trace: commas would do as well. -/
theorem namesIn_join_comma : namesIn (Text.join "," texts) = texts.flatMap namesIn :=
  namesIn_join (by decide) (by simp [separatesNames])

theorem Arguments.Gives.flatten (given : arguments.Gives derive types phantoms) :
    arguments.flatten =
      .ok (derive.flatMap namesIn, types.flatMap namesIn, phantoms.flatMap namesIn) := by
  rw [Arguments.flatten, flattenNames_eq_flatMap given.derive, flattenNames_eq_flatMap given.types,
    flattenNames_eq_flatMap given.phantoms]
  rfl

/-- Of the options that take names, a configuration sees what they come to. -/
theorem Arguments.check_regiven {derive types phantoms : Value}
    (same : (arguments.regiven derive types phantoms).flatten = arguments.flatten) :
    (arguments.regiven derive types phantoms).check workspace = arguments.check workspace := by
  simp only [Arguments.check, same]
  rfl

end Flattening

section Checking

theorem checkCapability_eq_ok_iff {capability : Capability} :
    checkCapability name = .ok capability ↔ Capability.ofName? name = some capability := by
  rw [checkCapability]
  split
  · rename_i found
    rw [found, Except.ok.injEq, Option.some.injEq]
  · rename_i unknown
    simp [unknown]

theorem checkCapabilities_eq_ok_iff :
    checkCapabilities names = .ok capabilities ↔
      names.map Capability.ofName? = capabilities.map some := by
  induction names generalizing capabilities with
  | nil => cases capabilities <;> simp [checkCapabilities]
  | cons name names ih =>
    simp only [checkCapabilities, bind_eq_ok_iff, checkCapability_eq_ok_iff, pure_eq_ok_iff, ih]
    cases capabilities <;> simp

theorem checkName_eq_ok_iff {checked : String} :
    checkName flag name = .ok checked ↔ isName name = true ∧ name = checked := by
  rw [checkName]
  split <;> simp [*]

/-- Checked names come back as they are. -/
theorem checkNames_eq_ok_iff {checked : List String} :
    checkNames flag names = .ok checked ↔ (∀ name ∈ names, isName name = true) ∧ names = checked := by
  induction names generalizing checked with
  | nil => simp [checkNames]
  | cons name names ih =>
    simp only [checkNames, bind_eq_ok_iff, checkName_eq_ok_iff, pure_eq_ok_iff, ih]
    constructor
    · rintro ⟨_, ⟨named, rfl⟩, _, ⟨others, rfl⟩, rfl⟩
      exact ⟨List.forall_mem_cons.mpr ⟨named, others⟩, rfl⟩
    · rintro ⟨named, rfl⟩
      obtain ⟨first, others⟩ := List.forall_mem_cons.mp named
      exact ⟨_, ⟨first, rfl⟩, _, ⟨others, rfl⟩, rfl⟩

/-- Names that stand in a list end in no line feed, which is a separator. -/
theorem isIdent_of_mem_namesIn (listed : name ∈ texts.flatMap namesIn)
    (named : isName name = true) : isIdent name.toList = true := by
  obtain ⟨text, _, found⟩ := List.mem_flatMap.mp listed
  have whole := (namesIn_eq_iff.mp rfl : ListsNames text.toList _).whole name found
  apply isIdent_of_isName named
  intro last
  have separate := whole '\n' (List.mem_of_getLast? last)
  exact absurd separate (by decide)

theorem isIdent_of_mem_defaultPhantoms : ∀ name ∈ defaultPhantoms, isIdent name.toList = true := by
  decide

/-- What a job that is made of names was found to be. -/
theorem Arguments.generateJob_names {input : Path}
    (made : arguments.generateJob input (derive.flatMap namesIn) (types.flatMap namesIn)
      (phantoms.flatMap namesIn) = .ok job) :
    job.Names (derive.flatMap namesIn) (types.flatMap namesIn) (phantoms.flatMap namesIn) := by
  simp only [Arguments.generateJob, bind_eq_ok_iff, pure_eq_ok_iff, checkCapabilities_eq_ok_iff,
    checkNames_eq_ok_iff] at made
  obtain ⟨capabilities, known, _, ⟨typesNamed, rfl⟩, _, ⟨phantomsNamed, rfl⟩, rfl⟩ := made
  constructor
  case canonical => exact Capability.ordered_sublist capabilities
  case distinct => exact Capability.ordered_nodup capabilities
  case known =>
    intro name asked
    have found : Capability.ofName? name ∈ capabilities.map some :=
      known ▸ List.mem_map_of_mem asked
    obtain ⟨capability, _, same⟩ := List.mem_map.mp found
    simp [← same]
  case derived =>
    intro capability
    have named : some capability ∈ capabilities.map some ↔ capability ∈ capabilities := by simp
    rw [Capability.mem_ordered_iff, ← named, ← known, List.mem_map]
  case types => exact fun name => mem_sortedNames
  case phantoms =>
    intro name
    rw [mem_sortedNames, List.mem_append]
  case identifiers =>
    intro name member
    simp only [List.mem_append, mem_sortedNames] at member
    rcases member with listed | standing | listed
    · exact isIdent_of_mem_namesIn listed (typesNamed name listed)
    · exact isIdent_of_mem_defaultPhantoms name standing
    · exact isIdent_of_mem_namesIn listed (phantomsNamed name listed)

/-- A job comes from the names that the options come to. -/
theorem Arguments.check_eq_generate (flat : arguments.flatten = .ok (derive, types, phantoms))
    (checked : arguments.check workspace = .ok ⟨.generate job, logging⟩) :
    ∃ input, arguments.generateJob input derive types phantoms = .ok job := by
  obtain ⟨names, found, checked⟩ := bind_eq_ok_iff.mp checked
  rw [flat] at found
  cases found
  simp only at checked
  split at checked
  · simp only [bind_eq_ok_iff, throw_ne_ok, false_and, exists_false] at checked
  · split at checked
    · cases checked
    · obtain ⟨input, _, checked⟩ := bind_eq_ok_iff.mp checked
      split at checked
      · cases checked
      · obtain ⟨made, found, same⟩ := bind_eq_ok_iff.mp checked
        cases same
        exact ⟨input, mapError_eq_ok_iff.mp found⟩

end Checking

/-- An option that takes names comes to the names of its texts, as if they were joined by commas.
So configurations and errors are the same however the same names are given, and a job is one for
these names. -/
theorem Arguments.check_names (workspace : Workspace)
    (given : arguments.Gives derive types phantoms) :
    (∀ flag, flattenNames flag arguments.derive = .ok (namesIn (Text.join "," derive)) ∧
      flattenNames flag arguments.types = .ok (namesIn (Text.join "," types)) ∧
      flattenNames flag arguments.phantomTypes = .ok (namesIn (Text.join "," phantoms))) ∧
    (∀ deriveValue typesValue phantomsValue deriveTexts typesTexts phantomsTexts,
      (arguments.regiven deriveValue typesValue phantomsValue).Gives deriveTexts typesTexts
        phantomsTexts →
      SameNames deriveTexts derive → SameNames typesTexts types → SameNames phantomsTexts phantoms →
      (arguments.regiven deriveValue typesValue phantomsValue).check workspace =
        arguments.check workspace) ∧
    ∀ job logging, arguments.check workspace = .ok ⟨.generate job, logging⟩ →
      job.Names (namesIn (Text.join "," derive)) (namesIn (Text.join "," types))
        (namesIn (Text.join "," phantoms)) := by
  simp only [namesIn_join_comma]
  refine ⟨?_, ?_, ?_⟩
  · intro flag
    exact ⟨flattenNames_eq_flatMap given.derive, flattenNames_eq_flatMap given.types,
      flattenNames_eq_flatMap given.phantoms⟩
  · intro _ _ _ _ _ _ regiven sameDerive sameTypes samePhantoms
    apply Arguments.check_regiven
    rw [regiven.flatten, given.flatten, sameNames_iff.mp sameDerive, sameNames_iff.mp sameTypes,
      sameNames_iff.mp samePhantoms]
  · intro job logging checked
    obtain ⟨input, made⟩ := Arguments.check_eq_generate given.flatten checked
    exact Arguments.generateJob_names made

/-- A repeated capability, in a group and in a list with commas. -/
private def groupedArguments : Arguments :=
  { input := .path ⟨"", ["t"]⟩
    derive := .list [.texts ["PartialEq", "clone"], .text "Clone,Debug"]
    types := .list [.texts ["Pair"]] }

private def groupedWorkspace : Workspace := ⟨[], [(["t"], .file "")]⟩

private def groupedJob : GenerateJob :=
  ⟨⟨"", ["t"]⟩, .absent, [.debug, .clone, .partialEq], ["Pair"], defaultPhantoms⟩

theorem Arguments.check_names_sample :
    let regrouped := groupedArguments.regiven (.list [.text "PartialEq\tclone, Clone\nDebug"])
      (.list [.text "Pair,"]) (.list [])
    groupedArguments.Gives ["PartialEq", "clone", "Clone,Debug"] ["Pair"] [] ∧
      regrouped.check groupedWorkspace = groupedArguments.check groupedWorkspace ∧
      groupedArguments.check groupedWorkspace = .ok ⟨.generate groupedJob, {}⟩ ∧
      groupedJob.Names ["PartialEq", "clone", "Clone", "Debug"] ["Pair"] [] := by
  intro regrouped
  have given : groupedArguments.Gives ["PartialEq", "clone", "Clone,Debug"] ["Pair"] [] :=
    ⟨.entries (.cons (.group _) (.cons (.text _) .nil)), .entries (.cons (.group _) .nil), .absent⟩
  have regiven : regrouped.Gives ["PartialEq\tclone, Clone\nDebug"] ["Pair,"] [] :=
    ⟨.entries (.cons (.text _) .nil), .entries (.cons (.text _) .nil), .entries .nil⟩
  have checked : groupedArguments.check groupedWorkspace = .ok ⟨.generate groupedJob, {}⟩ := by cbv
  obtain ⟨_, same, names⟩ := Arguments.check_names groupedWorkspace given
  exact ⟨given, same _ _ _ _ _ _ regiven (sameNames_iff.mpr rfl) (sameNames_iff.mpr rfl)
    (sameNames_iff.mpr rfl), checked, names _ _ checked⟩

end DeriveBounds
