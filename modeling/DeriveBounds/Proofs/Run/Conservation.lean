import DeriveBounds.Proofs.Derivation.Batch
import DeriveBounds.Proofs.Workspace
import DeriveBounds.Run

/-!
Nothing is lost in a run. Every selected element contributes a row or a failure of its own, the
report consists of what the elements contribute, and the delivered source holds exactly the impls
that the rows count.
-/
namespace DeriveBounds

open Xml (Element)

namespace GenerateJob

variable (job : GenerateJob)

/-- The forced capabilities, if there are any, and else those that the type declares. -/
def requested (definition : Definition) : List Capability :=
  if job.capabilities = [] then definition.derives else job.capabilities

/-- What an element is derived to, if it is classified. -/
def derivation? (element : Element) : Option Derivation :=
  (job.batchOptions.process element).toOption.bind Processed.result?

/-- The failure of an element that is not classified. -/
def typeFailure? (element : Element) : Option Failure :=
  (job.batchOptions.process element).toOption.bind Processed.failure?

/-- What one element contributes: a row that splits what is asked of its type, or one failure. -/
inductive Contributes (element : Element) : Prop where
  | row (definition : Definition) (result : Derivation)
      (classified : classify element = .ok definition)
      (derived : job.derivation? element = some result)
      (passed : job.typeFailure? element = none)
      (same : result.definition = definition)
      (splits : (TypeRow.ofResult result).Splits (job.requested definition))
      (reported : result.failures.map (·.capability) = (TypeRow.ofResult result).failed.map some)
  | failure (error : DeriveError)
      (refused : classify element = .error error)
      (underived : job.derivation? element = none)
      (failed : job.typeFailure? element = some (.ofError error (element.attribute? "name")))

/-- The report on the selected elements: the rows in their order, then the failures of types in
their order, then those of single capabilities. -/
def summaryOf (selected : List Element) (written : Option Written) : Summary where
  source := job.input.name
  types := (selected.filterMap job.derivation?).map TypeRow.ofResult
  failures := selected.filterMap job.typeFailure? ++
    (selected.filterMap job.derivation?).flatMap (·.failures)
  written := written

/-- The impls that the selected elements are derived to, each with its type. -/
def implsOf (selected : List Element) : List (Definition × ImplItem) :=
  (selected.filterMap job.derivation?).flatMap fun result =>
    result.impls.map fun item => (result.definition, item)

/-- The header and, each behind an empty line, the rendered impls. -/
def sourceOf (selected : List Element) : String :=
  let items := (job.implsOf selected).flatMap fun (definition, item) => ["", item.render definition]
  Text.join "\n" (fileHeader job.input.name job.capabilities ++ items) ++ "\n"

/-- The lines that a run begins with. -/
def progressText (selected : List Element) : String :=
  "Parsing: " ++ job.input.text ++ "\n" ++ "  Types: " ++ toString selected.length ++ " selected\n"

/-- The log lines of the selected elements. -/
def logText (selected : List Element) (logging : Logging) (stamp : String) : String :=
  let events := selected.flatMap job.batchOptions.events
  Text.join "" (events.filterMap fun event => Emission.err? logging stamp (.log event))

/-- The loop over the selected elements comes to what they contribute, and the rows count the impls
of the source, in order. -/
structure Accounted (selected : List Element) (written : Option Written) : Prop where
  contributes : ∀ element ∈ selected, job.Contributes element
  summarized : ∃ processed, job.batchOptions.processAll selected = .ok processed ∧
    job.summary processed written = job.summaryOf selected written ∧
    job.source (processed.filterMap Processed.result?) = job.sourceOf selected
  total : (job.summaryOf selected written).total = (job.implsOf selected).length
  order :
    (job.implsOf selected).map (fun (definition, item) => (definition.name, item.capability)) =
      (job.summaryOf selected written).types.flatMap fun row => row.generated.map (row.name, ·)

/-- What holds of the outcome of a run that selects these elements and writes its output, if it has
a path for it. -/
structure Conserves (selected : List Element) (written : Option Written) (before : Workspace)
    (logging : Logging) (outcome : Outcome) : Prop extends job.Accounted selected written where
  named : (∀ part ∈ job.input.parts, part ≠ "") → job.input.name ≠ ""
  printed : job.output.path? = none → written = none ∧ outcome.workspace = before ∧
    outcome.stdout = job.sourceOf selected ∧ ∀ stamp, outcome.stderr stamp =
      job.progressText selected ++ job.logText selected logging stamp ++
        (job.summaryOf selected written).text
  saved : ∀ path, job.output.path? = some path →
    (∃ result, written = some result ∧
      result.byteCount = (job.sourceOf selected).utf8ByteSize) ∧
    outcome.workspace.read path = .ok (job.sourceOf selected) ∧
    outcome.stdout = job.progressText selected ++ (job.summaryOf selected written).text ∧
    ∀ stamp, outcome.stderr stamp = job.logText selected logging stamp
  ending : outcome.ending = .ok (if (job.summaryOf selected written).failures = [] then 0 else 1)

end GenerateJob

namespace Text

theorem join_empty_cons (part : String) (rest : List String) :
    join "" (part :: rest) = part ++ join "" rest := by
  cases rest with
  | nil => simp
  | cons next rest => rw [join_cons_cons, String.append_empty]

theorem join_empty_append (parts others : List String) :
    join "" (parts ++ others) = join "" parts ++ join "" others := by
  induction parts with
  | nil => simp
  | cons part rest ih =>
    rw [List.cons_append, join_empty_cons, join_empty_cons, ih, String.append_assoc]

/-- What the first item adds to a text that is made of what some items add. -/
theorem join_filterMap_cons (part? : α → Option String) (first : α) (rest : List α) :
    join "" ((first :: rest).filterMap part?) =
      (part? first).getD "" ++ join "" (rest.filterMap part?) := by
  rw [List.filterMap_cons]
  cases part? first with
  | none => simp
  | some part => rw [join_empty_cons, Option.getD_some]

theorem join_filterMap_append (part? : α → Option String) (first rest : List α) :
    join "" ((first ++ rest).filterMap part?) =
      join "" (first.filterMap part?) ++ join "" (rest.filterMap part?) := by
  rw [List.filterMap_append, join_empty_append]

end Text

theorem loadTypes_eq_ok_iff {workspace : Workspace} {path : Path} {elements : List Element} :
    loadTypes workspace path = .ok elements ↔ ∃ text, workspace.read path = .ok text ∧
      ∃ root, Xml.readDocument text = .ok root ∧ typeElements root = elements := by
  simp only [loadTypes, bind_eq_ok_iff, mapError_eq_ok_iff, pure_eq_ok_iff]

/-- A path to a file has a name, for without parts it leads to a directory. -/
theorem Path.name_ne_empty_of_read {workspace : Workspace} {path : Path} {text : String}
    (read : workspace.read path = .ok text) (filled : ∀ part ∈ path.parts, part ≠ "") :
    path.name ≠ "" := by
  have some_part := Workspace.parts_ne_nil_of_read read
  rw [name, List.getLast?_eq_some_getLast some_part, Option.getD_some]
  exact filled _ (List.getLast_mem some_part)

namespace GenerateJob

section

variable (job : GenerateJob)

theorem requestedFor_batchOptions (definition : Definition) :
    requestedFor definition job.batchOptions.capabilities = job.requested definition := by
  unfold requestedFor batchOptions requested
  cases job.capabilities <;> rfl

theorem contributes (element : Element) : job.Contributes element := by
  cases classified : classify element with
  | ok definition =>
    have typed := (Classified.of_classify classified).typed
    have processed := job.batchOptions.process_of_classified classified
    rw [job.requestedFor_batchOptions] at processed
    exact .row definition _ classified (by rw [derivation?, processed]; rfl)
      (by rw [typeFailure?, processed]; rfl) rfl (ofResult_splits typed _ _)
      (ofResult_reported typed _ _)
  | error error =>
    have processed := job.batchOptions.process_of_refused classified
    exact .failure error classified (by rw [derivation?, processed]; rfl)
      (by rw [typeFailure?, processed]; rfl)

/-- A batch comes to what its elements come to one by one. -/
theorem exists_processAll (elements : List Element) : ∃ processed,
    job.batchOptions.processAll elements = .ok processed ∧
      processed.filterMap Processed.result? = elements.filterMap job.derivation? ∧
      processed.filterMap Processed.failure? = elements.filterMap job.typeFailure? := by
  induction elements with
  | nil => exact ⟨[], rfl, rfl, rfl⟩
  | cons element rest ih =>
    obtain ⟨others, processed, results, failures⟩ := ih
    obtain ⟨first, alone⟩ := job.batchOptions.exists_process element
    have derivation : job.derivation? element = first.result? := by rw [derivation?, alone]; rfl
    have failure : job.typeFailure? element = first.failure? := by rw [typeFailure?, alone]; rfl
    refine ⟨first :: others, ?_, ?_, ?_⟩
    · rw [BatchOptions.processAll, alone, processed]
      rfl
    · rw [List.filterMap_cons, List.filterMap_cons, results, derivation]
    · rw [List.filterMap_cons, List.filterMap_cons, failures, failure]

theorem source_eq (selected : List Element) :
    job.source (selected.filterMap job.derivation?) = job.sourceOf selected := by
  simp only [source, assemble, sourceOf, implsOf, Derivation.rendered, List.flatMap_map,
    List.flatMap_assoc]

theorem summarized (selected : List Element) : ∃ processed,
    job.batchOptions.processAll selected = .ok processed ∧
      (∀ written, job.summary processed written = job.summaryOf selected written) ∧
      job.source (processed.filterMap Processed.result?) = job.sourceOf selected := by
  obtain ⟨processed, all, results, failures⟩ := job.exists_processAll selected
  refine ⟨processed, all, fun written => ?_, by rw [results, source_eq]⟩
  rw [summary, results, failures]
  rfl

theorem total_eq (selected : List Element) (written : Option Written) :
    (job.summaryOf selected written).total = (job.implsOf selected).length := by
  simp [summaryOf, Summary.total, implsOf, TypeRow.ofResult, List.flatMap_map, List.length_flatMap]

theorem order_eq (selected : List Element) (written : Option Written) :
    (job.implsOf selected).map (fun (definition, item) => (definition.name, item.capability)) =
      (job.summaryOf selected written).types.flatMap fun row =>
        row.generated.map (row.name, ·) := by
  simp only [summaryOf, implsOf, TypeRow.ofResult, List.flatMap_map, List.map_flatMap, List.map_map]
  rfl

theorem accounted (selected : List Element) (written : Option Written) :
    job.Accounted selected written where
  contributes := fun element _ => job.contributes element
  summarized := by
    obtain ⟨processed, all, summary, source⟩ := job.summarized selected
    exact ⟨processed, all, summary written, source⟩
  total := job.total_eq selected written
  order := job.order_eq selected written

/-- What is said before anything is delivered. -/
def opening (selected : List Element) : List Emission :=
  [job.progress ("Parsing: " ++ job.input.text ++ "\n"),
    job.progress ("  Types: " ++ toString selected.length ++ " selected\n")] ++
  (selected.flatMap job.batchOptions.events).map .log

end

variable {job : GenerateJob} {workspace changed : Workspace} {elements selected : List Element}
  {logging : Logging} {path : Path} {result : Written}

section

variable (loaded : loadTypes workspace job.input = .ok elements)
  (chosen : selectTypes elements job.typeNames = .ok selected)

include loaded chosen

/-- A run that has selected its elements delivers what they contribute. -/
theorem run_eq : ∃ processed,
    (∀ written, job.summary processed written = job.summaryOf selected written) ∧
      job.source (processed.filterMap Processed.result?) = job.sourceOf selected ∧
      job.run workspace = { job.deliver processed workspace with
        said := job.opening selected ++ (job.deliver processed workspace).said } := by
  obtain ⟨processed, all, summary, source⟩ := job.summarized selected
  refine ⟨processed, summary, source, ?_⟩
  simp only [run, loaded, chosen, process, all]
  rfl

theorem run_printed (unnamed : job.output.path? = none) :
    job.run workspace =
      ⟨job.opening selected ++ [.out (job.sourceOf selected),
        job.progress (job.summaryOf selected none).text], workspace,
        .ok (if (job.summaryOf selected none).failures = [] then 0 else 1)⟩ := by
  obtain ⟨processed, summary, source, runs⟩ := run_eq loaded chosen
  simp [runs, deliver, unnamed, source, summary]

theorem run_saved (named : job.output.path? = some path)
    (saves : workspace.save path (job.sourceOf selected) = (changed, .ok result)) :
    job.run workspace =
      ⟨job.opening selected ++ [job.progress (job.summaryOf selected (some result)).text], changed,
        .ok (if (job.summaryOf selected (some result)).failures = [] then 0 else 1)⟩ := by
  obtain ⟨processed, summary, source, runs⟩ := run_eq loaded chosen
  simp [runs, deliver, named, source, saves, summary]

end

theorem progress_printed (unnamed : job.output.path? = none) (text : String) :
    job.progress text = .err text := by
  simp [progress, unnamed]

theorem progress_saved (named : job.output.path? = some path) (text : String) :
    job.progress text = .out text := by
  simp [progress, named]

/-- Nothing that is logged goes to standard output. -/
theorem filterMap_out?_logs (events : List Event) :
    (events.map Emission.log).filterMap Emission.out? = [] := by
  rw [List.filterMap_map]
  exact List.filterMap_eq_nil_iff.mpr fun event _ => rfl

theorem join_err?_logs (stamp : String) :
    Text.join "" (((selected.flatMap job.batchOptions.events).map Emission.log).filterMap
      (Emission.err? logging stamp)) = job.logText selected logging stamp := by
  rw [List.filterMap_map]
  rfl

section

variable (selected)

theorem progressText_eq : job.progressText selected =
    "Parsing: " ++ job.input.text ++ "\n" ++
      ("  Types: " ++ toString selected.length ++ " selected\n") := by
  simp only [progressText, String.append_assoc]

/-- Where the source is printed, the opening leaves standard output clean. -/
theorem stdout_opening_printed (unnamed : job.output.path? = none) :
    Text.join "" ((job.opening selected).filterMap Emission.out?) = "" := by
  rw [opening, Text.join_filterMap_append, filterMap_out?_logs]
  simp [progress_printed unnamed, Text.join_filterMap_cons, Emission.out?]

theorem stderr_opening_printed (unnamed : job.output.path? = none) (logging : Logging)
    (stamp : String) :
    Text.join "" ((job.opening selected).filterMap (Emission.err? logging stamp)) =
      job.progressText selected ++ job.logText selected logging stamp := by
  rw [opening, Text.join_filterMap_append, join_err?_logs, progressText_eq]
  simp only [progress_printed unnamed, Text.join_filterMap_cons, Emission.err?]
  simp

theorem stdout_opening_saved (named : job.output.path? = some path) :
    Text.join "" ((job.opening selected).filterMap Emission.out?) = job.progressText selected := by
  rw [opening, Text.join_filterMap_append, filterMap_out?_logs, progressText_eq]
  simp only [progress_saved named, Text.join_filterMap_cons, Emission.out?]
  simp

theorem stderr_opening_saved (named : job.output.path? = some path) (logging : Logging)
    (stamp : String) :
    Text.join "" ((job.opening selected).filterMap (Emission.err? logging stamp)) =
      job.logText selected logging stamp := by
  rw [opening, Text.join_filterMap_append, join_err?_logs]
  simp [progress_saved named, Text.join_filterMap_cons, Emission.err?]

end

theorem input_named (loaded : loadTypes workspace job.input = .ok elements)
    (filled : ∀ part ∈ job.input.parts, part ≠ "") : job.input.name ≠ "" := by
  obtain ⟨text, read, _⟩ := loadTypes_eq_ok_iff.mp loaded
  exact Path.name_ne_empty_of_read read filled

/-- In a run the source is never withheld for want of a name. -/
theorem sourceFor_input (loaded : loadTypes workspace job.input = .ok elements)
    (filled : ∀ part ∈ job.input.parts, part ≠ "") (results : List Derivation) :
    sourceFor job.input.name job.capabilities results = .ok (job.source results) :=
  map_checkSource_eq_ok_iff.mpr ⟨input_named loaded filled, rfl⟩

section

variable (loaded : loadTypes workspace job.input = .ok elements)
  (chosen : selectTypes elements job.typeNames = .ok selected)

include loaded chosen

theorem conserves_printed (unnamed : job.output.path? = none) :
    job.Conserves selected none workspace logging ⟨job.run workspace, some logging⟩ := by
  have runs := run_printed loaded chosen unnamed
  constructor
  case toAccounted => exact job.accounted selected none
  case named => exact input_named loaded
  case saved => simp [unnamed]
  case ending => rw [runs]
  case printed =>
    refine fun _ => ⟨rfl, by rw [runs], ?_, fun stamp => ?_⟩
    · rw [Outcome.stdout, runs, Text.join_filterMap_append, stdout_opening_printed selected unnamed,
        progress_printed unnamed, Text.join_filterMap_cons, Text.join_filterMap_cons]
      simp [Emission.out?]
    · rw [Outcome.stderr, runs, Text.join_filterMap_append, Option.getD_some,
        stderr_opening_printed selected unnamed, progress_printed unnamed,
        Text.join_filterMap_cons, Text.join_filterMap_cons]
      simp [Emission.err?]

theorem conserves_saved (named : job.output.path? = some path)
    (saves : workspace.save path (job.sourceOf selected) = (changed, .ok result)) :
    job.Conserves selected (some result) workspace logging ⟨job.run workspace, some logging⟩ := by
  have runs := run_saved loaded chosen named saves
  obtain ⟨readBack, counted⟩ := Workspace.read_of_save saves
  constructor
  case toAccounted => exact job.accounted selected (some result)
  case named => exact input_named loaded
  case printed => simp [named]
  case ending => rw [runs]
  case saved =>
    intro other same
    cases named.symm.trans same
    refine ⟨⟨result, rfl, counted⟩, by rw [runs]; exact readBack, ?_, fun stamp => ?_⟩
    · rw [Outcome.stdout, runs, Text.join_filterMap_append, stdout_opening_saved selected named,
        progress_saved named, Text.join_filterMap_cons]
      simp [Emission.out?]
    · rw [Outcome.stderr, runs, Text.join_filterMap_append, Option.getD_some,
        stderr_opening_saved selected named, progress_saved named, Text.join_filterMap_cons]
      simp [Emission.err?]

end

/-- Whatever is selected, and wherever the source goes, a run keeps account of all of it. -/
theorem run_conserves (job : GenerateJob) (workspace : Workspace) (logging : Logging)
    (loaded : loadTypes workspace job.input = .ok elements)
    (chosen : selectTypes elements job.typeNames = .ok selected)
    (writable : ∀ path, job.output.path? = some path → ∃ changed result,
      workspace.save path (job.sourceOf selected) = (changed, .ok result)) :
    ∃ written, job.Conserves selected written workspace logging
        ⟨job.run workspace, some logging⟩ ∧
      ∀ words arguments, parseCommandLine words = .ok arguments →
        arguments.check workspace = .ok ⟨.generate job, logging⟩ →
        DeriveBounds.run words workspace = ⟨job.run workspace, some logging⟩ := by
  have started : ∀ words arguments, parseCommandLine words = .ok arguments →
      arguments.check workspace = .ok ⟨.generate job, logging⟩ →
      DeriveBounds.run words workspace = ⟨job.run workspace, some logging⟩ := by
    intro words arguments parsed checked
    simp only [DeriveBounds.run, parsed, checked, Job.run]
  cases target : job.output.path? with
  | none => exact ⟨none, conserves_printed loaded chosen target, started⟩
  | some path =>
    obtain ⟨changed, result, saves⟩ := writable path target
    exact ⟨some result, conserves_saved loaded chosen target saves, started⟩

end GenerateJob

/-- A registry of a struct and of an element without a name, which is refused. -/
private def mixedDocument : String :=
  "<types><type name=\"A\" category=\"struct\"/><type/></types>"

private def mixedElements : List Element := [
  ⟨"type", [("name", "A"), ("category", "struct")], none, []⟩, ⟨"type", [], none, []⟩]

private def savingWorkspace (text : String) : Workspace := ⟨[], [(["t"], .file text)]⟩

private def savingJob : GenerateJob :=
  ⟨⟨"", ["t"]⟩, .path ⟨"", ["o"]⟩, [.debug], [], defaultPhantoms⟩

private theorem readDocument_mixedDocument :
    Xml.readDocument mixedDocument = .ok ⟨"types", [], none, mixedElements⟩ := by
  cbv

private theorem exists_save (text source : String) : ∃ changed result,
    (savingWorkspace text).save ⟨"", ["o"]⟩ source = (changed, .ok result) := by
  have made : (savingWorkspace text).ensureDirectories (Path.parent ⟨"", ["o"]⟩) =
      (savingWorkspace text, .ok ()) := by cbv
  have wrote : (savingWorkspace text).write ⟨"", ["o"]⟩ source =
      .ok (⟨[], [(["o"], .file source), (["t"], .file text)]⟩, ["o"]) := rfl
  simp only [Workspace.save, made, wrote]
  exact ⟨_, _, rfl⟩

theorem GenerateJob.run_conserves_sample :
    loadTypes (savingWorkspace mixedDocument) savingJob.input = .ok mixedElements ∧
    selectTypes mixedElements savingJob.typeNames = .ok mixedElements ∧
    (∀ path, savingJob.output.path? = some path → ∃ changed result,
      (savingWorkspace mixedDocument).save path (savingJob.sourceOf mixedElements) =
        (changed, .ok result)) ∧
    ∃ written, savingJob.Conserves mixedElements written (savingWorkspace mixedDocument) {}
        ⟨savingJob.run (savingWorkspace mixedDocument), some {}⟩ ∧
      ∀ words arguments, parseCommandLine words = .ok arguments →
        arguments.check (savingWorkspace mixedDocument) = .ok ⟨.generate savingJob, {}⟩ →
        DeriveBounds.run words (savingWorkspace mixedDocument) =
          ⟨savingJob.run (savingWorkspace mixedDocument), some {}⟩ := by
  have reads (text : String) : (savingWorkspace text).read savingJob.input = .ok text := rfl
  have loaded : loadTypes (savingWorkspace mixedDocument) savingJob.input = .ok mixedElements :=
    loadTypes_eq_ok_iff.mpr ⟨_, reads mixedDocument, _, readDocument_mixedDocument, rfl⟩
  have chosen : selectTypes mixedElements savingJob.typeNames = .ok mixedElements := rfl
  have writable : ∀ path, savingJob.output.path? = some path → ∃ changed result,
      (savingWorkspace mixedDocument).save path (savingJob.sourceOf mixedElements) =
        (changed, .ok result) := by
    intro path named
    cases named
    exact exists_save mixedDocument _
  exact ⟨loaded, chosen, writable,
    GenerateJob.run_conserves savingJob _ {} loaded chosen writable⟩

end DeriveBounds
