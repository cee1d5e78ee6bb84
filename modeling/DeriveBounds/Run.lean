import DeriveBounds.Batch
import DeriveBounds.CommandLine
import DeriveBounds.Summary

/-!
Whole runs: from the words of a command line and the files to what is printed, what is written and
the exit code.
-/
namespace DeriveBounds

/-- One thing said in a run, on standard output, on standard error or in the log. -/
inductive Emission
  | out (text : String)
  | err (text : String)
  | log (event : Event)

namespace Emission

def out? : Emission → Option String
  | out text => some text
  | _ => none

/-- Log lines share standard error with other texts. -/
def err? (logging : Logging) (stamp : String) : Emission → Option String
  | out _ => none
  | err text => some text
  | log event => if logging.shows event then some (logging.line stamp event) else none

end Emission

/-- What breaks a run off: a tree that stands for no type, or a path that cannot be used. -/
inductive Abort
  | malformed (tree : MalformedTree)
  | unusable (fault : PathFault)
  deriving DecidableEq, Repr

def Abort.message : Abort → String
  | malformed tree => tree.message
  | unusable fault => fault.message

/-- What was said in a job, in order, the files it leaves behind, and its exit code unless it was
broken off. -/
structure Report where
  said : List Emission
  workspace : Workspace
  ending : Except Abort Nat

namespace GenerateJob

variable (job : GenerateJob)

/-- Progress goes to standard error where standard output carries the generated source. -/
def progress (text : String) : Emission :=
  if job.output.path?.isSome then .out text else .err text

/-- Without forced capabilities every type derives those it declares. -/
def batchOptions : BatchOptions where
  capabilities := if job.capabilities.isEmpty then none else some job.capabilities
  phantoms := job.phantoms

def source (results : List Derivation) : String :=
  assemble job.input.name job.capabilities results

def summary (processed : List Processed) (written : Option Written) : Summary :=
  .ofResults job.input.name (processed.filterMap Processed.result?)
    (processed.filterMap Processed.failure?) written

/-- Where the source cannot be written the job fails; a path with a null character breaks it off. -/
def unwritten (error : FileError) (workspace : Workspace) : Report :=
  if error.problem = .nullCharacter then ⟨[], workspace, .error (.unusable (.file error))⟩
  else ⟨[.out ("Error: " ++ error.message ++ "\n")], workspace, .ok 1⟩

/-- Delivers the source and reports on it. A run with failures exits with 1. -/
def deliver (processed : List Processed) (workspace : Workspace) : Report :=
  let source := job.source (processed.filterMap Processed.result?)
  let finish (delivered : List Emission) (workspace : Workspace) (written : Option Written) :=
    let summary := job.summary processed written
    Report.mk (delivered ++ [job.progress summary.text]) workspace
      (.ok (if summary.failures.isEmpty then 0 else 1))
  match job.output.path? with
  | none => finish [.out source] workspace none
  | some path =>
    match workspace.save path source with
    | (changed, .ok written) => finish [] changed (some written)
    | (changed, .error error) => unwritten error changed

/-- Derives the selected elements and delivers what they come to. -/
def process (elements : List Xml.Element) (workspace : Workspace) :
    Except MalformedTree Report := do
  let processed ← job.batchOptions.processAll elements
  let report := job.deliver processed workspace
  let selected := job.progress ("  Types: " ++ toString elements.length ++ " selected\n")
  let events := elements.flatMap job.batchOptions.events
  return { report with said := selected :: events.map .log ++ report.said }

def run (workspace : Workspace) : Report :=
  let parsing := job.progress ("Parsing: " ++ job.input.text ++ "\n")
  let stop (text : String) : Report := ⟨[parsing, .out text], workspace, .ok 1⟩
  match loadTypes workspace job.input with
  | .error error => stop ("Error: " ++ error.message ++ "\n")
  | .ok elements =>
    match selectTypes elements job.typeNames with
    | .error error => stop error.text
    | .ok selected =>
      match job.process selected workspace with
      | .error tree => ⟨[parsing], workspace, .error (.malformed tree)⟩
      | .ok report => { report with said := parsing :: report.said }

end GenerateJob

/-- Lists the types of a registry; those that cannot be read appear with the reason. -/
def Report.ofTypes (input : Path) (workspace : Workspace) : Report :=
  match loadTypes workspace input with
  | .error error => ⟨[.out ("Error: " ++ error.message ++ "\n")], workspace, .ok 1⟩
  | .ok elements =>
    let definitions := definitionsOf elements
    let table := typesTable input.name definitions (failuresOf elements)
    ⟨definitions.map (fun definition => .log (.classified definition)) ++ [.out table], workspace,
      .ok 0⟩

def Job.run (workspace : Workspace) : Job → Report
  | .listCapabilities => ⟨[.out capabilitiesTable], workspace, .ok 0⟩
  | .listTypes input => .ofTypes input workspace
  | .generate job => job.run workspace

namespace CommandStop

/-- Misuse is answered with the usage and the reason. -/
def answer : CommandStop → Emission
  | help => .out helpText
  | misuse error => .err (usage ++ "boundgen: error: " ++ error.message ++ "\n")

/-- Help is no failure. -/
def exit : CommandStop → Nat
  | help => 0
  | misuse _ => 2

end CommandStop

/-- The report of a run, and how it logs once its arguments are accepted. -/
structure Outcome extends Report where
  logging : Option Logging

namespace Outcome

def stdout (outcome : Outcome) : String :=
  Text.join "" (outcome.said.filterMap Emission.out?)

/-- Standard error, each log line bearing a time stamp. -/
def stderr (outcome : Outcome) (stamp : String) : String :=
  Text.join "" (outcome.said.filterMap (Emission.err? (outcome.logging.getD {}) stamp))

end Outcome

/-- A run with the given words on the given files. -/
def run (words : List String) (workspace : Workspace) : Outcome :=
  match parseCommandLine words with
  | .error stop => ⟨⟨[stop.answer], workspace, .ok stop.exit⟩, none⟩
  | .ok arguments =>
    match arguments.check workspace with
    | .error (.refused error) => ⟨⟨[.out error.text], workspace, .ok 1⟩, none⟩
    | .error (.unusable fault) => ⟨⟨[], workspace, .error (.unusable fault)⟩, none⟩
    | .ok config => ⟨config.job.run workspace, some config.logging⟩

end DeriveBounds
