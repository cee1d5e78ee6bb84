import DeriveBounds.SourceFile
import DeriveBounds.Written

/-!
The report of a run: a row for each type, and all failures.
-/
namespace DeriveBounds

structure TypeRow where
  name : String
  kind : String
  generated : List Capability
  failed : List Capability
  deriving DecidableEq, Repr

def TypeRow.ofResult (result : Derivation) : TypeRow where
  name := result.definition.name
  kind := result.definition.shape.kind
  generated := result.impls.map (·.capability)
  failed := result.failures.filterMap (·.capability)

structure Summary where
  source : String
  types : List TypeRow
  failures : List Failure
  written : Option Written
  deriving DecidableEq, Repr

namespace Summary

/-- Failures of whole types come before those of single capabilities. -/
def ofResults (source : String) (results : List Derivation) (typeFailures : List Failure)
    (written : Option Written) : Summary where
  source := source
  types := results.map TypeRow.ofResult
  failures := typeFailures ++ results.flatMap (·.failures)
  written := written

def outputLabel (summary : Summary) : String :=
  match summary.written with
  | some written => written.path
  | none => "<stdout>"

def total (summary : Summary) : Nat :=
  (summary.types.flatMap (·.generated)).length

/-- The types that were read, and the names under which others failed. -/
def typeCount (summary : Summary) : Nat :=
  let refused := summary.failures.filter (·.capability.isNone)
  summary.types.length + (refused.map (·.type)).eraseDups.length

def typeLine (row : TypeRow) : String :=
  let failed := row.failed.length
  "    " ++ Text.padRight 20 row.name ++ Text.padRight 8 row.kind ++
    Text.joinOr "-" ", " (capabilityNames row.generated) ++
    (if failed = 0 then "" else "  (" ++ toString failed ++ " failed)")

def failureLine (failure : Failure) : String :=
  let capability := (failure.capability.map Capability.name).getD "-"
  "    " ++ failure.type ++ ": " ++ capability ++ " [" ++ failure.code ++ "] " ++ failure.message

/-- A titled block of lines and an empty line; nothing where there are no lines. -/
def block (title : String) (lines : List String) : List String :=
  if lines.isEmpty then [] else title :: lines ++ [""]

def text (summary : Summary) : String :=
  let written := summary.written.toList.map fun written =>
    "  Written:    " ++ Text.grouped written.lineCount ++ " lines"
  Text.join "\n" (
    ["boundgen: " ++ toString summary.typeCount ++ " types processed", "",
      "  Source:     " ++ summary.source, "  Output:     " ++ summary.outputLabel] ++
    written ++ [""] ++
    block "  Types:" (summary.types.map typeLine) ++
    block "  Failures:" (summary.failures.map failureLine) ++
    ["  Total: " ++ toString summary.total ++ " impls generated, " ++
      toString summary.failures.length ++ " failed", ""])

end Summary

end DeriveBounds
