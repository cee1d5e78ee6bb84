import DeriveBounds.Run
import Std.Time.DateTime

/-!
The command-line program: what a run may see is read from disk, and what it changed is written back.
-/
namespace DeriveBounds

/-- Whatever a path leads through, step by step. -/
def locationsAlong (location : Location) : List String → List Location
  | [] => []
  | part :: rest =>
    let next := if part = ".." then location.dropLast else location ++ [part]
    next :: locationsAlong next rest

/-- The paths a command line names. -/
def namedPaths (words : List String) : List Path :=
  match parseCommandLine words with
  | .ok arguments => arguments.input.path?.toList ++ arguments.output.path?.toList
  | .error _ => []

/-- Whether a path can be resolved. -/
def resolves (path : String) : IO Bool := do
  try
    let _ ← IO.FS.realPath path
    return true
  catch _ => return false

/-- What is on disk at a location. A file that is not UTF-8 reads as a single null character, with
which no document begins. -/
def entryOnDisk? (location : Location) : IO (Option Entry) := do
  if ← resolves (location.text ++ "/.") then return some .directory
  if ← resolves location.text then
    let bytes ← IO.FS.readBinFile location.text
    return some (.file ((String.fromUTF8? bytes).getD "\x00"))
  return none

/-- The part of the disk that some paths lead through. -/
def readWorkspace (home : Location) (paths : List Path) : IO Workspace := do
  let mut workspace := Workspace.empty home
  for path in paths do
    for location in locationsAlong (if path.isAbsolute then [] else home) path.parts do
      if let some entry ← entryOnDisk? location then
        workspace := workspace.put location entry
  return workspace

/-- The entries that were made or changed, oldest first. -/
def changedEntries (before after : Workspace) : List (Location × Entry) :=
  after.entries.reverse.filter fun (location, entry) => before.entryAt? location ≠ some entry

def writeEntry (location : Location) : Entry → IO Unit
  | .directory => IO.FS.createDirAll location.text
  | .file text => IO.FS.writeFile location.text text

/-- A time in UTC, down to the microsecond. -/
def timeText (time : Std.Time.PlainDateTime) : String :=
  let digits (width : Nat) (n : Int) : String :=
    let shown := toString n.natAbs
    String.ofList (List.replicate (width - shown.length) '0') ++ shown
  Text.join "-" [
      digits 4 time.date.year, digits 2 time.date.month.val, digits 2 time.date.day.val] ++
    "T" ++ Text.join ":" [
      digits 2 time.time.hour.val, digits 2 time.time.minute.val, digits 2 time.time.second.val] ++
    "." ++ digits 6 (time.time.nanosecond.val / 1000) ++ "Z"

def runOnDisk (words : List String) : IO UInt32 := do
  let home := (Path.ofString (toString (← IO.currentDir))).parts
  let before ← readWorkspace home (namedPaths words)
  let outcome := run words before
  for (location, entry) in changedEntries before outcome.workspace do
    writeEntry location entry
  let now := Std.Time.PlainDateTime.ofWallTime ((← Std.Time.Timestamp.now).toWallTime .zero)
  IO.eprint (outcome.stderr (timeText now))
  IO.print outcome.stdout
  match outcome.ending with
  | .ok exit => return exit.toUInt32
  | .error abort =>
    IO.eprintln abort.message
    return 1

end DeriveBounds

def main (words : List String) : IO UInt32 := do
  try
    DeriveBounds.runOnDisk words
  catch error =>
    IO.println ("Error: " ++ toString error)
    return 1
