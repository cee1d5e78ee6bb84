import DeriveBounds.Path
import DeriveBounds.Text.Quoted

/-!
The files and directories a run can see. A workspace is a value; writing gives another one.
-/
namespace DeriveBounds

/-- What can be wrong with a path: a null character, which no system takes, or what the system finds
on the way along it. -/
inductive FileProblem
  | missing | isDirectory | notDirectory | alreadyThere | nameTooLong | nullCharacter
  deriving DecidableEq, Repr

/-- The number and the words of the system. It never gets to see a null character. -/
def FileProblem.systemText? : FileProblem → Option String
  | missing => some "[Errno 2] No such file or directory"
  | isDirectory => some "[Errno 21] Is a directory"
  | notDirectory => some "[Errno 20] Not a directory"
  | alreadyThere => some "[Errno 17] File exists"
  | nameTooLong => some "[Errno 36] File name too long"
  | nullCharacter => none

/-- A file operation that failed, with the path it was given. -/
structure FileError where
  problem : FileProblem
  path : String
  deriving DecidableEq, Repr

def FileError.message (error : FileError) : String :=
  match error.problem.systemText? with
  | some text => text ++ ": " ++ Text.quoted error.path
  | none => "embedded null byte"

inductive Entry
  | directory
  | file (text : String)
  deriving DecidableEq, Repr

/-- The names from the root down to an entry. -/
abbrev Location := List String

/-- The absolute path of a location. -/
def Location.text (location : Location) : String :=
  "/" ++ Text.join "/" location

/-- The entries below the root; relative paths start at `home`, which is a directory. -/
structure Workspace where
  home : Location
  entries : List (Location × Entry)

namespace Workspace

def empty (home : Location) : Workspace := ⟨home, []⟩

def entryAt? (workspace : Workspace) (location : Location) : Option Entry :=
  if location.isPrefixOf workspace.home then some .directory
  else workspace.entries.lookup location

def put (workspace : Workspace) (location : Location) (entry : Entry) : Workspace :=
  { workspace with
    entries := (location, entry) :: workspace.entries.filter fun other => other.1 ≠ location }

/-- The most bytes one part of a path may have. -/
def longestName : Nat := 255

/-- The most bytes a path may have. -/
def longestPath : Nat := 4095

/-- Follows the parts of a path. Whatever has a part below it must be a directory; the last part
itself need not be there. A part is looked up only once everything before it is found. -/
def follow (workspace : Workspace) : Location → List String → Except FileProblem Location
  | location, [] => .ok location
  | location, part :: rest =>
    match workspace.entryAt? location with
    | none => .error .missing
    | some (.file _) => .error .notDirectory
    | some .directory =>
      if longestName < part.utf8ByteSize then .error .nameTooLong
      else workspace.follow (if part = ".." then location.dropLast else location ++ [part]) rest

/-- Where a path leads. Its text as a whole is checked before any part is looked up. -/
def locate (workspace : Workspace) (path : Path) : Except FileProblem Location :=
  if path.text.toList.contains '\x00' then .error .nullCharacter
  else if longestPath < path.text.utf8ByteSize then .error .nameTooLong
  else workspace.follow (if path.isAbsolute then [] else workspace.home) path.parts

def find? (workspace : Workspace) (path : Path) : Option Entry :=
  match workspace.locate path with
  | .ok location => workspace.entryAt? location
  | .error _ => none

/-- Whether a path leads to something. Too long a name does not tell. -/
def contains (workspace : Workspace) (path : Path) : Except FileError Bool :=
  match workspace.locate path with
  | .ok location => .ok (workspace.entryAt? location).isSome
  | .error .nameTooLong => .error ⟨.nameTooLong, path.text⟩
  | .error _ => .ok false

/-- The text of a file. -/
def read (workspace : Workspace) (path : Path) : Except FileError String :=
  match workspace.locate path with
  | .error problem => .error ⟨problem, path.text⟩
  | .ok location =>
    match workspace.entryAt? location with
    | none => .error ⟨.missing, path.text⟩
    | some .directory => .error ⟨.isDirectory, path.text⟩
    | some (.file text) => .ok text

/-- Makes one directory in another that is there already. -/
def makeDirectory (workspace : Workspace) (path : Path) : Except FileError Workspace :=
  match workspace.locate path with
  | .error problem => .error ⟨problem, path.text⟩
  | .ok location =>
    match workspace.entryAt? location with
    | some _ => .error ⟨.alreadyThere, path.text⟩
    | none => .ok (workspace.put location .directory)

/-- Makes one directory, unless there is one already. -/
def ensureDirectory (workspace : Workspace) (path : Path) : Except FileError Workspace :=
  match workspace.makeDirectory path with
  | .ok changed => .ok changed
  | .error error =>
    if error.problem ≠ .missing ∧ workspace.find? path = some .directory then .ok workspace
    else .error error

/-- Makes a directory and those above it, the outermost first. What was made stays where a later
one fails. -/
def ensureDirectories (workspace : Workspace) (path : Path) : Workspace × Except FileError Unit :=
  match workspace.ensureDirectory path with
  | .ok changed => (changed, .ok ())
  | .error error =>
    if inner : path.parts ≠ [] then
      have := path.parent_length_lt inner
      if error.problem = .missing then
        match workspace.ensureDirectories path.parent with
        | (changed, .error error) => (changed, .error error)
        | (changed, .ok ()) =>
          match changed.ensureDirectory path with
          | .ok finished => (finished, .ok ())
          | .error error => (changed, .error error)
      else (workspace, .error error)
    else (workspace, .error error)
termination_by path.parts.length

/-- Replaces the text of a file, or makes a new one. -/
def write (workspace : Workspace) (path : Path) (text : String) :
    Except FileError (Workspace × Location) :=
  match workspace.locate path with
  | .error problem => .error ⟨problem, path.text⟩
  | .ok location =>
    if workspace.entryAt? location = some .directory then .error ⟨.isDirectory, path.text⟩
    else .ok (workspace.put location (.file text), location)

/-- The files below `home`, by the path that leads there from `home`. -/
def files (workspace : Workspace) : List (String × String) :=
  workspace.entries.filterMap fun (location, entry) =>
    match entry with
    | .directory => none
    | .file text =>
      if workspace.home.isPrefixOf location then
        some (Text.join "/" (location.drop workspace.home.length), text)
      else none

end Workspace

end DeriveBounds
