import DeriveBounds.Workspace

/-!
Written output: where generated source went and how much of it there was.
-/
namespace DeriveBounds

/-- What was written, and where. -/
structure Written where
  path : String
  lineCount : Int
  byteCount : Int
  deriving DecidableEq, Repr

namespace Workspace

/-- Writes a text to a path and makes the directories above it. Directories that were made stay also
where the text cannot be written. -/
def save (workspace : Workspace) (path : Path) (text : String) :
    Workspace × Except FileError Written :=
  match workspace.ensureDirectories path.parent with
  | (prepared, .error error) => (prepared, .error error)
  | (prepared, .ok ()) =>
    match prepared.write path text with
    | .error error => (prepared, .error error)
    | .ok (changed, location) =>
      (changed, .ok ⟨location.text, text.toList.count '\n', text.utf8ByteSize⟩)

end Workspace

end DeriveBounds
