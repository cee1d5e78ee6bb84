import DeriveBounds.Text.Layout

/-!
Paths in normal form: no empty parts and no `.`; `..` is kept, for what it leads to depends on the
files.
-/
namespace DeriveBounds

/-- The root is empty for a relative path and one or two slashes for an absolute one. -/
structure Path where
  root : String
  parts : List String
  deriving DecidableEq, Repr

namespace Path

/-- Exactly two leading slashes are kept; more count as one. -/
def rootOf : List Char → String
  | ['/', '/'] => "//"
  | '/' :: '/' :: c :: _ => if c = '/' then "/" else "//"
  | '/' :: _ => "/"
  | _ => ""

def ofString (text : String) : Path where
  root := rootOf text.toList
  parts := (text.splitOn "/").filter fun part => part ≠ "" ∧ part ≠ "."

/-- The path as text; the relative path without parts is `.`. -/
def text (path : Path) : String :=
  let joined := path.root ++ Text.join "/" path.parts
  if joined = "" then "." else joined

/-- The last part; empty where there is none. -/
def name (path : Path) : String := path.parts.getLast?.getD ""

/-- The path without its last part. -/
def parent (path : Path) : Path := { path with parts := path.parts.dropLast }

theorem parent_length_lt (path : Path) (inner : path.parts ≠ []) :
    path.parent.parts.length < path.parts.length := by
  have := List.length_pos_iff.mpr inner
  simp only [parent, List.length_dropLast]
  omega

def isAbsolute (path : Path) : Bool := path.root ≠ ""

end Path

end DeriveBounds
