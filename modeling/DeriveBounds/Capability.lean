import DeriveBounds.Text.Blank

/-!
The capabilities that can be derived, in the order in which they are always listed.
-/
namespace DeriveBounds

inductive Capability
  | default | debug | clone | partialEq | eq
  deriving DecidableEq, Repr

namespace Capability

/-- All capabilities in canonical order. -/
def all : List Capability := [default, debug, clone, partialEq, eq]

def name : Capability → String
  | default => "Default"
  | debug => "Debug"
  | clone => "Clone"
  | partialEq => "PartialEq"
  | eq => "Eq"

def traitPath : Capability → String
  | default => "::core::default::Default"
  | debug => "::core::fmt::Debug"
  | clone => "::core::clone::Clone"
  | partialEq => "::core::cmp::PartialEq"
  | eq => "::core::cmp::Eq"

/-- A skipped field drops out of these capabilities; the others must still produce every field. -/
def honorsSkip : Capability → Bool
  | debug | partialEq | eq => true
  | default | clone => false

/-- The part of a reversed path that comes before its first `::`. -/
def lastSegmentReversed : List Char → List Char
  | ':' :: ':' :: _ => []
  | c :: rest => c :: lastSegmentReversed rest
  | [] => []

/-- The last segment of a path, in lower case. Capability names are plain ASCII, so letters of other
scripts need no folding. -/
def foldedName (path : String) : List Char :=
  (lastSegmentReversed (Text.strip path).toList.reverse).reverse.map Char.toLower

/-- The capability a name stands for: case, blanks around it and a leading path do not matter. -/
def ofName? (path : String) : Option Capability :=
  match String.ofList (foldedName path) with
  | "default" => some default
  | "debug" => some debug
  | "clone" => some clone
  | "partialeq" | "partial_eq" => some partialEq
  | "eq" => some eq
  | _ => none

/-- The requested capabilities, each once and in canonical order. -/
def ordered (requested : List Capability) : List Capability :=
  all.filter requested.contains

end Capability

end DeriveBounds
