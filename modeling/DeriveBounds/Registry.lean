import DeriveBounds.ConfigError
import DeriveBounds.Workspace
import DeriveBounds.Xml.Document

/-!
Type registries: documents that hold type elements, in `types` or in a root around it.
-/
namespace DeriveBounds

open Xml (Element)

inductive LoadError
  | file (error : FileError)
  | document (error : Xml.DocumentError)
  deriving DecidableEq, Repr

def LoadError.message : LoadError → String
  | file error => error.message
  | document error => error.message

/-- The type elements of a registry, in document order. -/
def typeElements (root : Element) : List Element :=
  let holder := if root.tag = "types" then root else (root.childTagged? "types").getD root
  holder.childrenTagged "type"

def loadTypes (workspace : Workspace) (path : Path) : Except LoadError (List Element) := do
  let text ← (workspace.read path).mapError .file
  let root ← (Xml.readDocument text).mapError .document
  return typeElements root

/-- Names in order and without repetition. -/
def sortedNames (names : List String) : List String :=
  (names.mergeSort fun first second => !(second < first)).eraseDups

/-- The elements with one of the names, all where no names are given; every name must occur. -/
def selectTypes (elements : List Element) (names : List String) :
    Except ConfigError (List Element) :=
  if names.isEmpty then .ok elements
  else
    let available := elements.map (·.attribute? "name")
    let absent := sortedNames (names.filter fun name => !available.contains (some name))
    if absent.isEmpty then
      .ok (elements.filter fun element => (element.attribute? "name").any names.contains)
    else .error (.typesNotFound absent)

end DeriveBounds
