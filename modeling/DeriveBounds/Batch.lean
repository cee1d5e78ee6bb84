import DeriveBounds.Derive

/-!
Batches: the type elements of a registry, each derived or refused on its own.
-/
namespace DeriveBounds

open Xml (Element)

/-- What one element of a batch came to. -/
inductive Processed
  | derived (result : Derivation)
  | refused (failure : Failure)

namespace Processed

def result? : Processed → Option Derivation
  | derived result => some result
  | refused _ => none

def failure? : Processed → Option Failure
  | derived _ => none
  | refused failure => some failure

end Processed

/-- The capabilities that are forced on every type, if any, and the phantom markers. -/
structure BatchOptions where
  capabilities : Option (List Capability)
  phantoms : List String

namespace BatchOptions

variable (options : BatchOptions)

/-- An element that cannot be read is refused under the name it carries. -/
def process (element : Element) : Except MalformedTree Processed :=
  match classify element with
  | .error error => .ok (.refused (.ofError error (element.attribute? "name")))
  | .ok definition => do
    let requested := requestedFor definition options.capabilities
    return .derived (← derive definition requested options.phantoms)

/-- What each element of a batch comes to, in order. -/
def processAll : List Element → Except MalformedTree (List Processed)
  | [] => .ok []
  | element :: rest => do
    let first ← options.process element
    let others ← processAll rest
    return first :: others

/-- What the processing of an element logs. -/
def events (element : Element) : List Event :=
  match classify element with
  | .error error => [.typeFailed (element.attribute? "name") error]
  | .ok definition =>
    .classified definition ::
      deriveEvents definition (requestedFor definition options.capabilities) options.phantoms

end BatchOptions

/-- The definitions that elements stand for. -/
def definitionsOf (elements : List Element) : List Definition :=
  elements.filterMap fun element => (classify element).toOption

/-- Why the other elements stand for none. -/
def failuresOf (elements : List Element) : List Failure :=
  elements.filterMap fun element =>
    match classify element with
    | .error error => some (.ofError error (element.attribute? "name"))
    | .ok _ => none

end DeriveBounds
