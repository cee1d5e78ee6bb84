import DeriveBounds.Derive
import DeriveBounds.Listing

/-!
The generated source: a header, then every impl behind an empty line.
-/
namespace DeriveBounds

def headerBorder : String := "// x-------------------------------------------x //"

/-- The header names the registry and the capabilities derived for every type, if any were asked
for. -/
def fileHeader (source : String) (capabilities : List Capability) : List String := [
  headerBorder,
  "// | Generated by boundgen",
  "// | Source: " ++ source,
  "// | Capabilities: " ++ Text.joinOr "per type" ", " (capabilityNames capabilities),
  headerBorder]

/-- Why nothing is generated: the registry has no name for the header. -/
inductive SourceError
  | unnamed
  deriving DecidableEq, Repr

def SourceError.message : SourceError → String
  | unnamed => "source must not be empty"

def checkSource (source : String) : Except SourceError String :=
  if source = "" then .error .unnamed else .ok source

/-- What is made of the name is made exactly where there is one. -/
theorem map_checkSource_eq_ok_iff {source : String} {make : String → α} {result : α} :
    (checkSource source).map make = .ok result ↔ source ≠ "" ∧ make source = result := by
  unfold checkSource
  split
  · rename_i unnamed
    simp [unnamed, Except.map]
  · rename_i named
    simp [named, Except.map]

/-- The header of a registry that has a name. -/
def headerFor (source : String) (capabilities : List Capability) :
    Except SourceError (List String) :=
  (checkSource source).map (fileHeader · capabilities)

def Derivation.rendered (result : Derivation) : List String :=
  result.impls.map (ImplItem.render result.definition)

/-- The whole generated source; it ends with exactly one line feed. -/
def assemble (source : String) (capabilities : List Capability) (results : List Derivation) :
    String :=
  let items := results.flatMap fun result => result.rendered.flatMap fun item => ["", item]
  Text.join "\n" (fileHeader source capabilities ++ items) ++ "\n"

/-- The generated source of a registry that has a name. -/
def sourceFor (source : String) (capabilities : List Capability) (results : List Derivation) :
    Except SourceError String :=
  (checkSource source).map (assemble · capabilities results)

end DeriveBounds
