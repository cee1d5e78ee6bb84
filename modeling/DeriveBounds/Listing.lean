import DeriveBounds.Capability
import DeriveBounds.DeriveError
import DeriveBounds.Text.Layout

/-!
Tables of what can be derived and of the types in a registry.
-/
namespace DeriveBounds

def Capability.notes (capability : Capability) : List String :=
  (if capability.honorsSkip then ["honors skip"] else []) ++
  (if capability = .default then ["structs only"] else []) ++
  (if capability = .eq then ["reuses PartialEq bounds"] else [])

def capabilityRow (capability : Capability) : String :=
  "  " ++ Text.padRight 11 capability.name ++ Text.padRight 28 capability.traitPath ++
    Text.join ", " capability.notes

/-- The table of all capabilities. -/
def capabilitiesTable : String :=
  Text.join "\n" (["Capabilities:", ""] ++ Capability.all.map capabilityRow ++ [""])

def capabilityNames (capabilities : List Capability) : List String :=
  capabilities.map Capability.name

def typeRow (definition : Definition) : String :=
  "  " ++ Text.padRight 20 definition.name ++ Text.padRight 8 definition.shape.kind ++
    Text.padRight 16 (Text.joinOr "-" ", " (definition.params.map (·.name))) ++
    Text.padRight 14 definition.shape.size ++
    Text.joinOr "-" ", " (capabilityNames definition.derives)

def failureRow (failure : Failure) : String :=
  "  " ++ Text.padRight 20 failure.type ++ "error   [" ++ failure.code ++ "] " ++ failure.message

/-- The table of the types in a registry; those that cannot be read come last. -/
def typesTable (source : String) (definitions : List Definition) (failures : List Failure) :
    String :=
  let rows :=
    if definitions.isEmpty && failures.isEmpty then ["  (none)"]
    else definitions.map typeRow ++ failures.map failureRow
  Text.join "\n" (["Types in " ++ source ++ ":", ""] ++ rows ++ [""])

end DeriveBounds
