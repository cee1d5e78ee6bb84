/-!
Codes that errors are reported under. A report under a name that no code has is refused.
-/
namespace DeriveBounds

/-- A name that no code of its kind has. -/
structure UnknownCode where
  kind : String
  name : String
  deriving DecidableEq, Repr

def UnknownCode.message (unknown : UnknownCode) : String :=
  "Unknown " ++ unknown.kind ++ " error code: " ++ unknown.name

/-- The code with this name, among those of a kind. -/
def codeNamed (kind : String) (ofName? : String → Option α) (name : String) :
    Except UnknownCode α :=
  match ofName? name with
  | some code => .ok code
  | none => .error ⟨kind, name⟩

/-- A report is accepted where the name is that of a code, and is about that code. -/
theorem map_codeNamed_eq_ok_iff {kind name : String} {ofName? : String → Option α} {report : α → β}
    {result : β} : (codeNamed kind ofName? name).map report = .ok result ↔
      ∃ code, ofName? name = some code ∧ report code = result := by
  unfold codeNamed
  cases ofName? name with
  | none => exact ⟨nofun, nofun⟩
  | some code => simp [Except.map]

end DeriveBounds
