import DeriveBounds.Proofs.Token.Spelling
import DeriveBounds.Proofs.TypeExpr.Grammar

/-!
Trees that stand for types. A proper tree has names, lifetimes, constants and lengths that a text
can hold, each in its place; a well-formed one also hides no `mut` behind a shared reference.
-/
namespace DeriveBounds

/-- A text kept from tokens up to a closing mark: they are some, and single spaces part them. -/
def RawText (closing : Punct) (text : String) : Prop :=
  ∃ run, run ≠ [] ∧ (∀ token ∈ run, token.isFormed = true) ∧ RunForm closing [] run ∧
    text = runText run

inductive ConstText : String → Prop where
  | number (formed : (Token.number text).isFormed = true) : ConstText text
  | negative (formed : (Token.number text).isFormed = true) : ConstText ("-" ++ text)
  | block (raw : RawText .closeBrace text) : ConstText ("\x7b " ++ text ++ " \x7d")

def Segment.name : Segment → String
  | mk name _ => name

mutual

inductive TypeExpr.Proper : TypeExpr → Prop where
  | path (path : TypeExpr.ProperPath (.path leadingColon segments))
      (plain : leadingColon = false →
        ∀ segment, segments.head? = some segment → segment.name ∉ reservedWords) :
      TypeExpr.Proper (.path leadingColon segments)
  | qualified (self : TypeExpr.Proper type)
      (trait : ∀ path, named = some path → TypeExpr.ProperPath path) (filled : names ≠ [])
      (segments : ∀ name ∈ names, Segment.Proper name) :
      TypeExpr.Proper (.qualified type named names)
  | reference (lifetime : ∀ name, marked = some name → (Token.lifetime name).isFormed = true)
      (inner : TypeExpr.Proper type) : TypeExpr.Proper (.reference marked mutable type)
  | pointer (inner : TypeExpr.Proper type) : TypeExpr.Proper (.pointer mutable type)
  | tuple (elements : ∀ type ∈ types, TypeExpr.Proper type) : TypeExpr.Proper (.tuple types)
  | array (element : TypeExpr.Proper type)
      (length : ∀ text, size = some text → RawText .closeBracket text) :
      TypeExpr.Proper (.array type size)
  | function (params : ∀ type ∈ types, TypeExpr.Proper type)
      (output : ∀ type, result = some type → TypeExpr.Proper type) :
      TypeExpr.Proper (.fnPointer types result)

/-- A path, which a trait is: any identifiers may name it. -/
inductive TypeExpr.ProperPath : TypeExpr → Prop where
  | path (filled : names ≠ []) (segments : ∀ name ∈ names, Segment.Proper name) :
      TypeExpr.ProperPath (.path leadingColon names)

inductive Segment.Proper : Segment → Prop where
  | mk (named : isIdent name.toList = true) (args : ∀ type ∈ types, TypeExpr.ProperArg type) :
      Segment.Proper (.mk name types)

/-- Lifetimes and constants stand among generic arguments only. -/
inductive TypeExpr.ProperArg : TypeExpr → Prop where
  | lifetime (formed : (Token.lifetime name).isFormed = true) : TypeExpr.ProperArg (.lifetime name)
  | const (const : ConstText text) : TypeExpr.ProperArg (.const text)
  | type (type : TypeExpr.Proper expr) : TypeExpr.ProperArg expr

end

/-- A path whose text begins with `mut`. -/
def TypeExpr.beginsWithMut : TypeExpr → Bool
  | .path false (segment :: _) => segment.name = "mut"
  | _ => false

mutual

/-- How many shared references in a tree stand before a path that begins with `mut`. -/
def TypeExpr.hiddenMuts : TypeExpr → Nat
  | .path _ segments => hiddenInSegments segments
  | .qualified self trait segments =>
    self.hiddenMuts + (hiddenInOption trait + hiddenInSegments segments)
  | .reference _ mutable inner =>
    (if !mutable && inner.beginsWithMut then 1 else 0) + inner.hiddenMuts
  | .pointer _ inner => inner.hiddenMuts
  | .tuple elements => hiddenInTypes elements
  | .array element _ => element.hiddenMuts
  | .fnPointer params output => hiddenInTypes params + hiddenInOption output
  | .lifetime _ => 0
  | .const _ => 0
  | .foreign _ => 0

def Segment.hiddenMuts : Segment → Nat
  | .mk _ args => hiddenInTypes args

def hiddenInTypes : List TypeExpr → Nat
  | [] => 0
  | type :: rest => type.hiddenMuts + hiddenInTypes rest

def hiddenInSegments : List Segment → Nat
  | [] => 0
  | segment :: rest => segment.hiddenMuts + hiddenInSegments rest

def hiddenInOption : Option TypeExpr → Nat
  | none => 0
  | some type => type.hiddenMuts

end

theorem hiddenMuts_of_mem_types (bare : hiddenInTypes types = 0) (member : type ∈ types) :
    type.hiddenMuts = 0 := by
  induction types with
  | nil => cases member
  | cons first rest ih =>
    obtain ⟨firstBare, restBare⟩ := Nat.add_eq_zero_iff.mp bare
    rcases List.mem_cons.mp member with same | member
    · exact same ▸ firstBare
    · exact ih restBare member

theorem hiddenMuts_of_mem_segments {segment : Segment} (bare : hiddenInSegments segments = 0)
    (member : segment ∈ segments) : segment.hiddenMuts = 0 := by
  induction segments with
  | nil => cases member
  | cons first rest ih =>
    obtain ⟨firstBare, restBare⟩ := Nat.add_eq_zero_iff.mp bare
    rcases List.mem_cons.mp member with same | member
    · exact same ▸ firstBare
    · exact ih restBare member

theorem hiddenMuts_of_eq_some {type : TypeExpr} (bare : hiddenInOption option = 0)
    (same : option = some type) : type.hiddenMuts = 0 := by
  subst same
  exact bare

structure TypeExpr.WellFormed (type : TypeExpr) : Prop where
  proper : type.Proper
  bare : type.hiddenMuts = 0

end DeriveBounds
