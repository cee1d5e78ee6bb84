import Mathlib
import DeriveBounds.Proofs.TypeExpr.Mention

/-!
The search of a tree against a flat scan of the tokens it was read from. The scan knows nothing of
types: it skips the raw runs behind `;` and `{`, and elsewhere takes each name that is not directly
behind `::`. Both find the same names, but for the four words that the grammar itself writes.
-/
namespace DeriveBounds

/-- Where a scan of tokens stands: among the tokens of types, or in a raw run up to a closing mark,
behind brackets that expect these closers. -/
inductive Zone
  | types
  | raw (closing : Punct) (closers : List Punct)
  deriving DecidableEq

/-- Among the tokens of types, `;` and `{` only begin an array length and a braced constant. -/
def Zone.next : Zone → Token → Zone
  | .types, .punct .semicolon => .raw .closeBracket []
  | .types, .punct .openBrace => .raw .closeBrace []
  | .types, _ => .types
  | .raw closing closers, token =>
    if closers = [] ∧ token = .punct closing then .types
    else .raw closing (expectedClosers closers token)

/-- The name occurs outside all raw runs and not directly behind `::`. -/
def StandsFree (name : String) (tokens : List Token) : Prop :=
  ∃ before after, tokens = before ++ .ident name :: after ∧
    before.getLast? ≠ some (.punct .pathSep) ∧ before.foldl Zone.next .types = .types

/-- The words that a form of a type may hold without naming anything by them. -/
def grammarWords : List String := ["fn", "mut", "const", "as"]

/-- A zone, and whether the token before it is `::`. -/
structure Spot where
  zone : Zone
  behind : Bool
  deriving DecidableEq

/-- The spot at which a name stands free. -/
def Spot.free : Spot := ⟨.types, false⟩

def Spot.next (spot : Spot) (token : Token) : Spot :=
  ⟨spot.zone.next token, token = .punct .pathSep⟩

theorem foldl_next (before : List Token) :
    before.foldl Spot.next .free =
      ⟨before.foldl Zone.next .types, before.getLast? = some (.punct .pathSep)⟩ := by
  induction before using List.reverseRecOn with
  | nil => rfl
  | append_singleton before token ih => simp [List.foldl_append, ih, Spot.next]

/-- Some token from a spot on is this name at a free spot. -/
def FreeFrom (name : String) (spot : Spot) : List Token → Prop
  | [] => False
  | token :: rest => (spot = .free ∧ token = .ident name) ∨ FreeFrom name (spot.next token) rest

theorem freeFrom_append : FreeFrom name spot (first ++ rest) ↔
    FreeFrom name spot first ∨ FreeFrom name (first.foldl Spot.next spot) rest := by
  induction first generalizing spot with
  | nil => simp [FreeFrom]
  | cons token first ih => simp [FreeFrom, ih, or_assoc]

theorem freeFrom_iff_exists : FreeFrom name spot tokens ↔
    ∃ before after, tokens = before ++ .ident name :: after ∧
      before.foldl Spot.next spot = .free := by
  constructor
  · intro found
    induction tokens generalizing spot with
    | nil => exact found.elim
    | cons token rest ih =>
      rcases found with ⟨free, same⟩ | found
      · exact ⟨[], rest, by rw [same]; rfl, free⟩
      · obtain ⟨before, after, same, free⟩ := ih found
        exact ⟨token :: before, after, by rw [same]; rfl, free⟩
  · intro parts
    obtain ⟨before, after, same, free⟩ := parts
    subst same
    exact freeFrom_append.mpr (.inr (.inl ⟨free, rfl⟩))

theorem freeFrom_free_iff : FreeFrom name .free tokens ↔ StandsFree name tokens := by
  have same (before : List Token) : before.foldl Spot.next .free = .free ↔
      before.getLast? ≠ some (.punct .pathSep) ∧ before.foldl Zone.next .types = .types := by
    rw [foldl_next, Spot.free, Spot.mk.injEq, decide_eq_false_iff_not, and_comm]
  simp only [freeFrom_iff_exists, same, StandsFree]

instance decidableFreeFrom (name : String) : (spot : Spot) → (tokens : List Token) →
    Decidable (FreeFrom name spot tokens)
  | _, [] => isFalse id
  | spot, token :: rest =>
    have := decidableFreeFrom name (spot.next token) rest
    inferInstanceAs (Decidable ((spot = .free ∧ token = .ident name) ∨
      FreeFrom name (spot.next token) rest))

instance (name : String) (tokens : List Token) : Decidable (StandsFree name tokens) :=
  decidable_of_iff _ freeFrom_free_iff

/-- A sweep over these tokens from a spot comes to a free spot, and finds the name in them exactly
if this holds. -/
structure Sweeps (name : String) (spot : Spot) (tokens : List Token) (found : Prop) : Prop where
  ends : tokens.foldl Spot.next spot = .free
  finds : FreeFrom name spot tokens ↔ found

namespace Sweeps

theorem nil : Sweeps name .free [] False :=
  ⟨rfl, Iff.rfl⟩

theorem append (first : Sweeps name spot before found) (rest : Sweeps name .free after found') :
    Sweeps name spot (before ++ after) (found ∨ found') where
  ends := by rw [List.foldl_append, first.ends, rest.ends]
  finds := by rw [freeFrom_append, first.ends, first.finds, rest.finds]

/-- A token that is not the name only moves the sweep. -/
theorem cons (moves : spot.next token = next) (other : spot = .free → token ≠ .ident name)
    (rest : Sweeps name next tokens found) : Sweeps name spot (token :: tokens) found where
  ends := by rw [List.foldl_cons, moves, rest.ends]
  finds := by
    have unnamed : ¬(spot = .free ∧ token = .ident name) := fun parts => other parts.1 parts.2
    simp only [FreeFrom, unnamed, false_or, moves, rest.finds]

theorem mark (mark : Punct) (moves : Spot.free.next (.punct mark) = next)
    (rest : Sweeps name next tokens found) : Sweeps name .free (.punct mark :: tokens) found :=
  cons moves (by simp) rest

/-- A word of the grammar is no name that is looked for. -/
theorem word (other : name ∉ grammarWords) (known : written ∈ grammarWords)
    (rest : Sweeps name .free tokens found) :
    Sweeps name .free (.ident written :: tokens) found := by
  refine cons rfl (fun _ same => other ?_) rest
  cases same
  exact known

/-- A name is found unless it stands behind `::`. -/
theorem ident (behind : Bool) (rest : Sweeps name .free tokens found) :
    Sweeps name ⟨.types, behind⟩ (.ident first :: tokens)
      ((behind = false ∧ first = name) ∨ found) where
  ends := rest.ends
  finds := by
    have after : FreeFrom name (Spot.next ⟨.types, behind⟩ (.ident first)) tokens ↔ found :=
      rest.finds
    simp [FreeFrom, Spot.free, after]

/-- A mark at the end of a part. -/
theorem snoc (first : Sweeps name spot tokens found) (mark : Punct)
    (moves : Spot.free.next (.punct mark) = .free) :
    Sweeps name spot (tokens ++ [.punct mark]) found := by
  simpa using first.append (.mark mark moves nil)

/-- A mark between two parts. -/
theorem between (first : Sweeps name spot before found) (mark : Punct)
    (moves : Spot.free.next (.punct mark) = next) (rest : Sweeps name next after found') :
    Sweeps name spot (before ++ .punct mark :: after) (found ∨ found') :=
  first.append (.mark mark moves rest)

theorem congr (sweeps : Sweeps name spot tokens found) (same : found ↔ found') :
    Sweeps name spot tokens found' :=
  ⟨sweeps.ends, sweeps.finds.trans same⟩

end Sweeps

/-- Inside a raw run a sweep only keeps account of the brackets. -/
theorem Sweeps.inRun (inside : ¬(closers = [] ∧ token = .punct closing))
    (expected : expectedClosers closers token = closers')
    (rest : ∀ behind, Sweeps name ⟨.raw closing closers', behind⟩ tokens found) :
    Sweeps name ⟨.raw closing closers, behind⟩ (token :: tokens) found :=
  .cons (by rw [Spot.next, Zone.next, if_neg inside, expected]) (by simp [Spot.free]) (rest _)

/-- Nothing is found in a raw run, and its closing mark ends it. -/
theorem RunForm.sweeps (form : RunForm closing closers run) (outer : closing.closer? = none)
    (inner : ∀ closer ∈ closers, closer.closer? = none) (mark : closing ≠ .pathSep)
    (behind : Bool) :
    Sweeps name ⟨.raw closing closers, behind⟩ (run ++ [.punct closing]) False := by
  induction form generalizing behind with
  | done => exact .cons (by simp [Spot.next, Zone.next, Spot.free, mark]) (by simp) .nil
  | opened opens form ih =>
    refine .inRun (fun parts => ?_) (expectedClosers_of_opens opens)
      (ih (List.forall_mem_cons.mpr ⟨closer?_eq_none_of_opens opens, inner⟩))
    rw [parts.2] at opens
    exact absurd (opens.symm.trans outer) (by simp)
  | closed form ih =>
    exact .inRun (by simp) (expectedClosers_of_closes (inner _ List.mem_cons_self))
      (ih fun closer member => inner closer (List.mem_cons_of_mem _ member))
  | plain opens unexpected inside form ih =>
    exact .inRun (fun ends => inside ends.1 ends.2) (expectedClosers_of_plain opens unexpected)
      (ih inner)

theorem LengthForm.sweeps (form : LengthForm tokens size) :
    Sweeps name .free (tokens ++ [.punct .closeBracket]) False := by
  cases form with
  | absent => exact .mark .closeBracket rfl .nil
  | present run filled => exact .mark .semicolon rfl (run.sweeps rfl (by simp) (by simp) false)

theorem sweeps_lifetimeMark (rest : Sweeps name .free tokens found) :
    Sweeps name .free (lifetimeMark lifetime ++ tokens) found := by
  cases lifetime with
  | none => exact rest
  | some lifetime => exact .cons rfl (by simp) rest

theorem sweeps_mutMark (other : name ∉ grammarWords) (rest : Sweeps name .free tokens found) :
    Sweeps name .free (mutMark mutable ++ tokens) found := by
  cases mutable with
  | false => exact rest
  | true => exact .word other (by decide) rest

/-- Without phantom markers the arguments of every segment count. -/
theorem pathHeads_nil (segments : List Segment) :
    pathHeads [] segments = segmentHeads [] segments := by
  induction segments with
  | nil => rfl
  | cons segment rest ih =>
    cases segment
    cases rest with
    | nil => simp [pathHeads, segmentHeads]
    | cons next rest => rw [pathHeads, segmentHeads, ih]; simp

/-- What segments mention: their first name, unless a `::` stands before it, and what the arguments
of each mention. -/
def SegmentsMention (name : String) (behind : Bool) (segments : List Segment) : Prop :=
  (behind = false ∧ segments.head?.map Segment.name = some name) ∨
    some name ∈ segmentHeads [] segments

theorem mem_heads_path_iff (behind : Bool) :
    some name ∈ (TypeExpr.path behind segments).heads [] ↔
      SegmentsMention name behind segments := by
  cases segments with
  | nil => simp [TypeExpr.heads, SegmentsMention, pathHead, pathHeads_nil]
  | cons first rest =>
    cases first
    cases behind <;>
      simp [TypeExpr.heads, SegmentsMention, pathHead, pathHeads_nil, Segment.name, eq_comm]

theorem segmentsMention_cons : SegmentsMention name behind (first :: rest) ↔
    SegmentsMention name behind [first] ∨ SegmentsMention name true rest := by
  cases first
  simp [SegmentsMention, segmentHeads, or_assoc]

mutual

/-- A sweep over a form of a type begins and ends at a free spot, so the parts of a form are swept
one by one, and of the names in a path only the first can be found. -/
theorem TypeForm.sweeps (form : TypeForm tokens type) (other : name ∉ grammarWords) :
    Sweeps name .free tokens (some name ∈ type.heads []) := by
  match form with
  | .reference inner unmarked =>
    exact .mark .ampersand rfl (sweeps_lifetimeMark (sweeps_mutMark other (inner.sweeps other)))
  | .pointer inner =>
    refine .mark .star rfl (.word other ?_ (inner.sweeps other))
    split <;> decide
  | .group inner => exact .mark .openParen rfl ((inner.sweeps other).snoc .closeParen rfl)
  | .tuple elements notGroup =>
    exact .mark .openParen rfl ((elements.sweeps other).snoc .closeParen rfl)
  | .array element length =>
    refine .mark .openBracket rfl (((element.sweeps other).append length.sweeps).congr ?_)
    rw [or_false, TypeExpr.heads]
  | .qualified self trait segments =>
    have path := Sweeps.mark .pathSep rfl (segments.sweeps other true)
    have parts := (self.sweeps other).append ((trait.sweeps other).between .greater rfl path)
    refine .mark .less rfl (parts.congr ?_)
    simp [TypeExpr.heads, SegmentsMention]
  | .function params output =>
    have parts := (params.sweeps other).between .closeParen rfl (output.sweeps other)
    refine .word other (by decide) (.mark .openParen rfl (parts.congr ?_))
    rw [TypeExpr.heads, List.mem_append]
  | .path path plain => exact path.sweeps other

theorem TypesForm.sweeps (form : TypesForm tokens types trailing) (other : name ∉ grammarWords) :
    Sweeps name .free tokens (some name ∈ typeHeads [] types) := by
  match form with
  | .none => exact Sweeps.nil.congr (by simp [typeHeads])
  | .last type => exact (type.sweeps other).congr (by simp [typeHeads])
  | .comma first others =>
    have parts := (first.sweeps other).between .comma rfl (others.sweeps other)
    exact parts.congr (by simp [typeHeads])

theorem TraitForm.sweeps (form : TraitForm tokens named) (other : name ∉ grammarWords) :
    Sweeps name .free tokens (some name ∈ optionHeads [] named) := by
  match form with
  | .absent => exact Sweeps.nil.congr (by simp [optionHeads])
  | .present path => exact .word other (by decide) (path.sweeps other)

theorem OutputForm.sweeps (form : OutputForm tokens result) (other : name ∉ grammarWords) :
    Sweeps name .free tokens (some name ∈ optionHeads [] result) := by
  match form with
  | .absent => exact Sweeps.nil.congr (by simp [optionHeads])
  | .present type => exact .mark .arrow rfl (type.sweeps other)

theorem PathForm.sweeps (form : PathForm tokens type) (other : name ∉ grammarWords) :
    Sweeps name .free tokens (some name ∈ type.heads []) := by
  match form with
  | .relative segments => exact (segments.sweeps other false).congr (mem_heads_path_iff false).symm
  | .absolute segments =>
    exact .mark .pathSep rfl ((segments.sweeps other true).congr (mem_heads_path_iff true).symm)

theorem SegmentsForm.sweeps (form : SegmentsForm tokens names) (other : name ∉ grammarWords)
    (behind : Bool) : Sweeps name ⟨.types, behind⟩ tokens (SegmentsMention name behind names) := by
  match form with
  | .last segment => exact segment.sweeps other behind
  | .more first others =>
    have parts := (first.sweeps other behind).between .pathSep rfl (others.sweeps other true)
    exact parts.congr segmentsMention_cons.symm

theorem SegmentForm.sweeps {segment : Segment} (form : SegmentForm tokens segment)
    (other : name ∉ grammarWords) (behind : Bool) :
    Sweeps name ⟨.types, behind⟩ tokens (SegmentsMention name behind [segment]) := by
  match form with
  | .plain =>
    exact (Sweeps.ident behind .nil).congr
      (by simp [SegmentsMention, Segment.name, segmentHeads, typeHeads])
  | .generic args =>
    have list := Sweeps.mark .less rfl ((args.sweeps other).snoc .greater rfl)
    exact (list.ident behind).congr (by simp [SegmentsMention, Segment.name, segmentHeads])

theorem ArgsForm.sweeps (form : ArgsForm tokens types) (other : name ∉ grammarWords) :
    Sweeps name .free tokens (some name ∈ typeHeads [] types) := by
  match form with
  | .none => exact Sweeps.nil.congr (by simp [typeHeads])
  | .last arg => exact (arg.sweeps other).congr (by simp [typeHeads])
  | .comma first others =>
    have parts := (first.sweeps other).between .comma rfl (others.sweeps other)
    exact parts.congr (by simp [typeHeads])

theorem ArgForm.sweeps (form : ArgForm tokens type) (other : name ∉ grammarWords) :
    Sweeps name .free tokens (some name ∈ type.heads []) := by
  match form with
  | .lifetime => exact (Sweeps.cons rfl (by simp) .nil).congr (by simp [TypeExpr.heads])
  | .number => exact (Sweeps.cons rfl (by simp) .nil).congr (by simp [TypeExpr.heads])
  | .negative =>
    exact (Sweeps.mark .minus rfl (.cons rfl (by simp) .nil)).congr (by simp [TypeExpr.heads])
  | .block run filled =>
    exact (Sweeps.mark .openBrace rfl (run.sweeps rfl (by simp) (by simp) false)).congr
      (by simp [TypeExpr.heads])
  | .type type => exact type.sweeps other

end

/-- The search of a tree that was read finds a name exactly if the flat scan of the tokens does, and
a search for several names finds those that are found when each is searched for alone. -/
theorem parseType_mentioned_iff (parsed : parseType text = .ok type) :
    (∃ tokens, tokenize text = .ok tokens ∧ ∀ name ∉ grammarWords,
      ∃ found, type.mentioned [] [name] = .ok found ∧ (name ∈ found ↔ StandsFree name tokens)) ∧
    ∀ phantoms names, ∃ found, type.mentioned phantoms names = .ok found ∧
      ∀ name, name ∈ found ↔ name ∈ names ∧
        ∃ single, type.mentioned phantoms [name] = .ok single ∧ name ∈ single := by
  have proper := parseType_proper parsed
  obtain ⟨tokens, tokenized, form⟩ := parseType_eq_ok_iff_form.mp parsed
  constructor
  · refine ⟨tokens, tokenized, fun name other => ⟨_, proper.mentioned [name], ?_⟩⟩
    have scanned : StandsFree name tokens ↔ some name ∈ type.heads [] :=
      freeFrom_free_iff.symm.trans (form.sweeps other).finds
    simp [scanned]
  · refine fun phantoms names => ⟨_, proper.mentioned names, fun name => ?_⟩
    have single : type.mentioned phantoms [name] = _ := proper.mentioned [name]
    simp [single]

/-- A projection out of an array whose length is a braced run, through an absolute argument. -/
private def projectedText : String :=
  "<[T; \x7b N; U \x7d] as Of<::V>>::Item"

private def projectedTree : TypeExpr :=
  .qualified (.array (.path false [.mk "T" []]) (some "\x7b N ; U \x7d"))
    (some (.path false [.mk "Of" [.path true [.mk "V" []]]])) [.mk "Item" []]

theorem parseType_mentioned_iff_sample : parseType projectedText = .ok projectedTree ∧
    (∃ tokens, tokenize projectedText = .ok tokens ∧ ∀ name ∉ grammarWords,
      ∃ found, projectedTree.mentioned [] [name] = .ok found ∧
        (name ∈ found ↔ StandsFree name tokens)) ∧
    ∀ phantoms names, ∃ found, projectedTree.mentioned phantoms names = .ok found ∧
      ∀ name, name ∈ found ↔ name ∈ names ∧
        ∃ single, projectedTree.mentioned phantoms [name] = .ok single ∧ name ∈ single := by
  have parsed : parseType projectedText = .ok projectedTree := by cbv
  exact ⟨parsed, parseType_mentioned_iff parsed⟩

example : ["T", "Of", "N", "U", "V", "Item"].filter (fun name => StandsFree name
    [.punct .less, .punct .openBracket, .ident "T", .punct .semicolon, .punct .openBrace,
      .ident "N", .punct .semicolon, .ident "U", .punct .closeBrace, .punct .closeBracket,
      .ident "as", .ident "Of", .punct .less, .punct .pathSep, .ident "V", .punct .greater,
      .punct .greater, .punct .pathSep, .ident "Item"]) = ["T", "Of"] := by
  decide

end DeriveBounds
