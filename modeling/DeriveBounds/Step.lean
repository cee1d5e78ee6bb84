/-!
One step of a reader: what was read and what remains, which is shorter than the source. A reader
built from steps ends on every input.
-/
namespace DeriveBounds

structure Step {τ : Type} (source : List τ) (α : Type) where
  value : α
  rest : List τ
  shorter : rest.length < source.length

namespace Step

variable {τ α β : Type} {source : List τ}

/-- A step over one item. -/
def one {item : τ} {rest : List τ} (value : α) : Step (item :: rest) α :=
  ⟨value, rest, Nat.lt_add_one _⟩

/-- A step over two items. -/
def two {item second : τ} {rest : List τ} (value : α) : Step (item :: second :: rest) α :=
  ⟨value, rest, Nat.lt_add_right 1 (Nat.lt_add_one _)⟩

/-- A step over three items. -/
def three {item second third : τ} {rest : List τ} (value : α) :
    Step (item :: second :: third :: rest) α :=
  ⟨value, rest, Nat.lt_add_right 2 (Nat.lt_add_one _)⟩

/-- The same step with its value changed. -/
def map (f : α → β) (step : Step source α) : Step source β :=
  ⟨f step.value, step.rest, step.shorter⟩

/-- A step taken after `before` is a step from where `before` began. -/
def after (before : Step source α) (step : Step before.rest β) : Step source β :=
  ⟨step.value, step.rest, Nat.lt_trans step.shorter before.shorter⟩

/-- A step taken behind one more item of the source. -/
def behind (item : τ) (step : Step source α) : Step (item :: source) α :=
  ⟨step.value, step.rest, Nat.lt_succ_of_lt step.shorter⟩

/-- The longest run of `p` behind a first item, which belongs to it in any case. -/
def span (p : τ → Bool) (first : τ) (rest : List τ) : Step (first :: rest) (List τ) :=
  ⟨first :: rest.takeWhile p, rest.dropWhile p,
    Nat.lt_succ_of_le (List.dropWhile_suffix p).length_le⟩

end Step

/-- An optional part at the front of a source: its value, when it is there, and what follows it. -/
structure Optional {τ : Type} (source : List τ) (α : Type) where
  value : Option α
  rest : List τ
  bound : rest.length ≤ source.length

end DeriveBounds
