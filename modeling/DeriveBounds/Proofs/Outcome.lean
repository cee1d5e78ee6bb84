/-!
Outcomes that may fail: when a sequence of steps succeeds, every step in it has succeeded, and when
it fails, it fails as one of its steps may.
-/
namespace DeriveBounds

variable {ε : Type u} {ε' : Type u'} {α β : Type v}

theorem bind_eq_ok_iff {first : Except ε α} {next : α → Except ε β} {result : β} :
    (first >>= next) = .ok result ↔ ∃ value, first = .ok value ∧ next value = .ok result := by
  cases first <;> simp [bind, Except.bind]

@[simp] theorem pure_eq_ok_iff {value result : α} :
    (pure value : Except ε α) = .ok result ↔ value = result := by
  simp [pure, Except.pure]

@[simp] theorem throw_ne_ok {error : ε} {result : α} :
    (throw error : Except ε α) ≠ .ok result := by
  simp [throw, throwThe, MonadExceptOf.throw]

@[simp] theorem mapError_eq_ok_iff {outcome : Except ε α} {change : ε → ε'} {result : α} :
    outcome.mapError change = .ok result ↔ outcome = .ok result := by
  cases outcome with
  | error found => exact ⟨nofun, nofun⟩
  | ok value =>
    constructor
    all_goals
      intro same
      cases same
      rfl

theorem map_bind_eq {γ : Type v} {first : Except ε α} {next : α → Except ε β} {change : β → γ} :
    (first >>= next).map change = first >>= fun value => (next value).map change := by
  cases first <;> rfl

theorem bind_map_eq {γ : Type v} {outcome : Except ε α} {next : β → Except ε γ}
    {change : α → β} :
    outcome.map change >>= next = outcome >>= fun value => next (change value) := by
  cases outcome <;> rfl

/-- Whatever error an outcome has is of one kind. -/
def FailsOnly (kind : ε → Prop) (outcome : Except ε α) : Prop :=
  ∀ error, outcome = .error error → kind error

namespace FailsOnly

variable {kind : ε → Prop} {value : α} {error : ε}

theorem of_ok : FailsOnly kind (.ok value : Except ε α) := nofun

theorem of_error (holds : kind error) : FailsOnly kind (.error error : Except ε α) := by
  intro other same
  cases same
  exact holds

theorem of_pure : FailsOnly kind (pure value : Except ε α) := of_ok

theorem of_throw (holds : kind error) : FailsOnly kind (throw error : Except ε α) :=
  of_error holds

/-- What comes behind an error does not matter. -/
theorem of_throw_bind {next : α → Except ε β} (holds : kind error) :
    FailsOnly kind ((throw error : Except ε α) >>= next) :=
  of_error holds

theorem of_bind {first : Except ε α} {next : α → Except ε β} (head : FailsOnly kind first)
    (tail : ∀ value, FailsOnly kind (next value)) : FailsOnly kind (first >>= next) := by
  cases first with
  | error error => exact of_error (head error rfl)
  | ok value => exact tail value

theorem of_map {outcome : Except ε α} {change : α → β} (fails : FailsOnly kind outcome) :
    FailsOnly kind (change <$> outcome) :=
  of_bind fails fun _ => of_pure

theorem of_mapError {outcome : Except ε' α} {change : ε' → ε}
    (holds : ∀ error, kind (change error)) : FailsOnly kind (outcome.mapError change) := by
  cases outcome with
  | error error => exact of_error (holds error)
  | ok value => exact of_ok

theorem mono {other : ε → Prop} {outcome : Except ε α} (fails : FailsOnly kind outcome)
    (wider : ∀ error, kind error → other error) : FailsOnly other outcome :=
  fun error same => wider error (fails error same)

end FailsOnly

end DeriveBounds
