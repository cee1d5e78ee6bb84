import DeriveBounds.Proofs.Outcome
import DeriveBounds.Proofs.TypeExpr.Grammar

/-!
What it is for a reader to read a value and leave a rest, and the readers that stop at a mark of
their own: they take the run before that mark whatever stands behind it.
-/
namespace DeriveBounds

/-- The outcome is this value, with this rest of the source behind it. -/
def Reads {source : List τ} (outcome : Except TypeFault (Step source α)) (value : α)
    (rest : List τ) : Prop :=
  ∃ step, outcome = .ok step ∧ step.value = value ∧ step.rest = rest

/-- The outcome is this optional part, with this rest of the source behind it. -/
def Finds {source : List τ} (outcome : Except TypeFault (Optional source α)) (value : Option α)
    (rest : List τ) : Prop :=
  ∃ found, outcome = .ok found ∧ found.value = value ∧ found.rest = rest

section

variable {source rest : List τ} {outcome : Except TypeFault (Step source α)}

theorem Reads.shorter (reads : Reads outcome value rest) : rest.length < source.length := by
  obtain ⟨step, _, _, left⟩ := reads
  subst left
  exact step.shorter

/-- A reader takes at least one item, so what it reads begins where its source begins. -/
theorem Reads.head?_append {items : List τ} {outcome : Except TypeFault (Step (items ++ rest) α)}
    (reads : Reads outcome value rest) : (items ++ rest).head? = items.head? := by
  cases items with
  | nil => exact absurd reads.shorter (by simp)
  | cons item items => rfl

theorem Reads.unique (reads : Reads outcome value rest) (again : Reads outcome value' rest') :
    value = value' ∧ rest = rest' := by
  obtain ⟨step, same, valued, left⟩ := reads
  obtain ⟨step', same', valued', left'⟩ := again
  rw [same] at same'
  cases same'
  exact ⟨valued.symm.trans valued', left.symm.trans left'⟩

theorem Finds.bound {outcome : Except TypeFault (Optional source α)}
    (finds : Finds outcome value rest) : rest.length ≤ source.length := by
  obtain ⟨found, _, _, left⟩ := finds
  subst left
  exact found.bound

@[simp] theorem reads_error_iff :
    Reads (.error fault : Except TypeFault (Step source α)) value rest ↔ False := by
  simp [Reads]

@[simp] theorem reads_ok_iff {step : Step source α} :
    Reads (.ok step) value rest ↔ step.value = value ∧ step.rest = rest := by
  simp [Reads]

@[simp] theorem reads_pure_iff {step : Step source α} :
    Reads (pure step) value rest ↔ step.value = value ∧ step.rest = rest := by
  simp [Reads]

theorem reads_bind_iff {first : Except TypeFault β} {next : β → Except TypeFault (Step source α)} :
    Reads (first >>= next) value rest ↔
      ∃ step, first = .ok step ∧ Reads (next step) value rest := by
  simp only [Reads, bind_eq_ok_iff]
  constructor
  · intro parts
    obtain ⟨step, ⟨result, same, then'⟩, read⟩ := parts
    exact ⟨result, same, step, then', read⟩
  · intro parts
    obtain ⟨result, same, step, then', read⟩ := parts
    exact ⟨step, ⟨result, same, then'⟩, read⟩

theorem Reads.bind {inside after : List τ} {first : Except TypeFault (Step inside β)}
    {next : Step inside β → Except TypeFault (Step source α)} (reads : Reads first before after)
    (others : ∀ step, step.value = before → step.rest = after → Reads (next step) value rest) :
    Reads (first >>= next) value rest := by
  obtain ⟨step, same, valued, left⟩ := reads
  exact reads_bind_iff.mpr ⟨step, same, others step valued left⟩

theorem Finds.bind {inside after : List τ} {first : Except TypeFault (Optional inside β)}
    {next : Optional inside β → Except TypeFault (Step source α)} (finds : Finds first before after)
    (others : ∀ found, found.value = before → found.rest = after → Reads (next found) value rest) :
    Reads (first >>= next) value rest := by
  obtain ⟨found, same, valued, left⟩ := finds
  exact reads_bind_iff.mpr ⟨found, same, others found valued left⟩

end

variable {source rest run : List Token} {mark closing : Punct} {closers : List Punct}

theorem reads_readMark_iff :
    Reads (readMark mark source) () rest ↔ source = .punct mark :: rest := by
  cases source with
  | nil => simp [readMark]
  | cons token tail =>
    by_cases same : token = .punct mark <;> simp [readMark, same, Step.one]

theorem reads_readRun_cons : Reads (readRun closing closers (token :: source)) run rest ↔
    closers = [] ∧ token = .punct closing ∧ run = [] ∧ source = rest ∨
      ¬(closers = [] ∧ token = .punct closing) ∧ ∃ tail, run = token :: tail ∧
        Reads (readRun closing (expectedClosers closers token) source) tail rest := by
  rw [readRun]
  split
  · rename_i ends
    simp [ends, Step.one, eq_comm]
  · rename_i inside
    cases found : readRun closing (expectedClosers closers token) source with
    | error fault =>
      simp only [reads_error_iff, and_false, exists_false, or_false, false_iff]
      intro parts
      obtain ⟨ends, same, _⟩ := parts
      exact inside ⟨ends, same⟩
    | ok step =>
      simp only [reads_ok_iff, Step.behind, Step.map]
      constructor
      · intro parts
        obtain ⟨same, left⟩ := parts
        exact .inr ⟨inside, step.value, same.symm, rfl, left⟩
      · intro either
        rcases either with ⟨ends, same, _⟩ | ⟨_, tail, same, value, left⟩
        · exact absurd ⟨ends, same⟩ inside
        · exact ⟨by rw [same, value], left⟩

theorem expectedClosers_of_opens (opens : token.closer? = some closer) :
    expectedClosers closers token = closer :: closers := by
  cases token with
  | punct mark =>
    have known : mark.closer? = some closer := opens
    simp [expectedClosers, known]
  | _ => cases opens

theorem expectedClosers_of_closes {closer : Punct} (closes : closer.closer? = none) :
    expectedClosers (closer :: closers) (.punct closer) = closers := by
  simp [expectedClosers, closes]

theorem expectedClosers_of_plain (opens : token.closer? = none)
    (unexpected : ∀ closer, closers.head? = some closer → token ≠ .punct closer) :
    expectedClosers closers token = closers := by
  cases token with
  | punct mark =>
    have known : mark.closer? = none := opens
    cases closers with
    | nil => simp [expectedClosers, known]
    | cons top below =>
      have different : mark ≠ top := fun same => unexpected top rfl (congrArg _ same)
      simp [expectedClosers, known, different]
  | _ => rfl

theorem closer?_eq_none_of_opens {token : Token} {closer : Punct}
    (opens : token.closer? = some closer) : closer.closer? = none := by
  cases token with
  | punct opening => cases opening <;> cases opens <;> rfl
  | _ => cases opens

theorem readRun_sound (reads : Reads (readRun closing closers source) run rest) :
    source = run ++ .punct closing :: rest ∧ RunForm closing closers run := by
  induction source generalizing closers run with
  | nil => simp [readRun] at reads
  | cons token source ih =>
    rcases reads_readRun_cons.mp reads with ⟨ends, same, empty, left⟩ | ⟨inside, tail, same, after⟩
    · subst ends same empty left
      exact ⟨rfl, .done⟩
    · subst same
      obtain ⟨left, form⟩ := ih after
      subst left
      refine ⟨rfl, ?_⟩
      cases opens : token.closer? with
      | some closer =>
        rw [expectedClosers_of_opens opens] at form
        exact .opened opens form
      | none =>
        by_cases expected : ∃ closer, closers.head? = some closer ∧ token = .punct closer
        · obtain ⟨closer, head, same⟩ := expected
          obtain ⟨below, split⟩ := List.head?_eq_some_iff.mp head
          subst same split
          rw [expectedClosers_of_closes opens] at form
          exact .closed form
        · have unexpected : ∀ closer, closers.head? = some closer → token ≠ .punct closer :=
            fun closer head same => expected ⟨closer, head, same⟩
          rw [expectedClosers_of_plain opens unexpected] at form
          exact .plain opens unexpected (fun ends same => inside ⟨ends, same⟩) form

/-- A run is read whole: no mark in it is taken for the closing one. -/
theorem readRun_complete (form : RunForm closing closers run) (outer : closing.closer? = none)
    (inner : ∀ closer ∈ closers, closer.closer? = none) :
    Reads (readRun closing closers (run ++ .punct closing :: rest)) run rest := by
  induction form with
  | done => exact reads_readRun_cons.mpr (.inl ⟨rfl, rfl, rfl, rfl⟩)
  | opened opens form ih =>
    refine reads_readRun_cons.mpr (.inr ⟨?_, _, rfl, ?_⟩)
    · intro parts
      obtain ⟨_, same⟩ := parts
      subst same
      exact absurd (opens.symm.trans outer) (by simp)
    · rw [expectedClosers_of_opens opens]
      exact ih (List.forall_mem_cons.mpr ⟨closer?_eq_none_of_opens opens, inner⟩)
  | closed form ih =>
    refine reads_readRun_cons.mpr (.inr ⟨?_, _, rfl, ?_⟩)
    · simp
    · rw [expectedClosers_of_closes (inner _ List.mem_cons_self)]
      exact ih (fun closer member => inner closer (List.mem_cons_of_mem _ member))
  | plain opens unexpected inside form ih =>
    refine reads_readRun_cons.mpr (.inr ⟨fun ends => inside ends.1 ends.2, _, rfl, ?_⟩)
    rw [expectedClosers_of_plain opens unexpected]
    exact ih inner

theorem readRunText_sound (reads : Reads (readRunText closing source) text rest) :
    ∃ run, source = run ++ .punct closing :: rest ∧ RunForm closing [] run ∧ run ≠ [] ∧
      text = runText run := by
  unfold readRunText at reads
  split at reads
  · simp at reads
  · rename_i step same
    split at reads
    · simp at reads
    · rename_i filled
      obtain ⟨text, left⟩ := reads_ok_iff.mp reads
      obtain ⟨whole, form⟩ := readRun_sound ⟨step, same, rfl, left⟩
      exact ⟨step.value, whole, form, filled, text.symm⟩

/-- Reading up to a closing mark takes the run before that mark, and no other. -/
theorem reads_readRunText_iff (outer : closing.closer? = none) :
    Reads (readRunText closing source) text rest ↔ ∃ run, source = run ++ .punct closing :: rest ∧
      RunForm closing [] run ∧ run ≠ [] ∧ text = runText run := by
  constructor
  · exact readRunText_sound
  · intro parts
    obtain ⟨run, whole, form, filled, text⟩ := parts
    subst whole text
    have reads : Reads (readRun closing [] (run ++ .punct closing :: rest)) run rest :=
      readRun_complete form outer (by simp)
    obtain ⟨step, same, value, left⟩ := reads
    simp [readRunText, same, value, left, filled, Step.map, runText]

theorem reads_readLength_iff : Reads (readLength source) length rest ↔
    ∃ tokens, source = tokens ++ .punct .closeBracket :: rest ∧ LengthForm tokens length := by
  constructor
  · intro reads
    unfold readLength at reads
    split at reads
    · obtain ⟨step, same, read⟩ := reads_bind_iff.mp reads
      obtain ⟨value, left⟩ := reads_pure_iff.mp read
      obtain ⟨run, whole, form, filled, text⟩ :=
        (reads_readRunText_iff rfl).mp ⟨step, same, rfl, left⟩
      subst whole value
      simp only [Step.behind, Step.map, text]
      exact ⟨_, rfl, .present form filled⟩
    · obtain ⟨step, same, read⟩ := reads_bind_iff.mp reads
      obtain ⟨value, left⟩ := reads_pure_iff.mp read
      subst value
      exact ⟨[], reads_readMark_iff.mp ⟨step, same, rfl, left⟩, .absent⟩
  · intro parts
    obtain ⟨tokens, whole, form⟩ := parts
    subst whole
    cases form with
    | absent =>
      simp [readLength, readMark, Step.one, bind, Except.bind, Step.map]
    | @present run form filled =>
      have reads : Reads (readRunText .closeBracket (run ++ .punct .closeBracket :: rest))
          (runText run) rest := (reads_readRunText_iff rfl).mpr ⟨run, rfl, form, filled, rfl⟩
      obtain ⟨step, same, value, left⟩ := reads
      simp [readLength, same, value, left, bind, Except.bind, Step.behind, Step.map]

end DeriveBounds
