/-!
# Outcomes of computations that may fail

A computation that succeeds went through a success of each of its steps.  The lemmas of this
module take such computations apart, for failures alone and for failures with a state.
-/

namespace GameArchive
namespace Outcome

universe u v

section Failure

variable {ε : Type u} {α β : Type v}

@[simp] theorem ok_bind (value : α) (next : α → Except ε β) :
    (Except.ok value : Except ε α) >>= next = next value :=
  rfl

@[simp] theorem bind_eq_ok_iff {first : Except ε α} {next : α → Except ε β} {value : β} :
    first >>= next = .ok value ↔ ∃ middle, first = .ok middle ∧ next middle = .ok value := by
  cases first with
  | error failure =>
      constructor
      · intro succeeded
        cases succeeded
      · rintro ⟨middle, impossible, -⟩
        cases impossible
  | ok middle =>
      constructor
      · intro succeeded
        exact ⟨middle, rfl, succeeded⟩
      · rintro ⟨found, equal, succeeded⟩
        cases equal
        exact succeeded

theorem bind_eq_error_iff {first : Except ε α} {next : α → Except ε β} {failure : ε} :
    first >>= next = .error failure ↔
      first = .error failure ∨ ∃ middle, first = .ok middle ∧ next middle = .error failure := by
  cases first with
  | error found =>
      change Except.error found = _ ↔ _
      simp
  | ok middle => simp

@[simp] theorem pure_eq_ok_iff {value result : α} :
    (pure value : Except ε α) = .ok result ↔ value = result := by
  constructor
  · intro equal
    cases equal
    rfl
  · rintro rfl
    rfl

@[simp] theorem map_eq_ok_iff {first : Except ε α} {change : α → β} {value : β} :
    first.map change = .ok value ↔ ∃ middle, first = .ok middle ∧ change middle = value := by
  cases first <;> simp [Except.map]

/-- A value that is given under a condition. -/
theorem ite_eq_ok_iff {condition : Prop} [Decidable condition] {value result : α} {failure : ε} :
    (if condition then .ok value else .error failure : Except ε α) = .ok result ↔
      condition ∧ value = result := by
  by_cases holds : condition
  · rw [if_pos holds, Except.ok.injEq, and_iff_right holds]
  · rw [if_neg holds]
    exact ⟨nofun, fun given => absurd given.1 holds⟩

theorem exists_ok_of_isOk {outcome : Except ε α} (succeeded : outcome.isOk) :
    ∃ value, outcome = .ok value := by
  cases outcome with
  | error failure => cases succeeded
  | ok value => exact ⟨value, rfl⟩

theorem exists_ok_of_any {outcome : Except ε α} {test : α → Bool}
    (passed : outcome.toOption.any test) : ∃ value, outcome = .ok value ∧ test value := by
  cases outcome with
  | error failure => cases passed
  | ok value => exact ⟨value, rfl, passed⟩

/-- A list of steps that all succeed gives the list of what each of them must give. -/
theorem mapM_eq_ok {step : α → Except ε β} {result : α → β} {values : List α}
    {results : List β}
    (determined : ∀ value ∈ values, ∀ found, step value = .ok found → found = result value)
    (succeeded : values.mapM step = .ok results) :
    results = values.map result := by
  induction values generalizing results with
  | nil =>
      rw [List.mapM_nil, pure_eq_ok_iff] at succeeded
      exact succeeded.symm
  | cons value values ih =>
      rw [List.mapM_cons, bind_eq_ok_iff] at succeeded
      obtain ⟨found, first, others⟩ := succeeded
      rw [bind_eq_ok_iff] at others
      obtain ⟨rest, further, equal⟩ := others
      rw [pure_eq_ok_iff] at equal
      rw [← equal, List.map_cons, determined value (by simp) found first,
        ih (fun other member => determined other (by simp [member])) further]

theorem mapM_ok {step : α → Except ε β} {result : α → β} {values : List α}
    (each : ∀ value ∈ values, step value = .ok (result value)) :
    values.mapM step = .ok (values.map result) := by
  induction values with
  | nil => rfl
  | cons value values ih =>
      obtain ⟨first, others⟩ := List.forall_mem_cons.mp each
      rw [List.mapM_cons, first, ok_bind, ih others, ok_bind]
      rfl

/-- A list of steps that all succeed has no step that fails. -/
theorem exists_ok_of_mapM_eq_ok {step : α → Except ε β} {values : List α} {results : List β}
    (succeeded : values.mapM step = .ok results) {value : α} (member : value ∈ values) :
    ∃ found, step value = .ok found := by
  induction values generalizing results with
  | nil => cases member
  | cons head values ih =>
      rw [List.mapM_cons, bind_eq_ok_iff] at succeeded
      obtain ⟨found, first, others⟩ := succeeded
      rw [bind_eq_ok_iff] at others
      obtain ⟨rest, further, -⟩ := others
      rcases List.mem_cons.mp member with rfl | later
      · exact ⟨found, first⟩
      · exact ih further later

/-! ### What a computation fails with -/

/-- Every failure of the computation is an allowed one. -/
def FailsWith (allowed : ε → Prop) (outcome : Except ε α) : Prop :=
  ∀ failure, outcome = .error failure → allowed failure

variable {allowed : ε → Prop}

theorem FailsWith.ok (value : α) : FailsWith allowed (.ok value : Except ε α) :=
  nofun

theorem FailsWith.error {failure : ε} (admitted : allowed failure) :
    FailsWith allowed (.error failure : Except ε α) := by
  rintro _ ⟨⟩
  exact admitted

theorem FailsWith.bind {first : Except ε α} {next : α → Except ε β}
    (here : FailsWith allowed first)
    (further : ∀ value, first = .ok value → FailsWith allowed (next value)) :
    FailsWith allowed (first >>= next) := by
  cases outcome : first with
  | error failure => exact .error (here failure outcome)
  | ok value => exact further value outcome

theorem FailsWith.mapM {step : α → Except ε β} {values : List α}
    (each : ∀ value ∈ values, FailsWith allowed (step value)) :
    FailsWith allowed (values.mapM step) := by
  induction values with
  | nil => exact .ok []
  | cons value values ih =>
      rw [List.forall_mem_cons] at each
      rw [List.mapM_cons]
      exact each.1.bind fun _ _ => (ih each.2).bind fun _ _ => .ok _

end Failure

section State

variable {ε σ α β : Type u}

instance decidableEqResult [DecidableEq ε] [DecidableEq σ] [DecidableEq α] :
    DecidableEq (EStateM.Result ε σ α)
  | .ok value state, .ok other after =>
      decidable_of_iff (value = other ∧ state = after) (by rw [EStateM.Result.ok.injEq])
  | .error failure state, .error other after =>
      decidable_of_iff (failure = other ∧ state = after) (by rw [EStateM.Result.error.injEq])
  | .ok .., .error .. => isFalse nofun
  | .error .., .ok .. => isFalse nofun

/-- The state in which a computation ends. -/
def state : EStateM.Result ε σ α → σ
  | .ok _ after | .error _ after => after

/-- The value that a computation gives when it succeeds. -/
def value? : EStateM.Result ε σ α → Option α
  | .ok value _ => some value
  | .error .. => none

theorem exists_of_value?_eq_some {outcome : EStateM.Result ε σ α} {value : α}
    (succeeded : value? outcome = some value) : ∃ after, outcome = .ok value after := by
  cases outcome with
  | ok found after =>
      cases succeeded
      exact ⟨after, rfl⟩
  | error failure after => cases succeeded

/-- An outcome with another state. -/
def mapState (change : σ → σ) : EStateM.Result ε σ α → EStateM.Result ε σ α
  | .ok value after => .ok value (change after)
  | .error failure after => .error failure (change after)

theorem state_bind (first : EStateM ε σ α) (next : α → EStateM ε σ β) (before : σ) :
    (first >>= next) before =
      match first before with
      | .ok middle state => next middle state
      | .error failure state => .error failure state :=
  rfl

theorem state_map (change : α → β) (action : EStateM ε σ α) (before : σ) :
    (change <$> action) before =
      match action before with
      | .ok value after => .ok (change value) after
      | .error failure after => .error failure after := by
  change EStateM.map change action before = _
  unfold EStateM.map
  cases action before <;> rfl

@[simp] theorem get_bind (next : σ → EStateM ε σ β) (state : σ) :
    (get >>= next) state = next state state :=
  rfl

@[simp] theorem modify_bind (change : σ → σ) (next : PUnit → EStateM ε σ β) (state : σ) :
    (modify change >>= next) state = next ⟨⟩ (change state) :=
  rfl

theorem state_bind_eq_ok_iff {first : EStateM ε σ α} {next : α → EStateM ε σ β}
    {before after : σ} {value : β} :
    (first >>= next) before = .ok value after ↔
      ∃ middle state, first before = .ok middle state ∧ next middle state = .ok value after := by
  change EStateM.bind first next before = _ ↔ _
  unfold EStateM.bind
  cases first before with
  | error failure state =>
      constructor
      · intro succeeded
        cases succeeded
      · rintro ⟨middle, middleState, impossible, -⟩
        cases impossible
  | ok middle state =>
      constructor
      · intro succeeded
        exact ⟨middle, state, rfl, succeeded⟩
      · rintro ⟨found, foundState, equal, succeeded⟩
        cases equal
        exact succeeded

theorem state_bind_eq_error_iff {first : EStateM ε σ α} {next : α → EStateM ε σ β}
    {before after : σ} {failure : ε} :
    (first >>= next) before = .error failure after ↔
      first before = .error failure after ∨
        ∃ middle state, first before = .ok middle state ∧
          next middle state = .error failure after := by
  rw [state_bind]
  cases first before with
  | error found state => simp
  | ok middle state =>
      constructor
      · exact fun failed => .inr ⟨middle, state, rfl, failed⟩
      · rintro (impossible | ⟨found, foundState, equal, failed⟩)
        · cases impossible
        · cases equal
          exact failed

/-- What holds after a first step, and after each second step that can follow it. -/
theorem holds_state_bind {P : σ → Prop} {first : EStateM ε σ α} {next : α → EStateM ε σ β}
    {before : σ} (held : P (state (first before)))
    (kept : ∀ middle after, first before = .ok middle after → P after →
      P (state (next middle after))) :
    P (state ((first >>= next) before)) := by
  rw [state_bind]
  cases outcome : first before with
  | error failure after =>
      rw [outcome] at held
      exact held
  | ok middle after =>
      rw [outcome] at held
      exact kept middle after outcome held

end State

end Outcome
end GameArchive
