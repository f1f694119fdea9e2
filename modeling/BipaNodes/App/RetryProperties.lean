import BipaNodes.App.Retry

/-! Attempts of a retried operation start the capped powers of two apart, as
long as the counter that the warnings show stays within its type. -/

set_option autoImplicit false

namespace BipaNodes.App

theorem le_two_pow_of_large {attempt : Nat} (large : 64 ≤ attempt) : 30 ≤ 2 ^ attempt :=
  calc
    30 ≤ 2 ^ 64 := by decide
    _ ≤ 2 ^ attempt := Nat.pow_le_pow_right (by decide) large

theorem backoffDelay_eq (attempt : Nat) : backoffDelay attempt = min (2 ^ attempt) 30 := by
  unfold backoffDelay checkedShl maxBackoff
  split
  · rename_i narrow
    have fits : 1 * 2 ^ attempt < 2 ^ 64 := by
      rw [Nat.one_mul]
      exact Nat.pow_lt_pow_right (by decide) narrow
    rw [Nat.mod_eq_of_lt fits, Nat.one_mul, Option.getD_some]
  · rename_i wide
    have large := le_two_pow_of_large (Nat.le_of_not_lt wide)
    rw [Option.getD_none, Nat.min_eq_right large]
    decide

theorem backoffDelay_saturated (attempt : Nat) :
    backoffDelay (min attempt u32Max) = min (2 ^ attempt) 30 := by
  rcases Nat.le_total attempt u32Max with fits | large
  · rw [Nat.min_eq_left fits, backoffDelay_eq]
  · rw [Nat.min_eq_right large, backoffDelay_eq]
    have wide : 64 ≤ u32Max := by decide
    rw [Nat.min_eq_right (le_two_pow_of_large wide),
      Nat.min_eq_right (le_two_pow_of_large (Nat.le_trans wide large))]

theorem min_two_pow_mono (attempt : Nat) : min (2 ^ attempt) 30 ≤ min (2 ^ (attempt + 1)) 30 := by
  have grows : 2 ^ attempt ≤ 2 ^ (attempt + 1) := Nat.pow_le_pow_right (by decide) (by omega)
  omega

theorem saturatingAdd_min (count : Nat) :
    saturatingAdd (min count u32Max) 1 = min (count + 1) u32Max := by
  unfold saturatingAdd
  omega

/-!
## Pace
-/

variable {Value Error : Type}

/-- Each attempt after the first started the due delay after a transient
failure of the one before. -/
def Paced (isTransient : Error → Bool) (starts : List Nanos)
    (failures : List (Error × Nanos)) : Prop :=
  ∀ k start, starts[k + 1]? = some start →
    ∃ error failed, failures[k]? = some (error, failed) ∧ isTransient error = true ∧
      start = failed + Nanos.seconds (min (2 ^ k) 30)

namespace Paced

variable {isTransient : Error → Bool} {starts : List Nanos} {failures : List (Error × Nanos)}

theorem nil : Paced isTransient [] failures := by
  intro k start started
  simp at started

theorem fail (paced : Paced isTransient starts failures) (failure : Error × Nanos) :
    Paced isTransient starts (failures ++ [failure]) := by
  intro k start started
  obtain ⟨error, failed, found, transient, exact⟩ := paced k start started
  have inside : k < failures.length := (List.getElem?_eq_some_iff.mp found).1
  refine ⟨error, failed, ?_, transient, exact⟩
  rw [List.getElem?_append_left inside, found]

theorem start (paced : Paced isTransient starts failures)
    (lengths : starts.length = failures.length) {now : Nanos}
    (due : ∀ earlier error failed, failures = earlier ++ [(error, failed)] →
      isTransient error = true ∧
        now = failed + Nanos.seconds (min (2 ^ earlier.length) 30)) :
    Paced isTransient (starts ++ [now]) failures := by
  intro k start started
  rcases Nat.lt_or_ge (k + 1) starts.length with earlier | last
  · rw [List.getElem?_append_left earlier] at started
    exact paced k start started
  · have inside : k + 1 < (starts ++ [now]).length := (List.getElem?_eq_some_iff.mp started).1
    have position : k + 1 = starts.length := by
      rw [List.length_append, List.length_singleton] at inside
      omega
    rw [List.getElem?_append_right last, position, Nat.sub_self] at started
    obtain rfl : now = start := by simpa using started
    rcases List.eq_nil_or_concat failures with none | some
    · rw [lengths, none] at position
      cases position
    · obtain ⟨before, failure, split⟩ := some
      obtain ⟨error, failed⟩ := failure
      rw [List.concat_eq_append] at split
      obtain ⟨transient, exact⟩ := due before error failed split
      have size : before.length = k := by
        rw [lengths, split, List.length_append, List.length_singleton] at position
        omega
      refine ⟨error, failed, ?_, transient, ?_⟩
      · rw [split, List.getElem?_append_right (Nat.le_of_eq size), size, Nat.sub_self]
        rfl
      · rw [← size]
        exact exact

theorem delays_mono (paced : Paced isTransient starts failures)
    {k : Nat} {first second : Nanos} {failure next : Error × Nanos}
    (firstStart : starts[k + 1]? = some first) (secondStart : starts[k + 2]? = some second)
    (failed : failures[k]? = some failure) (failedNext : failures[k + 1]? = some next) :
    first - failure.2 ≤ second - next.2 := by
  obtain ⟨_, _, found, _, firstExact⟩ := paced k first firstStart
  obtain ⟨_, _, foundNext, _, secondExact⟩ := paced (k + 1) second secondStart
  rw [failed] at found
  rw [failedNext] at foundNext
  cases found
  cases foundNext
  have mono := Nat.mul_le_mul_right 1000000000 (min_two_pow_mono k)
  unfold Nanos.seconds at firstExact secondExact
  rw [firstExact, secondExact, Nat.add_sub_cancel_left, Nat.add_sub_cancel_left]
  exact mono

end Paced

/-!
## Invariant of the loop
-/

namespace RetryState

variable {isTransient : Error → Bool} {build : Build} {now : Nanos}
  {state next : RetryState Value Error}

/-- The last failure was transient and the instant `wake` ends its delay. -/
def DelayEnds (isTransient : Error → Bool) (failures : List (Error × Nanos))
    (wake : Nanos) : Prop :=
  ∀ earlier error failed, failures = earlier ++ [(error, failed)] →
    isTransient error = true ∧ wake = failed + Nanos.seconds (min (2 ^ earlier.length) 30)

def InPhase (isTransient : Error → Bool) (now : Nanos) (state : RetryState Value Error) : Prop :=
  match state.phase with
  | .attempt _ false =>
      state.starts.length = state.failures.length ∧ state.successes = [] ∧
        state.attempt = min state.failures.length u32Max ∧
        DelayEnds isTransient state.failures now
  | .attempt _ true =>
      state.starts.length = state.failures.length + 1 ∧ state.successes = [] ∧
        state.attempt = min state.failures.length u32Max
  | .sleep _ wake =>
      state.starts.length = state.failures.length ∧ state.successes = [] ∧
        state.failures ≠ [] ∧ state.attempt = min (state.failures.length - 1) u32Max ∧
        DelayEnds isTransient state.failures wake ∧ now ≤ wake
  | .returned (.ok none) => state.successes = []
  | .returned (.ok (some value)) => ∃ succeeded ≤ now, state.successes = [(value, succeeded)]
  | .returned (.error error) =>
      state.starts.length = state.failures.length ∧ state.successes = [] ∧
        isTransient error = false ∧ ∃ failed, state.failures.getLast? = some (error, failed)
  | .panicked => False

structure Invariant (isTransient : Error → Bool) (now : Nanos)
    (state : RetryState Value Error) : Prop where
  paced : Paced isTransient state.starts state.failures
  inPhase : InPhase isTransient now state
  not_overflowed : state.overflowed = false

theorem Invariant.initial : Invariant isTransient now ({} : RetryState Value Error) where
  paced := Paced.nil
  inPhase := by
    refine ⟨rfl, rfl, rfl, ?_⟩
    intro earlier error failed split
    simp at split
  not_overflowed := rfl

/-- The failure at hand is the one whose warning no longer fits a `u32`. -/
def WarningOverflows (build : Build) (isTransient : Error → Bool) (error : Error)
    (state : RetryState Value Error) : Prop :=
  build.warnEnabled = true ∧ isTransient error = true ∧ 2 ^ 32 ≤ state.failures.length + 1

theorem Invariant.attempt_eq (invariant : Invariant isTransient now state) {turn : Turn}
    {started : Bool} (phase : state.phase = .attempt turn started) :
    state.attempt = min state.failures.length u32Max ∧ state.successes = [] := by
  have inPhase := invariant.inPhase
  unfold InPhase at inPhase
  rw [phase] at inPhase
  cases started with
  | false => exact ⟨inPhase.2.2.1, inPhase.2.1⟩
  | true => exact ⟨inPhase.2.2, inPhase.2.1⟩

theorem Invariant.logOverflows_iff (invariant : Invariant isTransient now state) {turn : Turn}
    {started : Bool} (phase : state.phase = .attempt turn started) :
    state.logOverflows build = true ↔
      build.warnEnabled = true ∧ 2 ^ 32 ≤ state.failures.length + 1 := by
  rw [logOverflows, (invariant.attempt_eq phase).1, Bool.and_eq_true, decide_eq_true_iff]
  have bound : 2 ^ 32 ≤ min state.failures.length u32Max + 1 ↔
      2 ^ 32 ≤ state.failures.length + 1 := by
    unfold u32Max
    omega
  rw [bound]

theorem Invariant.pollToken (invariant : Invariant isTransient now state) {cancelled : Bool}
    (polled : state.pollToken cancelled = some next) : Invariant isTransient now next := by
  obtain ⟨paced, inPhase, notOverflowed⟩ := invariant
  unfold RetryState.pollToken at polled
  unfold InPhase at inPhase
  split at polled
  · rename_i started phase
    rw [phase] at inPhase
    split at polled
    · cases polled
      refine ⟨paced, ?_, notOverflowed⟩
      cases started with
      | false => exact inPhase.2.1
      | true => exact inPhase.2.1
    · cases polled
      refine ⟨paced, ?_, notOverflowed⟩
      cases started with
      | false => exact inPhase
      | true => exact inPhase
  · rename_i wake phase
    rw [phase] at inPhase
    split at polled
    · cases polled
      exact ⟨paced, inPhase.2.1, notOverflowed⟩
    · cases polled
      exact ⟨paced, inPhase, notOverflowed⟩
  · cases polled

/-- Only a poll of the token ends a call without a result. -/
theorem pollToken_returned_iff {cancelled : Bool}
    (polled : state.pollToken cancelled = some next) :
    next.phase = .returned (.ok none) ↔ cancelled = true := by
  unfold RetryState.pollToken at polled
  split at polled
  · split at polled <;> cases polled <;> simp [*]
  · split at polled <;> cases polled <;> simp [*]
  · cases polled

theorem pollToken_histories {cancelled : Bool}
    (polled : state.pollToken cancelled = some next) :
    next.starts = state.starts ∧ next.successes = state.successes := by
  unfold RetryState.pollToken at polled
  split at polled
  · split at polled <;> cases polled <;> exact ⟨rfl, rfl⟩
  · split at polled <;> cases polled <;> exact ⟨rfl, rfl⟩
  · cases polled

theorem pollTimer_frame (polled : state.pollTimer now = some next) :
    (∀ value, state.phase ≠ .returned (.ok value)) ∧
      (∀ value, next.phase ≠ .returned (.ok value)) ∧
      next.starts = state.starts ∧ next.successes = state.successes := by
  unfold RetryState.pollTimer at polled
  split at polled
  · rename_i wake phase
    split at polled <;> cases polled <;> simp [phase]
  · cases polled

theorem Invariant.pollTimer (invariant : Invariant isTransient now state)
    (polled : state.pollTimer now = some next) : Invariant isTransient now next := by
  obtain ⟨paced, inPhase, notOverflowed⟩ := invariant
  unfold RetryState.pollTimer at polled
  unfold InPhase at inPhase
  split at polled
  · rename_i wake phase
    rw [phase] at inPhase
    obtain ⟨lengths, noSuccess, failed, counter, delay, notLate⟩ := inPhase
    split at polled
    · rename_i fired
      obtain rfl : now = wake := Nat.le_antisymm notLate fired
      cases polled
      refine ⟨paced, ⟨lengths, noSuccess, ?_, delay⟩, notOverflowed⟩
      have positive : 0 < state.failures.length := List.length_pos_of_ne_nil failed
      rw [counter, saturatingAdd_min, Nat.sub_add_cancel positive]
    · cases polled
      exact ⟨paced, ⟨lengths, noSuccess, failed, counter, delay, notLate⟩, notOverflowed⟩
  · cases polled

theorem Invariant.started (invariant : Invariant isTransient now state) {turn : Turn}
    {started : Bool} (phase : state.phase = .attempt turn started) :
    Paced isTransient (if started then state.starts else state.starts ++ [now]) state.failures ∧
      (if started then state.starts else state.starts ++ [now]).length =
        state.failures.length + 1 := by
  have inPhase := invariant.inPhase
  unfold InPhase at inPhase
  rw [phase] at inPhase
  cases started with
  | false =>
      refine ⟨invariant.paced.start inPhase.1 inPhase.2.2.2, ?_⟩
      simp [inPhase.1]
  | true => exact ⟨invariant.paced, inPhase.1⟩

theorem delayEnds_concat {failures : List (Error × Nanos)} {error : Error} {failed : Nanos}
    (transient : isTransient error = true) :
    DelayEnds isTransient (failures ++ [(error, failed)])
      (failed + Nanos.seconds (min (2 ^ failures.length) 30)) := by
  intro earlier other otherFailed split
  obtain ⟨rfl, last⟩ := List.append_inj' split rfl
  cases last
  exact ⟨transient, rfl⟩

theorem pollOp_cases {ready : Option (Except Error Value)}
    (polled : state.pollOp build isTransient now ready = some next) :
    ∃ started, state.phase = .attempt .other started ∧
      (ready = none ∧
        next = { state with
          starts := if started then state.starts else state.starts ++ [now]
          phase := .attempt .token true } ∨
      (∃ value, ready = some (.ok value) ∧
        next = { state with
          starts := if started then state.starts else state.starts ++ [now]
          successes := state.successes ++ [(value, now)]
          phase := .returned (.ok (some value)) }) ∨
      ∃ error, ready = some (.error error) ∧
        next = fail build isTransient now error { state with
          starts := if started then state.starts else state.starts ++ [now] }) := by
  unfold RetryState.pollOp at polled
  split at polled
  · rename_i started phase
    refine ⟨started, phase, ?_⟩
    match ready with
    | none =>
        cases polled
        exact .inl ⟨rfl, rfl⟩
    | some (.ok value) =>
        cases polled
        exact .inr (.inl ⟨value, rfl, rfl⟩)
    | some (.error error) =>
        cases polled
        exact .inr (.inr ⟨error, rfl, rfl⟩)
  · cases polled

theorem fail_frame {error : Error} (state : RetryState Value Error) :
    (fail build isTransient now error state).phase ≠ .returned (.ok none) ∧
      (fail build isTransient now error state).starts = state.starts ∧
      (fail build isTransient now error state).successes = state.successes := by
  unfold fail
  split
  · refine ⟨?_, rfl, rfl⟩
    simp only
    split <;> simp
  · exact ⟨by simp, rfl, rfl⟩

theorem pollOp_phase {ready : Option (Except Error Value)}
    (polled : state.pollOp build isTransient now ready = some next) :
    state.phase ≠ .returned (.ok none) ∧ next.phase ≠ .returned (.ok none) := by
  obtain ⟨started, phase, result⟩ := pollOp_cases polled
  rw [phase]
  refine ⟨by simp, ?_⟩
  rcases result with pending | succeeded | failed
  · obtain ⟨_, rfl⟩ := pending
    simp
  · obtain ⟨value, _, rfl⟩ := succeeded
    simp
  · obtain ⟨error, _, rfl⟩ := failed
    exact (fail_frame _).1

theorem pollOp_starts {ready : Option (Except Error Value)}
    (polled : state.pollOp build isTransient now ready = some next) :
    ∀ start ∈ next.starts, start ∈ state.starts ∨ start = now := by
  obtain ⟨started, _, result⟩ := pollOp_cases polled
  have starts : next.starts = if started then state.starts else state.starts ++ [now] := by
    rcases result with pending | succeeded | failed
    · rw [pending.2]
    · obtain ⟨value, _, rfl⟩ := succeeded
      rfl
    · obtain ⟨error, _, rfl⟩ := failed
      rw [(fail_frame _).2.1]
  intro start member
  rw [starts] at member
  split at member
  · exact .inl member
  · simpa using member

theorem pollOp_successes {ready : Option (Except Error Value)}
    (polled : state.pollOp build isTransient now ready = some next) :
    ∀ success ∈ next.successes, success ∈ state.successes ∨ success.2 = now := by
  obtain ⟨started, _, result⟩ := pollOp_cases polled
  intro success member
  rcases result with pending | succeeded | failed
  · rw [pending.2] at member
    exact .inl member
  · obtain ⟨value, _, rfl⟩ := succeeded
    rcases List.mem_append.mp member with earlier | last
    · exact .inl earlier
    · rw [List.mem_singleton.mp last]
      exact .inr rfl
  · obtain ⟨error, _, rfl⟩ := failed
    rw [(fail_frame _).2.2] at member
    exact .inl member

theorem fail_of_permanent {error : Error} {starts : List Nanos}
    (permanent : isTransient error = false) :
    fail build isTransient now error { state with starts := starts } =
      { state with
        starts := starts
        failures := state.failures ++ [(error, now)]
        phase := .returned (.error error) } := by
  simp [fail, permanent]

theorem fail_of_quiet {error : Error} {starts : List Nanos}
    (transient : isTransient error = true) (quiet : state.logOverflows build = false) :
    fail build isTransient now error { state with starts := starts } =
      { state with
        starts := starts
        failures := state.failures ++ [(error, now)]
        phase := .sleep .token (now + Nanos.seconds (backoffDelay state.attempt)) } := by
  have quietStarted : logOverflows build { state with starts := starts } = false := quiet
  simp [fail, transient, quietStarted]

theorem Invariant.pollOp (invariant : Invariant isTransient now state)
    {ready : Option (Except Error Value)}
    (safe : ∀ error, ready = some (.error error) →
      ¬ WarningOverflows build isTransient error state)
    (polled : state.pollOp build isTransient now ready = some next) :
    Invariant isTransient now next := by
  obtain ⟨started, phase, result⟩ := pollOp_cases polled
  obtain ⟨paced, lengths⟩ := invariant.started phase
  obtain ⟨counter, noSuccess⟩ := invariant.attempt_eq phase
  rcases result with pending | succeeded | failed
  · obtain ⟨_, rfl⟩ := pending
    exact ⟨paced, ⟨lengths, noSuccess, counter⟩, invariant.not_overflowed⟩
  · obtain ⟨value, _, rfl⟩ := succeeded
    refine ⟨paced, ⟨now, Nat.le_refl now, ?_⟩, invariant.not_overflowed⟩
    simp [noSuccess]
  · obtain ⟨error, arrived, rfl⟩ := failed
    cases transient : isTransient error with
    | true =>
        have quiet : state.logOverflows build = false := by
          rw [← Bool.not_eq_true, invariant.logOverflows_iff phase]
          intro overflows
          exact safe error arrived ⟨overflows.1, transient, overflows.2⟩
        rw [fail_of_quiet transient quiet]
        refine ⟨paced.fail (error, now), ⟨?_, noSuccess, ?_, ?_, ?_, ?_⟩,
          invariant.not_overflowed⟩
        · rw [lengths, List.length_append, List.length_singleton]
        · exact List.append_ne_nil_of_right_ne_nil _ (List.cons_ne_nil _ _)
        · simp [counter]
        · rw [counter, backoffDelay_saturated]
          exact delayEnds_concat transient
        · exact Nat.le_add_right _ _
    | false =>
        rw [fail_of_permanent transient]
        refine ⟨paced.fail (error, now), ⟨?_, noSuccess, transient, now, List.getLast?_concat⟩,
          invariant.not_overflowed⟩
        rw [lengths, List.length_append, List.length_singleton]

theorem Invariant.overflowed_of_warningOverflows (invariant : Invariant isTransient now state)
    {error : Error} (overflows : WarningOverflows build isTransient error state)
    (polled : state.pollOp build isTransient now (some (.error error)) = some next) :
    next.overflowed = true := by
  obtain ⟨started, phase, result⟩ := pollOp_cases polled
  rcases result with pending | succeeded | failed
  · cases pending.1
  · obtain ⟨value, impossible, _⟩ := succeeded
    cases impossible
  · obtain ⟨other, arrived, rfl⟩ := failed
    cases arrived
    have log : state.logOverflows build = true :=
      (invariant.logOverflows_iff phase).mpr ⟨overflows.1, overflows.2.2⟩
    have logStarted : ∀ starts,
        logOverflows build { state with starts := starts } = true := fun _ => log
    simp [fail, overflows.2.1, logStarted]

theorem Invariant.elapse (invariant : Invariant isTransient now state) {duration : Nanos}
    (waits : state.mayElapse now duration = true) :
    Invariant isTransient (now + duration) state := by
  obtain ⟨paced, inPhase, notOverflowed⟩ := invariant
  refine ⟨paced, ?_, notOverflowed⟩
  unfold mayElapse at waits
  unfold InPhase at inPhase ⊢
  split at waits
  · rename_i started phase
    subst waits
    rw [phase] at inPhase ⊢
    exact inPhase
  · rename_i wake phase
    rw [phase] at inPhase ⊢
    obtain ⟨lengths, noSuccess, failed, counter, delay, _⟩ := inPhase
    exact ⟨lengths, noSuccess, failed, counter, delay, of_decide_eq_true waits⟩
  · cases waits

/-- A call that has returned, or not begun, does not notice time passing. -/
theorem Invariant.elapse_idle (invariant : Invariant isTransient now state) {duration : Nanos}
    (idle : state = {} ∨ ∃ result, state.phase = .returned result) :
    Invariant isTransient (now + duration) state := by
  rcases idle with fresh | returned
  · rw [fresh]
    exact Invariant.initial
  · obtain ⟨result, phase⟩ := returned
    obtain ⟨paced, inPhase, notOverflowed⟩ := invariant
    refine ⟨paced, ?_, notOverflowed⟩
    unfold InPhase at inPhase ⊢
    rw [phase] at inPhase ⊢
    match result with
    | .ok none => exact inPhase
    | .ok (some value) =>
        obtain ⟨succeeded, past, once⟩ := inPhase
        exact ⟨succeeded, Nat.le_trans past (Nat.le_add_right now duration), once⟩
    | .error error => exact inPhase

/-!
## What a call of `retry` guarantees
-/

structure Obeys (isTransient : Error → Bool) (state : RetryState Value Error) : Prop where
  paced : Paced isTransient state.starts state.failures
  delays_mono : ∀ k first second failure next,
    state.starts[k + 1]? = some first → state.starts[k + 2]? = some second →
    state.failures[k]? = some failure → state.failures[k + 1]? = some next →
    first - failure.2 ≤ second - next.2
  /-- An error is the last attempt's and permanent. -/
  error_last : ∀ error, state.phase = .returned (.error error) →
    isTransient error = false ∧ state.starts.length = state.failures.length ∧
      ∃ failed, state.failures.getLast? = some (error, failed)
  value_once : ∀ value, state.phase = .returned (.ok (some value)) →
    ∃ succeeded, state.successes = [(value, succeeded)]
  not_overflowed : state.overflowed = false
  not_panicked : state.phase ≠ .panicked

theorem Invariant.value_once (invariant : Invariant isTransient now state) {value : Value}
    (phase : state.phase = .returned (.ok (some value))) :
    ∃ succeeded ≤ now, state.successes = [(value, succeeded)] := by
  have inPhase := invariant.inPhase
  unfold InPhase at inPhase
  rw [phase] at inPhase
  exact inPhase

theorem Invariant.not_panicked (invariant : Invariant isTransient now state) :
    state.phase ≠ .panicked := by
  intro phase
  have inPhase := invariant.inPhase
  unfold InPhase at inPhase
  rw [phase] at inPhase
  exact inPhase

theorem Invariant.obeys (invariant : Invariant isTransient now state) :
    Obeys isTransient state where
  paced := invariant.paced
  delays_mono := fun _ _ _ _ _ => invariant.paced.delays_mono
  error_last := by
    intro error phase
    have inPhase := invariant.inPhase
    unfold InPhase at inPhase
    rw [phase] at inPhase
    exact ⟨inPhase.2.2.1, inPhase.1, inPhase.2.2.2⟩
  value_once := by
    intro value phase
    obtain ⟨succeeded, _, once⟩ := invariant.value_once phase
    exact ⟨succeeded, once⟩
  not_overflowed := invariant.not_overflowed
  not_panicked := invariant.not_panicked

end RetryState

end BipaNodes.App
