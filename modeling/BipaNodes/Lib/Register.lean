import BipaNodes.Lib.Simulation
import Mathlib.Data.List.Induction
import Mathlib.Logic.Function.Basic

/-!
# An atomic register

One writer at a time and any number of readers. A write takes effect at one
instant between its begin and its end, if at all; a read is of one instant, too.
Writes are numbered as they begin.
-/

set_option autoImplicit false

namespace Register

/-- What has become of the write that began last. -/
inductive Writer where
  | resting
  | pending
  | applied
  deriving DecidableEq, Repr

/-- A read, with the writes that had taken effect at its instant. -/
inductive Reading (Value : Type) where
  | idle
  | sampled (log : List Nat)
  | answered (log : List Nat) (value : Value)
  | failed (log : List Nat)
  deriving DecidableEq, Repr

structure State (Reader Value : Type) where
  begun : Nat := 0
  writer : Writer := .resting
  /-- The writes that have taken effect, the latest last. -/
  log : List Nat := []
  readers : Reader → Reading Value := fun _ => .idle

inductive Action (Reader Value : Type) where
  | begin
  | apply
  | succeed
  /-- The writer gives up, be it before or after the write has taken effect. -/
  | abandon
  | sample (reader : Reader)
  | answer (reader : Reader) (value : Value)
  | fail (reader : Reader)

section

variable {Reader Value : Type}

/-- The value that a list of writes leaves behind. -/
def content (initial : Value) (plan : Nat → Value) (log : List Nat) : Value :=
  match log.getLast? with
  | none => initial
  | some number => plan number

/-- The reading is of the instant with this log. -/
def Reading.Of (log : List Nat) : Reading Value → Prop
  | .idle => False
  | .sampled own | .answered own _ | .failed own => own = log

theorem Reading.Of.log_eq {reading : Reading Value} {log own : List Nat} {value : Value}
    (ofLog : reading.Of log) (answered : reading = .answered own value) : own = log := by
  rw [answered] at ofLog
  exact ofLog

variable [DecidableEq Reader]

def State.setReader (state : State Reader Value) (reader : Reader) (reading : Reading Value) :
    State Reader Value :=
  { state with readers := Function.update state.readers reader reading }

variable [DecidableEq Value]

def machine (initial : Value) (plan : Nat → Value) :
    Machine (State Reader Value) (Action Reader Value) where
  step state
    | .begin =>
        match state.writer with
        | .resting => some { state with begun := state.begun + 1, writer := .pending }
        | _ => none
    | .apply =>
        match state.writer with
        | .pending =>
            some { state with log := state.log ++ [state.begun - 1], writer := .applied }
        | _ => none
    | .succeed =>
        match state.writer with
        | .applied => some { state with writer := .resting }
        | _ => none
    | .abandon =>
        match state.writer with
        | .resting => none
        | _ => some { state with writer := .resting }
    | .sample reader =>
        match state.readers reader with
        | .idle => some (state.setReader reader (.sampled state.log))
        | _ => none
    | .answer reader value =>
        match state.readers reader with
        | .sampled log =>
            if value = content initial plan log then
              some (state.setReader reader (.answered log value))
            else
              none
        | _ => none
    | .fail reader =>
        match state.readers reader with
        | .sampled log => some (state.setReader reader (.failed log))
        | _ => none

end

/-!
## Steps
-/

section

variable {Reader Value : Type} [DecidableEq Reader] [DecidableEq Value] {initial : Value}
  {plan : Nat → Value} {state next final : State Reader Value} {action : Action Reader Value}
  {actions : List (Action Reader Value)}

/-- Where a step can lead, with what allowed it. -/
inductive Effect (initial : Value) (plan : Nat → Value) (state : State Reader Value) :
    Action Reader Value → State Reader Value → Prop where
  | begins (resting : state.writer = .resting) : Effect initial plan state .begin
      { state with begun := state.begun + 1, writer := .pending }
  | applies (pending : state.writer = .pending) : Effect initial plan state .apply
      { state with log := state.log ++ [state.begun - 1], writer := .applied }
  | succeeds (applied : state.writer = .applied) : Effect initial plan state .succeed
      { state with writer := .resting }
  | abandons (active : state.writer ≠ .resting) : Effect initial plan state .abandon
      { state with writer := .resting }
  | samples {reader : Reader} (idle : state.readers reader = .idle) :
      Effect initial plan state (.sample reader) (state.setReader reader (.sampled state.log))
  | answers {reader : Reader} {log : List Nat} (sampled : state.readers reader = .sampled log) :
      Effect initial plan state (.answer reader (content initial plan log))
        (state.setReader reader (.answered log (content initial plan log)))
  | fails {reader : Reader} {log : List Nat} (sampled : state.readers reader = .sampled log) :
      Effect initial plan state (.fail reader) (state.setReader reader (.failed log))

theorem step_effect (stepped : (machine initial plan).step state action = some next) :
    Effect initial plan state action next := by
  cases action with
  | begin =>
      simp only [machine] at stepped
      split at stepped
      · next resting =>
          cases stepped
          exact .begins resting
      · cases stepped
  | apply =>
      simp only [machine] at stepped
      split at stepped
      · next pending =>
          cases stepped
          exact .applies pending
      · cases stepped
  | succeed =>
      simp only [machine] at stepped
      split at stepped
      · next applied =>
          cases stepped
          exact .succeeds applied
      · cases stepped
  | abandon =>
      simp only [machine] at stepped
      split at stepped
      · cases stepped
      · next active =>
          cases stepped
          exact .abandons active
  | sample reader =>
      simp only [machine] at stepped
      split at stepped
      · next idle =>
          cases stepped
          exact .samples idle
      · cases stepped
  | answer reader value =>
      simp only [machine] at stepped
      split at stepped
      · next sampled =>
          split at stepped
          · next same =>
              subst same
              cases stepped
              exact .answers sampled
          · cases stepped
      · cases stepped
  | fail reader =>
      simp only [machine] at stepped
      split at stepped
      · next sampled =>
          cases stepped
          exact .fails sampled
      · cases stepped

/-!
## Invariant
-/

structure Invariant (initial : Value) (plan : Nat → Value) (state : State Reader Value) :
    Prop where
  sorted : state.log.Pairwise (· < ·)
  begun : ∀ number ∈ state.log, number < state.begun
  pending : state.writer = .pending → 0 < state.begun ∧ state.begun - 1 ∉ state.log
  applied : state.writer = .applied → state.log.getLast? = some (state.begun - 1)
  answered : ∀ reader log value, state.readers reader = .answered log value →
    value = content initial plan log

omit [DecidableEq Reader] [DecidableEq Value] in
theorem Invariant.initially : Invariant initial plan ({} : State Reader Value) := by
  refine ⟨.nil, ?_, ?_, ?_, ?_⟩ <;> simp

omit [DecidableEq Value] in
theorem Invariant.setReader (invariant : Invariant initial plan state) {reader : Reader}
    {reading : Reading Value}
    (own : ∀ log value, reading = .answered log value → value = content initial plan log) :
    Invariant initial plan (state.setReader reader reading) := by
  refine ⟨invariant.sorted, invariant.begun, invariant.pending, invariant.applied, ?_⟩
  intro other log value answered
  simp only [State.setReader] at answered
  by_cases same : other = reader
  · rw [same, Function.update_self] at answered
    exact own log value answered
  · rw [Function.update_of_ne same] at answered
    exact invariant.answered other log value answered

theorem Invariant.step (invariant : Invariant initial plan state)
    (stepped : (machine initial plan).step state action = some next) :
    Invariant initial plan next := by
  cases step_effect stepped with
  | begins resting =>
      refine ⟨invariant.sorted, ?_, ?_, ?_, invariant.answered⟩
      · intro number member
        exact Nat.lt_succ_of_lt (invariant.begun number member)
      · intro _
        exact ⟨Nat.succ_pos _, fun member => Nat.lt_irrefl _ (invariant.begun _ member)⟩
      · intro applied
        cases applied
  | applies pending =>
      obtain ⟨positive, fresh⟩ := invariant.pending pending
      refine ⟨?_, ?_, ?_, ?_, invariant.answered⟩
      · rw [List.pairwise_append]
        refine ⟨invariant.sorted, List.pairwise_singleton _ _, ?_⟩
        intro number member other last
        have early := invariant.begun number member
        have distinct : number ≠ state.begun - 1 := fun same => fresh (same ▸ member)
        rw [List.mem_singleton.mp last]
        omega
      · intro number member
        rcases List.mem_append.mp member with old | last
        · exact invariant.begun number old
        · rw [List.mem_singleton.mp last]
          exact Nat.sub_lt positive Nat.one_pos
      · intro stillPending
        cases stillPending
      · intro _
        exact List.getLast?_concat
  | succeeds | abandons =>
      refine ⟨invariant.sorted, invariant.begun, ?_, ?_, invariant.answered⟩
      · intro pending
        cases pending
      · intro applied
        cases applied
  | samples idle => exact invariant.setReader (by simp)
  | answers sampled =>
      refine invariant.setReader ?_
      intro log value same
      cases same
      rfl
  | fails sampled => exact invariant.setReader (by simp)

theorem log_step (stepped : (machine initial plan).step state action = some next) :
    state.log <+: next.log := by
  cases step_effect stepped with
  | applies => exact List.prefix_append _ _
  | _ => exact List.prefix_rfl

theorem log_run (ran : (machine initial plan).run state actions = some final) :
    state.log <+: final.log :=
  @Machine.run_preserves _ _ (machine initial plan) (fun later => state.log <+: later.log)
    (fun _ _ _ grown stepped => grown.trans (log_step stepped)) _ _ _ List.prefix_rfl ran

theorem of_step {reader : Reader} {log : List Nat} (own : (state.readers reader).Of log)
    (stepped : (machine initial plan).step state action = some next) :
    (next.readers reader).Of log := by
  have update {other : Reader} {reading : Reading Value}
      (kept : reader = other → reading.Of log) :
      ((state.setReader other reading).readers reader).Of log := by
    simp only [State.setReader]
    by_cases same : reader = other
    · rw [same, Function.update_self]
      exact kept same
    · rw [Function.update_of_ne same]
      exact own
  cases step_effect stepped with
  | begins | applies | succeeds | abandons => exact own
  | samples idle =>
      refine update fun same => ?_
      rw [same, idle] at own
      exact own.elim
  | answers sampled | fails sampled =>
      refine update fun same => ?_
      rw [same, sampled] at own
      exact own

/-- A read stays with the instant of its sample. -/
theorem of_run {reader : Reader} {log : List Nat} (own : (state.readers reader).Of log)
    (ran : (machine initial plan).run state actions = some final) :
    (final.readers reader).Of log :=
  @Machine.run_preserves _ _ (machine initial plan) (fun later => (later.readers reader).Of log)
    (fun _ _ _ own stepped => of_step own stepped) _ _ _ own ran

theorem of_sample {reader : Reader}
    (ran : (machine initial plan).run state (.sample reader :: actions) = some final) :
    (final.readers reader).Of state.log := by
  obtain ⟨next, stepped, ran⟩ := Option.bind_eq_some_iff.mp ran
  have sampled : (next.readers reader).Of state.log := by
    cases step_effect stepped with
    | samples idle =>
        simp only [State.setReader, Function.update_self]
        rfl
  exact of_run sampled ran

/-!
## What readers can rely on
-/

omit [DecidableEq Value] in
theorem content_of_getLast? {log : List Nat} {number : Nat} (last : log.getLast? = some number) :
    content initial plan log = plan number := by
  rw [content, last]

/-- The latest write of a longer log is not an earlier one. -/
theorem getLast?_le {left right : List Nat} (sorted : right.Pairwise (· < ·))
    (grown : left <+: right) {number : Nat} (last : left.getLast? = some number) :
    ∃ later, number ≤ later ∧ right.getLast? = some later := by
  obtain ⟨rest, rfl⟩ := grown
  cases rest using List.reverseRecOn with
  | nil => exact ⟨number, Nat.le_refl _, by rw [List.append_nil]; exact last⟩
  | append_singleton others later =>
      refine ⟨later, ?_, by rw [← List.append_assoc]; exact List.getLast?_concat⟩
      rw [List.pairwise_append] at sorted
      exact Nat.le_of_lt (sorted.2.2 number (List.mem_of_getLast? last) later (by simp))

theorem Invariant.run (invariant : Invariant initial plan state)
    (ran : (machine initial plan).run state actions = some final) :
    Invariant initial plan final :=
  Machine.run_preserves (fun _ _ _ held stepped => held.step stepped) invariant ran

/-- A read that starts after a write has succeeded is of that write or of one
that began later. -/
theorem answer_after_success (invariant : Invariant initial plan state)
    {middle rest : List (Action Reader Value)} {reader : Reader} {log : List Nat} {value : Value}
    (ran : (machine initial plan).run state (.succeed :: (middle ++ .sample reader :: rest)) =
      some final)
    (answered : final.readers reader = .answered log value) :
    ∃ later, state.begun - 1 ≤ later ∧ log.getLast? = some later ∧ value = plan later := by
  have atEnd := invariant.run ran
  obtain ⟨succeeded, stepped, ran⟩ := Option.bind_eq_some_iff.mp ran
  have early := invariant.step stepped
  rw [Machine.run_append] at ran
  obtain ⟨sampling, ranMiddle, ranRest⟩ := Option.bind_eq_some_iff.mp ran
  obtain rfl := (of_sample ranRest).log_eq answered
  have last : succeeded.log.getLast? = some (state.begun - 1) := by
    cases step_effect stepped with
    | succeeds applied => exact invariant.applied applied
  obtain ⟨later, after, lastLater⟩ :=
    getLast?_le (early.run ranMiddle).sorted (log_run ranMiddle) last
  refine ⟨later, after, lastLater, ?_⟩
  rw [atEnd.answered reader _ value answered, content_of_getLast? lastLater]

/-- A later read has seen all the writes that an earlier one has. -/
theorem answers_in_order {middle rest : List (Action Reader Value)} {first second : Reader}
    {log laterLog : List Nat} {value laterValue : Value}
    (ran : (machine initial plan).run state
      (.sample first :: (middle ++ .sample second :: rest)) = some final)
    (firstAnswered : final.readers first = .answered log value)
    (secondAnswered : final.readers second = .answered laterLog laterValue) :
    log <+: laterLog := by
  obtain rfl := (of_sample ran).log_eq firstAnswered
  rw [← List.cons_append, Machine.run_append] at ran
  obtain ⟨sampling, ranFirst, ranSecond⟩ := Option.bind_eq_some_iff.mp ran
  obtain rfl := (of_sample ranSecond).log_eq secondAnswered
  exact log_run ranFirst

/-!
## Implementations
-/

variable {Below Event : Type} {concrete : Machine Below Event}
  {abstract : Machine (State Reader Value) (Action Reader Value)}
  {implementation : Simulation concrete (@machine Reader Value _ _ initial plan)}
  {start reached : Below} {before middle after : List Event}

/-- The event is the action above, and nothing else. -/
def Does (implementation : Simulation concrete abstract) (event : Event)
    (action : Action Reader Value) : Prop :=
  ∀ state next, concrete.step state event = some next →
    implementation.actions state event next = [action]

omit [DecidableEq Reader] [DecidableEq Value] in
theorem trace_does {implementation : Simulation concrete abstract} {event : Event}
    {action : Action Reader Value} (does : Does implementation event action)
    (ran : concrete.run start (middle ++ event :: after) = some reached) :
    ∃ earlier later, implementation.trace start (middle ++ event :: after) =
      earlier ++ action :: later := by
  rw [Machine.run_append] at ran
  obtain ⟨acting, ranMiddle, ran⟩ := Option.bind_eq_some_iff.mp ran
  obtain ⟨next, stepped, _⟩ := Option.bind_eq_some_iff.mp ran
  refine ⟨implementation.trace start middle, implementation.trace next after, ?_⟩
  rw [Simulation.trace_append ranMiddle, Simulation.trace_cons stepped, does _ _ stepped]
  rfl

/-- Below as above, a read that starts after a write has succeeded is of that
write or of one that began later. -/
theorem reads_after_success (initially : implementation.invariant start)
    (invariant : Invariant initial plan (implementation.abstraction start))
    {success selection : Event} {reader : Reader} {log : List Nat} {value : Value}
    (succeeds : Does implementation success .succeed)
    (samples : Does implementation selection (.sample reader))
    (ran : concrete.run start (before ++ success :: (middle ++ selection :: after)) = some reached)
    (answered : (implementation.abstraction reached).readers reader = .answered log value) :
    ∃ succeeding, concrete.run start before = some succeeding ∧ ∃ later,
      (implementation.abstraction succeeding).begun - 1 ≤ later ∧ log.getLast? = some later := by
  rw [Machine.run_append] at ran
  obtain ⟨succeeding, ranBefore, ran⟩ := Option.bind_eq_some_iff.mp ran
  have kept := Machine.run_preserves (fun _ _ _ => implementation.preserves) initially ranBefore
  have register := invariant.run (implementation.run initially ranBefore)
  have simulated := implementation.run kept ran
  obtain ⟨next, stepped, ran⟩ := Option.bind_eq_some_iff.mp ran
  obtain ⟨earlier, later, sampled⟩ := trace_does samples ran
  rw [Simulation.trace_cons stepped, succeeds _ _ stepped, sampled] at simulated
  obtain ⟨number, began, last, _⟩ := answer_after_success register simulated answered
  exact ⟨succeeding, ranBefore, number, began, last⟩

/-- Below as above, the later of two reads has seen the write that the earlier
one returns, or a later one. -/
theorem reads_in_order (initially : implementation.invariant start)
    (invariant : Invariant initial plan (implementation.abstraction start))
    {firstSelection secondSelection : Event} {first second : Reader} {log laterLog : List Nat}
    {value laterValue : Value}
    (samplesFirst : Does implementation firstSelection (.sample first))
    (samplesSecond : Does implementation secondSelection (.sample second))
    (ran : concrete.run start
      (before ++ firstSelection :: (middle ++ secondSelection :: after)) = some reached)
    (firstAnswered : (implementation.abstraction reached).readers first = .answered log value)
    (secondAnswered : (implementation.abstraction reached).readers second =
      .answered laterLog laterValue)
    (kept : laterLog <+: (implementation.abstraction reached).log) {number : Nat}
    (last : log.getLast? = some number) :
    ∃ later, number ≤ later ∧ laterLog.getLast? = some later := by
  have sorted := (invariant.run (implementation.run initially ran)).sorted
  rw [Machine.run_append] at ran
  obtain ⟨selecting, ranBefore, ran⟩ := Option.bind_eq_some_iff.mp ran
  have held := Machine.run_preserves (fun _ _ _ => implementation.preserves) initially ranBefore
  have simulated := implementation.run held ran
  obtain ⟨next, stepped, ran⟩ := Option.bind_eq_some_iff.mp ran
  obtain ⟨earlier, later, sampled⟩ := trace_does samplesSecond ran
  rw [Simulation.trace_cons stepped, samplesFirst _ _ stepped, sampled] at simulated
  have grown := answers_in_order simulated firstAnswered secondAnswered
  exact getLast?_le (sorted.sublist kept.sublist) grown last

end

end Register
