import BipaNodes.Importer.Schedule
import Mathlib.Data.List.Chain

/-! Imports never overlap and start about an interval apart; an import that
overruns the interval is followed by the next one at once. -/

set_option autoImplicit false

namespace BipaNodes.Importer

@[simp] theorem loop_nil (ticker : Ticker Nanos) (now : Nanos) : loop ticker now [] = [] := rfl

def tickerAfter (ticker : Ticker Nanos) (current : Import) : Ticker Nanos :=
  ticker.afterTick tickTolerance current.start

theorem loop_cons (ticker : Ticker Nanos) (now : Nanos) (iteration : Iteration)
    (iterations : List Iteration) :
    loop ticker now (iteration :: iterations) =
      iterate ticker now iteration ::
        loop (tickerAfter ticker (iterate ticker now iteration))
          (iterate ticker now iteration).finish iterations := rfl

@[simp] theorem period_tickerAfter (ticker : Ticker Nanos) (current : Import) :
    (tickerAfter ticker current).period = ticker.period :=
  Ticker.period_afterTick

theorem le_start_iterate {ticker : Ticker Nanos} {now : Nanos} {iteration : Iteration} :
    now ≤ (iterate ticker now iteration).start :=
  Ticker.le_completes

theorem start_le_finish {ticker : Ticker Nanos} {now : Nanos} {iteration : Iteration} :
    (iterate ticker now iteration).start ≤ (iterate ticker now iteration).finish :=
  Nat.le_add_right _ _

/-- A property of neighbouring imports holds of a whole schedule if it holds
where the loop goes round once. -/
theorem isChain_loop {related : Import → Import → Prop} {period : Nanos}
    (once : ∀ (ticker : Ticker Nanos) (now : Nanos) (first second : Iteration),
      ticker.period = period →
      related (iterate ticker now first)
        (iterate (tickerAfter ticker (iterate ticker now first))
          (iterate ticker now first).finish second))
    {ticker : Ticker Nanos} {now : Nanos} {iterations : List Iteration}
    (periodic : ticker.period = period) :
    (loop ticker now iterations).IsChain related := by
  induction iterations generalizing ticker now with
  | nil => exact .nil
  | cons first iterations ih =>
      rw [loop_cons]
      have tail := @ih (tickerAfter ticker (iterate ticker now first))
        (iterate ticker now first).finish ((period_tickerAfter ticker _).trans periodic)
      cases iterations with
      | nil => exact .singleton _
      | cons second iterations =>
          rw [loop_cons] at tail ⊢
          exact .cons_cons (once ticker now first second periodic) tail

@[simp] theorem length_loop {ticker : Ticker Nanos} {now : Nanos} {iterations : List Iteration} :
    (loop ticker now iterations).length = iterations.length := by
  induction iterations generalizing ticker now with
  | nil => rfl
  | cons iteration iterations ih => rw [loop_cons, List.length_cons, List.length_cons, ih]

/-- The timer, and the instant at which the loop is back at its `select!`. -/
def clockAfter (ticker : Ticker Nanos) (now : Nanos) : List Iteration → Ticker Nanos × Nanos
  | [] => (ticker, now)
  | iteration :: iterations =>
      clockAfter (tickerAfter ticker (iterate ticker now iteration))
        (iterate ticker now iteration).finish iterations

theorem loop_concat (ticker : Ticker Nanos) (now : Nanos) (iterations : List Iteration)
    (last : Iteration) :
    loop ticker now (iterations ++ [last]) = loop ticker now iterations ++
      [iterate (clockAfter ticker now iterations).1 (clockAfter ticker now iterations).2 last] := by
  induction iterations generalizing ticker now with
  | nil => rfl
  | cons iteration iterations ih => simp only [List.cons_append, loop_cons, ih, clockAfter]

theorem clockAfter_concat (ticker : Ticker Nanos) (now : Nanos) (iterations : List Iteration)
    (last : Iteration) :
    clockAfter ticker now (iterations ++ [last]) =
      clockAfter (clockAfter ticker now iterations).1 (clockAfter ticker now iterations).2
        [last] := by
  induction iterations generalizing ticker now with
  | nil => rfl
  | cons iteration iterations ih => simp only [List.cons_append, ih, clockAfter]

/-!
## Single flight
-/

theorem le_start {ticker : Ticker Nanos} {now : Nanos} {iterations : List Iteration} :
    ∀ later ∈ loop ticker now iterations, now ≤ later.start := by
  induction iterations generalizing ticker now with
  | nil =>
      intro later member
      cases member
  | cons iteration iterations ih =>
      intro later member
      rw [loop_cons] at member
      rcases List.mem_cons.mp member with first | rest
      · rw [first]
        exact le_start_iterate
      · exact le_start_iterate.trans (start_le_finish.trans (ih later rest))

def SingleFlight (imports : List Import) : Prop :=
  imports.Pairwise fun earlier later => earlier.start ≤ earlier.finish ∧ earlier.finish ≤ later.start

theorem singleFlight_loop {ticker : Ticker Nanos} {now : Nanos} {iterations : List Iteration} :
    SingleFlight (loop ticker now iterations) := by
  unfold SingleFlight
  induction iterations generalizing ticker now with
  | nil => exact .nil
  | cons iteration iterations ih =>
      rw [loop_cons, List.pairwise_cons]
      refine ⟨?_, ih⟩
      intro later member
      exact ⟨start_le_finish, le_start later member⟩

/-!
## Rate
-/

def RateBounded (interval : ImportInterval) (imports : List Import) : Prop :=
  imports.IsChain fun earlier later =>
    earlier.start + interval.length ≤ later.start + tickTolerance

theorem rateBounded_run {interval : ImportInterval} {now : Nanos} {iterations : List Iteration} :
    RateBounded interval (run interval now iterations) := by
  refine isChain_loop ?_ (Ticker.period_starting now interval.length)
  intro ticker now first second periodic
  have due : (iterate ticker now first).start + ticker.period ≤
      (tickerAfter ticker (iterate ticker now first)).deadline + tickTolerance :=
    Ticker.completed_add_period_le
  rw [periodic] at due
  exact due.trans (Nat.add_le_add_right Ticker.deadline_le_completes _)

/-!
## Punctual timers
-/

def Punctual (iterations : List Iteration) : Prop :=
  ∀ iteration ∈ iterations, iteration.late = 0

instance (iterations : List Iteration) : Decidable (Punctual iterations) :=
  inferInstanceAs (Decidable (∀ _ ∈ _, _))

theorem Punctual.tail {iteration : Iteration} {iterations : List Iteration}
    (punctual : Punctual (iteration :: iterations)) : Punctual iterations :=
  fun later member => punctual later (List.mem_cons_of_mem iteration member)

theorem start_of_early {ticker : Ticker Nanos} {now : Nanos} {iteration : Iteration}
    (onTime : iteration.late = 0) (early : now ≤ ticker.deadline) :
    (iterate ticker now iteration).start = ticker.deadline := by
  unfold iterate
  rw [onTime]
  exact Ticker.completes_punctual early

theorem deadline_of_early {ticker : Ticker Nanos} {now : Nanos} {iteration : Iteration}
    (onTime : iteration.late = 0) (early : now ≤ ticker.deadline) :
    (tickerAfter ticker (iterate ticker now iteration)).deadline =
      ticker.deadline + ticker.period := by
  unfold tickerAfter
  rw [start_of_early onTime early]
  exact Ticker.deadline_afterTick_of_onTime (Nat.le_add_right _ _)

def EndsInTime (imports : List Import) : Prop :=
  imports.IsChain fun current following => current.finish ≤ following.deadline

theorem start_loop {ticker : Ticker Nanos} {now : Nanos} {iterations : List Iteration}
    (punctual : Punctual iterations) (early : now ≤ ticker.deadline)
    (inTime : EndsInTime (loop ticker now iterations)) {k : Nat} {current : Import}
    (found : (loop ticker now iterations)[k]? = some current) :
    current.start = ticker.deadline + k * ticker.period := by
  induction iterations generalizing ticker now k with
  | nil => simp at found
  | cons iteration iterations ih =>
      have onTime := punctual iteration List.mem_cons_self
      rw [loop_cons] at found inTime
      cases k with
      | zero =>
          obtain rfl : iterate ticker now iteration = current := by simpa using found
          rw [start_of_early onTime early, Nat.zero_mul, Nat.add_zero]
      | succ k =>
          rw [List.getElem?_cons_succ] at found
          have inTimeLater := inTime.tail
          have earlyLater : (iterate ticker now iteration).finish ≤
              (tickerAfter ticker (iterate ticker now iteration)).deadline := by
            cases iterations with
            | nil => simp at found
            | cons second iterations =>
                rw [loop_cons] at inTime
                exact (List.isChain_cons_cons.mp inTime).1
          rw [ih punctual.tail earlyLater inTimeLater found, deadline_of_early onTime early,
            period_tickerAfter, Nat.succ_mul, Nat.add_assoc, Nat.add_comm ticker.period]

/-!
## Outcomes
-/

def Iteration.timing (iteration : Iteration) : Nanos × Nanos :=
  (iteration.late, iteration.duration)

def Import.times (current : Import) : Nanos × Nanos × Nanos :=
  (current.deadline, current.start, current.finish)

theorem iterate_of_timing {ticker : Ticker Nanos} {now : Nanos} {left right : Iteration}
    (same : left.timing = right.timing) :
    (iterate ticker now left).start = (iterate ticker now right).start ∧
      (iterate ticker now left).finish = (iterate ticker now right).finish := by
  obtain ⟨sameLate, sameDuration⟩ := Prod.mk.inj same
  unfold iterate
  simp only [sameLate, sameDuration, and_self]

theorem times_loop {ticker : Ticker Nanos} {now : Nanos} {left right : List Iteration}
    (same : left.map Iteration.timing = right.map Iteration.timing) :
    (loop ticker now left).map Import.times = (loop ticker now right).map Import.times := by
  induction left generalizing ticker now right with
  | nil =>
      obtain rfl : right = [] := by simpa using same.symm
      rfl
  | cons iteration left ih =>
      cases right with
      | nil => cases same
      | cons other right =>
          obtain ⟨sameTiming, sameRest⟩ := List.cons.inj same
          obtain ⟨sameStart, sameFinish⟩ := @iterate_of_timing ticker now _ _ sameTiming
          rw [loop_cons, loop_cons, List.map_cons, List.map_cons, ih sameRest]
          simp only [Import.times, tickerAfter, sameStart, sameFinish]
          rfl

/-- The import of an iteration takes as long as that, and is logged as it ends. -/
structure CarriesOut (iteration : Iteration) (current : Import) : Prop where
  finish : current.finish = current.start + iteration.duration
  logged : current.logged = logResult iteration.taskEnd.result

theorem carriesOut_loop {ticker : Ticker Nanos} {now : Nanos} {iterations : List Iteration} :
    List.Forall₂ CarriesOut iterations (loop ticker now iterations) := by
  induction iterations generalizing ticker now with
  | nil => exact .nil
  | cons iteration iterations ih =>
      rw [loop_cons]
      exact .cons ⟨rfl, rfl⟩ ih

/-!
## The schedule as a whole
-/

structure Steady (interval : ImportInterval) (now : Nanos) (iterations : List Iteration) :
    Prop where
  carried_out : List.Forall₂ CarriesOut iterations (run interval now iterations)
  single_flight : SingleFlight (run interval now iterations)
  first_at_once : ∀ first, (run interval now iterations).head? = some first → first.start = now
  rate_bounded : RateBounded interval (run interval now iterations)
  no_drift : Punctual iterations → EndsInTime (run interval now iterations) →
    ∀ k current, (run interval now iterations)[k]? = some current →
      current.start = now + k * interval.length
  /-- No outcome ends the loop or shifts its schedule. -/
  outcome_independent : (run interval now iterations).length = iterations.length ∧
    ∀ others : List Iteration, others.map Iteration.timing = iterations.map Iteration.timing →
      (run interval now others).map Import.times = (run interval now iterations).map Import.times

theorem run_steady (interval : ImportInterval) (now : Nanos) (iterations : List Iteration) :
    Steady interval now iterations where
  carried_out := carriesOut_loop
  single_flight := singleFlight_loop
  first_at_once := by
    intro first found
    cases iterations with
    | nil => cases found
    | cons iteration iterations =>
        rw [run, loop_cons, List.head?_cons] at found
        cases found
        exact Ticker.completes_of_passed (Nat.le_refl now)
  rate_bounded := rateBounded_run
  no_drift := fun punctual inTime _ _ found => start_loop punctual (Nat.le_refl now) inTime found
  outcome_independent := ⟨length_loop, fun _ same => times_loop same⟩

/-!
## Overruns
-/

/-- An import that finishes after the deadline of the next tick is followed by
a full interval without one. -/
def PausesAfterOverrun (interval : ImportInterval) (imports : List Import) : Prop :=
  imports.IsChain fun current following =>
    following.deadline < current.finish → current.finish + interval.length ≤ following.start

instance (interval : ImportInterval) (imports : List Import) :
    Decidable (PausesAfterOverrun interval imports) :=
  inferInstanceAs (Decidable (List.IsChain _ _))

/-- The tick that an import overruns completes as soon as the import ends. -/
theorem start_of_overrun {ticker : Ticker Nanos} {now : Nanos} {iteration : Iteration}
    (overrun : ticker.deadline < now) : (iterate ticker now iteration).start = now :=
  Ticker.completes_of_passed (Nat.le_of_lt overrun)

theorem pausesAfterOverrun_loop_iff {interval : ImportInterval} {ticker : Ticker Nanos}
    {now : Nanos} {iterations : List Iteration} (periodic : ticker.period = interval.length)
    (punctual : Punctual iterations) (early : now ≤ ticker.deadline) :
    PausesAfterOverrun interval (loop ticker now iterations) ↔
      ∀ iteration ∈ iterations.dropLast, iteration.duration ≤ interval.length := by
  unfold PausesAfterOverrun
  induction iterations generalizing ticker now with
  | nil => simp
  | cons iteration iterations ih =>
      cases iterations with
      | nil => simp [loop_cons]
      | cons second iterations =>
          have onTime := punctual iteration List.mem_cons_self
          have start := start_of_early onTime early
          have deadline := deadline_of_early onTime early
          have finish : (iterate ticker now iteration).finish =
              ticker.deadline + iteration.duration := by
            rw [← start]
            rfl
          have periodicLater := (period_tickerAfter ticker (iterate ticker now iteration)).trans
            periodic
          rw [loop_cons, loop_cons, List.isChain_cons_cons, List.dropLast_cons_cons,
            List.forall_mem_cons, ← loop_cons]
          rcases Nat.lt_or_ge interval.length iteration.duration with overruns | inTime
          · -- the first overrun breaks the pause, whatever follows
            have overrun : (tickerAfter ticker (iterate ticker now iteration)).deadline <
                (iterate ticker now iteration).finish := by
              rw [deadline, finish, periodic]
              exact Nat.add_lt_add_left overruns _
            have positive : 0 < interval.length := Nat.lt_of_lt_of_le (by decide) interval.positive
            constructor
            · intro every
              have pause := every.1 overrun
              rw [start_of_overrun overrun] at pause
              exact absurd pause (Nat.not_le.mpr (Nat.lt_add_of_pos_right positive))
            · intro every
              exact absurd every.1 (Nat.not_le.mpr overruns)
          · have earlyLater : (iterate ticker now iteration).finish ≤
                (tickerAfter ticker (iterate ticker now iteration)).deadline := by
              rw [deadline, finish, periodic]
              exact Nat.add_le_add_left inTime _
            rw [ih periodicLater punctual.tail earlyLater]
            constructor
            · intro every
              exact ⟨inTime, every.2⟩
            · intro every
              refine ⟨?_, every.2⟩
              intro overrun
              exact absurd earlyLater (Nat.not_le.mpr overrun)

/-- There is a pause after every overrun only where nothing overruns. -/
theorem pausesAfterOverrun_iff (interval : ImportInterval) (now : Nanos)
    (iterations : List Iteration) (punctual : Punctual iterations) :
    PausesAfterOverrun interval (run interval now iterations) ↔
      ∀ iteration ∈ iterations.dropLast, iteration.duration ≤ interval.length :=
  pausesAfterOverrun_loop_iff rfl punctual (Nat.le_refl now)

def everySecond : ImportInterval where
  length := Nanos.seconds 1
  positive := Nat.le_refl _

def twoImports (duration : Nanos) : List Iteration :=
  [{ late := 0, duration, taskEnd := .returned (.ok { imported := 1 }) },
    { late := 0, duration := 0, taskEnd := .returned (.ok { imported := 1 }) }]

theorem pausesAfterOverrun_iff_twoImports :
    Punctual (twoImports (Nanos.millis 1500)) ∧
      (PausesAfterOverrun everySecond (run everySecond 0 (twoImports (Nanos.millis 1500))) ↔
        ∀ iteration ∈ (twoImports (Nanos.millis 1500)).dropLast,
          iteration.duration ≤ everySecond.length) :=
  ⟨by decide, pausesAfterOverrun_iff everySecond 0 (twoImports (Nanos.millis 1500)) (by decide)⟩

/-- An import of one and a half seconds is followed by the next one at once. -/
theorem overrun_not_paused :
    ¬ ∀ (interval : ImportInterval) (now : Nanos) (iterations : List Iteration),
      Punctual iterations → PausesAfterOverrun interval (run interval now iterations) := by
  intro pauses
  have pause := pauses everySecond 0 (twoImports (Nanos.millis 1500)) (by decide)
  revert pause
  decide

end BipaNodes.Importer
