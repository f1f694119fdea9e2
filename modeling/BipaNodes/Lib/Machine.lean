import Mathlib.Data.List.Basic

/-!
# Labelled machines

A machine moves from state to state on events and refuses an event that its
state does not allow. Runs are lists of events; properties of all steps of a
run are derived from an invariant and one step.
-/

set_option autoImplicit false

structure Machine (State Event : Type) where
  step : State → Event → Option State

namespace Machine

variable {State Event : Type} (machine : Machine State Event)

/-- The state after a list of events, if every one of them is allowed. -/
def run : State → List Event → Option State
  | state, [] => some state
  | state, event :: events => (machine.step state event).bind fun next => run next events

/-- `holds` at every step that a list of events takes. -/
def EveryStep (holds : State → Event → State → Prop) : State → List Event → Prop
  | _, [] => True
  | state, event :: events =>
      ∀ next, machine.step state event = some next →
        holds state event next ∧ EveryStep holds next events

def decidableEveryStep {holds : State → Event → State → Prop}
    (decides : ∀ state event next, Decidable (holds state event next)) :
    ∀ (state : State) (events : List Event), Decidable (machine.EveryStep holds state events)
  | _, [] => .isTrue trivial
  | state, event :: events =>
      match stepped : machine.step state event with
      | none => .isTrue fun next possible => by cases stepped.symm.trans possible
      | some next =>
          have := decides state event next
          have := decidableEveryStep decides next events
          decidable_of_iff (holds state event next ∧ machine.EveryStep holds next events)
            (by simp [EveryStep, stepped])

instance {holds : State → Event → State → Prop}
    [decides : ∀ state event next, Decidable (holds state event next)] (state : State)
    (events : List Event) : Decidable (machine.EveryStep holds state events) :=
  decidableEveryStep machine decides state events

theorem run_cons (state : State) (event : Event) (events : List Event) :
    machine.run state (event :: events) =
      (machine.step state event).bind fun next => machine.run next events := rfl

theorem run_singleton (state : State) (event : Event) :
    machine.run state [event] = machine.step state event := by
  rw [run_cons]
  cases machine.step state event with
  | none => rfl
  | some next => rfl

theorem run_append (state : State) (first rest : List Event) :
    machine.run state (first ++ rest) =
      (machine.run state first).bind fun middle => machine.run middle rest := by
  induction first generalizing state with
  | nil => rfl
  | cons event first ih =>
      rw [List.cons_append, run_cons, run_cons]
      cases machine.step state event with
      | none => rfl
      | some next => exact ih next

variable {machine}

theorem run_trans {start middle final : State} {first rest : List Event}
    (ranFirst : machine.run start first = some middle)
    (ranRest : machine.run middle rest = some final) :
    machine.run start (first ++ rest) = some final := by
  rw [run_append, ranFirst, Option.bind_some, ranRest]

theorem everyStep_append {holds : State → Event → State → Prop} {state : State}
    {first rest : List Event} :
    machine.EveryStep holds state (first ++ rest) ↔
      machine.EveryStep holds state first ∧
        ∀ middle, machine.run state first = some middle → machine.EveryStep holds middle rest := by
  induction first generalizing state with
  | nil => simp [EveryStep, run]
  | cons event first ih =>
      rw [List.cons_append, EveryStep, EveryStep, run_cons]
      cases machine.step state event with
      | none => simp
      | some next =>
          simp only [Option.some.injEq, forall_eq', Option.bind_some, ih, and_assoc]

theorem EveryStep.last {holds : State → Event → State → Prop} {state reached : State}
    {events : List Event} {event : Event}
    (every : machine.EveryStep holds state (events ++ [event]))
    (ran : machine.run state events = some reached) :
    ∀ next, machine.step reached event = some next → holds reached event next := by
  intro next stepped
  exact ((everyStep_append.mp every).2 reached ran next stepped).1

/-- The machine left to some of its events alone. -/
def restrict (machine : Machine State Event) (allowed : Event → Bool) : Machine State Event where
  step state event := if allowed event then machine.step state event else none

theorem step_restrict {allowed : Event → Bool} {state next : State} {event : Event} :
    (machine.restrict allowed).step state event = some next ↔
      allowed event = true ∧ machine.step state event = some next := by
  simp [restrict]

theorem run_restrict {allowed : Event → Bool} {state final : State} {events : List Event}
    (ran : (machine.restrict allowed).run state events = some final) :
    machine.run state events = some final ∧ ∀ event ∈ events, allowed event = true := by
  induction events generalizing state with
  | nil => exact ⟨ran, fun event absent => absurd absent List.not_mem_nil⟩
  | cons event events ih =>
      obtain ⟨next, stepped, ran⟩ := Option.bind_eq_some_iff.mp ran
      obtain ⟨isAllowed, stepped⟩ := step_restrict.mp stepped
      obtain ⟨ranRest, restAllowed⟩ := ih ran
      refine ⟨?_, List.forall_mem_cons.mpr ⟨isAllowed, restAllowed⟩⟩
      rw [run_cons, stepped]
      exact ranRest

/-- What one step preserves, a run preserves. -/
theorem run_preserves {invariant : State → Prop}
    (preserves : ∀ state event next, invariant state → machine.step state event = some next →
      invariant next)
    {state final : State} {events : List Event} (initially : invariant state)
    (ran : machine.run state events = some final) : invariant final := by
  induction events generalizing state with
  | nil =>
      cases ran
      exact initially
  | cons event events ih =>
      rw [run_cons] at ran
      cases stepped : machine.step state event with
      | none => simp [stepped] at ran
      | some next =>
          rw [stepped] at ran
          exact ih (preserves state event next initially stepped) ran

/-- Two properties of steps agree on a run if they agree wherever an invariant
holds that either of them carries along. -/
theorem everyStep_iff {invariant : State → Prop} {left right : State → Event → State → Prop}
    (agree : ∀ state event next, invariant state → machine.step state event = some next →
      (left state event next ↔ right state event next))
    (carries : ∀ state event next, invariant state → machine.step state event = some next →
      right state event next → invariant next)
    {state : State} {events : List Event} (initially : invariant state) :
    machine.EveryStep left state events ↔ machine.EveryStep right state events := by
  induction events generalizing state with
  | nil => exact Iff.rfl
  | cons event events ih =>
      constructor
      · intro every next stepped
        obtain ⟨holds, rest⟩ := every next stepped
        have converted := (agree state event next initially stepped).mp holds
        exact ⟨converted, (ih (carries state event next initially stepped converted)).mp rest⟩
      · intro every next stepped
        obtain ⟨holds, rest⟩ := every next stepped
        have converted := (agree state event next initially stepped).mpr holds
        exact ⟨converted, (ih (carries state event next initially stepped holds)).mpr rest⟩

theorem everyStep_of_invariant {invariant : State → Prop} {holds : State → Event → State → Prop}
    (preserves : ∀ state event next, invariant state → machine.step state event = some next →
      invariant next)
    (implies : ∀ state event next, invariant state → machine.step state event = some next →
      holds state event next)
    {state : State} {events : List Event} (initially : invariant state) :
    machine.EveryStep holds state events := by
  induction events generalizing state with
  | nil => trivial
  | cons event events ih =>
      intro next stepped
      exact ⟨implies state event next initially stepped,
        ih (preserves state event next initially stepped)⟩

/-- What is assumed of every step may help the invariant along. -/
theorem EveryStep.of_invariant {invariant : State → Prop}
    {assumed holds : State → Event → State → Prop}
    (preserves : ∀ state event next, invariant state → machine.step state event = some next →
      assumed state event next → invariant next)
    (implies : ∀ state event next, invariant state → machine.step state event = some next →
      holds state event next)
    {state : State} {events : List Event} (initially : invariant state)
    (every : machine.EveryStep assumed state events) : machine.EveryStep holds state events := by
  induction events generalizing state with
  | nil => trivial
  | cons event events ih =>
      intro next stepped
      obtain ⟨now, rest⟩ := every next stepped
      exact ⟨implies state event next initially stepped,
        ih (preserves state event next initially stepped now) rest⟩

end Machine
