import BipaNodes.Lib.Machine

/-!
# Simulations

A machine simulates another under an abstraction of its states. Each step stands
for a list of steps above, which is empty where nothing above changes.
-/

set_option autoImplicit false

structure Simulation {State Event Spec Action : Type} (concrete : Machine State Event)
    (abstract : Machine Spec Action) where
  invariant : State → Prop
  abstraction : State → Spec
  actions : State → Event → State → List Action
  preserves : ∀ {state event next}, invariant state → concrete.step state event = some next →
    invariant next
  simulates : ∀ {state event next}, invariant state → concrete.step state event = some next →
    abstract.run (abstraction state) (actions state event next) = some (abstraction next)

namespace Simulation

variable {State Event Spec Action : Type} {concrete : Machine State Event}
  {abstract : Machine Spec Action} (simulation : Simulation concrete abstract)

/-- What a run stands for above. -/
def trace : State → List Event → List Action
  | _, [] => []
  | state, event :: events =>
      match concrete.step state event with
      | none => []
      | some next => simulation.actions state event next ++ trace next events

variable {simulation} {state next final : State} {event : Event} {events : List Event}

theorem trace_cons (stepped : concrete.step state event = some next) :
    simulation.trace state (event :: events) =
      simulation.actions state event next ++ simulation.trace next events := by
  rw [trace, stepped]

theorem trace_append {middle : State} {first rest : List Event}
    (ran : concrete.run state first = some middle) :
    simulation.trace state (first ++ rest) =
      simulation.trace state first ++ simulation.trace middle rest := by
  induction first generalizing state with
  | nil =>
      cases ran
      rfl
  | cons event first ih =>
      obtain ⟨next, stepped, ran⟩ := Option.bind_eq_some_iff.mp ran
      rw [List.cons_append, trace_cons stepped, trace_cons stepped, ih ran, List.append_assoc]

/-- Every run below is a run above. -/
theorem run (initially : simulation.invariant state)
    (ran : concrete.run state events = some final) :
    abstract.run (simulation.abstraction state) (simulation.trace state events) =
      some (simulation.abstraction final) := by
  induction events generalizing state with
  | nil =>
      cases ran
      rfl
  | cons event events ih =>
      obtain ⟨next, stepped, ran⟩ := Option.bind_eq_some_iff.mp ran
      rw [trace_cons stepped]
      exact Machine.run_trans (simulation.simulates initially stepped)
        (ih (simulation.preserves initially stepped) ran)

end Simulation
