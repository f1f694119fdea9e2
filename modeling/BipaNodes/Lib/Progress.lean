import BipaNodes.Lib.Machine

/-!
# Progress

A machine whose own events use up a measure comes to an end whatever else
happens, provided it is not stuck before.
-/

set_option autoImplicit false

/-- The own events use the measure up, the others leave it alone, and some own
event is possible until the machine is done. -/
structure Progress {State Event : Type} (machine : Machine State Event) where
  invariant : State → Prop
  own : Event → Prop
  done : State → Prop
  measure : State → Nat
  preserves : ∀ {state event next}, invariant state → machine.step state event = some next →
    invariant next
  bounded : ∀ {state event next}, invariant state → machine.step state event = some next →
    measure next ≤ measure state
  decreases : ∀ {state event next}, invariant state → own event →
    machine.step state event = some next → measure next < measure state
  enabled : ∀ {state}, invariant state → ¬ done state →
    ∃ event next, own event ∧ machine.step state event = some next

namespace Progress

variable {State Event : Type} {machine : Machine State Event} {progress : Progress machine}
  {state final : State} {events : List Event}

theorem run (initially : progress.invariant state)
    (ran : machine.run state events = some final) : progress.invariant final :=
  Machine.run_preserves (fun _ _ _ held stepped => progress.preserves held stepped) initially ran

/-- A run has no more own events than the measure allows. -/
theorem countP_le [DecidablePred progress.own] (initially : progress.invariant state)
    (ran : machine.run state events = some final) :
    events.countP (fun event => progress.own event) + progress.measure final ≤
      progress.measure state := by
  induction events generalizing state with
  | nil =>
      cases ran
      exact Nat.le_of_eq (Nat.zero_add _)
  | cons event events ih =>
      obtain ⟨next, stepped, ran⟩ := Option.bind_eq_some_iff.mp ran
      have rest := ih (progress.preserves initially stepped) ran
      rw [List.countP_cons]
      by_cases isOwn : progress.own event
      · have less := progress.decreases initially isOwn stepped
        simp only [isOwn, decide_true, if_true]
        omega
      · have most := progress.bounded initially stepped
        simp only [isOwn, decide_false, Bool.false_eq_true, if_false]
        omega

/-- Own events alone lead to the end. -/
theorem reaches (initially : progress.invariant state) :
    ∃ events final, machine.run state events = some final ∧ progress.done final ∧
      (∀ event ∈ events, progress.own event) ∧ events.length ≤ progress.measure state := by
  induction amount : progress.measure state using Nat.strongRecOn generalizing state with
  | _ _ ih =>
      by_cases finished : progress.done state
      · exact ⟨[], state, rfl, finished, fun event absent => absurd absent List.not_mem_nil,
          Nat.zero_le _⟩
      · obtain ⟨event, next, isOwn, stepped⟩ := progress.enabled initially finished
        have less := progress.decreases initially isOwn stepped
        obtain ⟨events, final, ran, finished, allOwn, short⟩ :=
          ih (progress.measure next) (amount ▸ less) (progress.preserves initially stepped) rfl
        refine ⟨event :: events, final, ?_, finished, List.forall_mem_cons.mpr ⟨isOwn, allOwn⟩, ?_⟩
        · rw [Machine.run_cons, stepped]
          exact ran
        · rw [List.length_cons]
          omega

/-- However a run goes on, its own events are few, it is not stuck before it is
done, and within the same number it can be brought to the end. -/
theorem terminates [DecidablePred progress.own] {limit : Nat}
    (initially : progress.invariant state) (bound : progress.measure state ≤ limit)
    (ran : machine.run state events = some final) :
    events.countP (fun event => progress.own event) ≤ limit ∧
      (¬ progress.done final → ∃ event next, progress.own event ∧
        machine.step final event = some next) ∧
      ∃ rest last, machine.run final rest = some last ∧ progress.done last ∧
        (∀ event ∈ rest, progress.own event) ∧
        events.countP (fun event => progress.own event) + rest.length ≤ limit := by
  have used := countP_le initially ran
  have atEnd := progress.run initially ran
  obtain ⟨rest, last, ranRest, isDone, allOwn, short⟩ := reaches atEnd
  exact ⟨by omega, progress.enabled atEnd, rest, last, ranRest, isDone, allOwn, by omega⟩

end Progress
