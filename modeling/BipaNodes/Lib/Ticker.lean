import Mathlib.Algebra.Group.Basic
import Mathlib.Algebra.Order.Monoid.Canonical.Defs
import Mathlib.Data.List.Chain

/-!
# Periodic timers

A timer whose late ticks push its later deadlines back, over any ordered
monoid of instants and durations.
-/

set_option autoImplicit false

structure Ticker (Time : Type) where
  period : Time
  deadline : Time

namespace Ticker

variable {Time : Type}

def starting (now period : Time) : Ticker Time where
  period := period
  deadline := now

@[simp] theorem period_starting (now period : Time) : (starting now period).period = period := rfl

variable [AddCommMonoid Time] [LinearOrder Time]

/-- When a tick awaited from `now` completes: at once if its deadline has
passed, else at its deadline, where the timer may wake up `late`. -/
def completes (ticker : Ticker Time) (now late : Time) : Time :=
  if ticker.deadline ≤ now then now else ticker.deadline + late

/-- The timer after a tick has completed. A tick later than `tolerance` moves
the deadlines that follow it. -/
def afterTick (tolerance : Time) (ticker : Ticker Time) (completed : Time) : Ticker Time where
  period := ticker.period
  deadline :=
    if ticker.deadline + tolerance < completed then
      completed + ticker.period
    else
      ticker.deadline + ticker.period

variable {ticker : Ticker Time} {now late completed tolerance : Time}

@[simp] theorem period_afterTick : (ticker.afterTick tolerance completed).period =
    ticker.period := rfl

theorem completes_of_passed (passed : ticker.deadline ≤ now) :
    ticker.completes now late = now := by
  rw [completes, if_pos passed]

theorem completes_punctual (early : now ≤ ticker.deadline) :
    ticker.completes now 0 = ticker.deadline := by
  unfold completes
  split
  · rename_i passed
    exact le_antisymm early passed
  · exact add_zero ticker.deadline

theorem deadline_afterTick_of_late (isLate : ticker.deadline + tolerance < completed) :
    (ticker.afterTick tolerance completed).deadline = completed + ticker.period :=
  if_pos isLate

theorem deadline_afterTick_of_onTime (onTime : completed ≤ ticker.deadline + tolerance) :
    (ticker.afterTick tolerance completed).deadline = ticker.deadline + ticker.period :=
  if_neg (not_lt.mpr onTime)

variable [CanonicallyOrderedAdd Time]

theorem le_completes : now ≤ ticker.completes now late := by
  unfold completes
  split
  · exact le_refl now
  · rename_i waits
    exact (not_le.mp waits).le.trans le_self_add

theorem deadline_le_completes : ticker.deadline ≤ ticker.completes now late := by
  unfold completes
  split
  · assumption
  · exact le_self_add

variable [IsOrderedAddMonoid Time]

/-- Deadlines stay a period apart from completions, up to the tolerance. -/
theorem completed_add_period_le :
    completed + ticker.period ≤ (ticker.afterTick tolerance completed).deadline + tolerance := by
  rcases lt_or_ge (ticker.deadline + tolerance) completed with isLate | onTime
  · rw [deadline_afterTick_of_late isLate]
    exact le_self_add
  · rw [deadline_afterTick_of_onTime onTime, add_right_comm]
    exact add_le_add_left onTime ticker.period

omit [CanonicallyOrderedAdd Time] in
theorem deadline_afterTick_le (passed : ticker.deadline ≤ completed) :
    (ticker.afterTick tolerance completed).deadline ≤ completed + ticker.period := by
  rcases lt_or_ge (ticker.deadline + tolerance) completed with isLate | onTime
  · rw [deadline_afterTick_of_late isLate]
  · rw [deadline_afterTick_of_onTime onTime]
    exact add_le_add_left passed ticker.period

end Ticker

/-!
# Chains of instants
-/

section

variable {Item Time : Type} [AddCommMonoid Time] [PartialOrder Time] [IsOrderedAddMonoid Time]
  {instant : Item → Time} {step : Time} {items : List Item} {first last : Item}

theorem List.IsChain.getLast?_le_add
    (chain : (first :: items).IsChain fun earlier later => instant later ≤ instant earlier + step)
    (found : (first :: items).getLast? = some last) :
    instant last ≤ instant first + items.length • step := by
  induction items generalizing first with
  | nil =>
      cases found
      simp
  | cons second items ih =>
      obtain ⟨near, rest⟩ := List.isChain_cons_cons.mp chain
      rw [List.getLast?_cons_cons] at found
      calc
        instant last ≤ instant second + items.length • step := ih rest found
        _ ≤ instant first + step + items.length • step := add_le_add_left near _
        _ = instant first + (second :: items).length • step := by
            rw [List.length_cons, succ_nsmul', add_assoc]

/-- Where neighbours are at most a step apart, the last of a list is at most as
many steps after an item as there are items in between. -/
theorem List.IsChain.getLast?_le_getElem?_add {position : Nat}
    (chain : items.IsChain fun earlier later => instant later ≤ instant earlier + step)
    (found : items[position]? = some first) (ends : items.getLast? = some last) :
    instant last ≤ instant first + (items.length - 1 - position) • step := by
  induction items generalizing position with
  | nil => cases found
  | cons head items ih =>
      cases position with
      | zero =>
          cases found
          exact chain.getLast?_le_add ends
      | succ position =>
          cases items with
          | nil => simp at found
          | cons second items =>
              rw [List.getLast?_cons_cons] at ends
              have rest := ih chain.tail found ends
              rwa [List.length_cons, Nat.add_sub_cancel, Nat.sub_succ', Nat.sub_right_comm]

end
