import BipaNodes.Importer.Task
import BipaNodes.Lib.Ticker
import BipaNodes.Lib.Time
import Mathlib.Algebra.Order.Group.Nat

/-!
# The import schedule

`Importer::run` before cancellation, as the instants at which its imports start
and finish.
-/

set_option autoImplicit false

namespace BipaNodes.Importer

/-- `IMPORT_INTERVAL_SECS` is a positive number of seconds. -/
structure ImportInterval where
  length : Nanos
  positive : Nanos.seconds 1 ≤ length

/-- How far behind its deadline a tick may complete without moving the next. -/
def tickTolerance : Nanos := Nanos.millis 5

/-- What the loop does not decide about an iteration: how late the timer wakes
it, and how long its import takes and how it ends. -/
structure Iteration where
  late : Nanos
  duration : Nanos
  taskEnd : TaskEnd
  deriving DecidableEq, Repr

structure Import where
  /-- The deadline of the tick before the import. -/
  deadline : Nanos
  start : Nanos
  finish : Nanos
  logged : LogLevel × String
  deriving DecidableEq, Repr

def iterate (ticker : Ticker Nanos) (now : Nanos) (iteration : Iteration) : Import where
  deadline := ticker.deadline
  start := ticker.completes now iteration.late
  finish := ticker.completes now iteration.late + iteration.duration
  logged := logResult iteration.taskEnd.result

def loop (ticker : Ticker Nanos) (now : Nanos) : List Iteration → List Import
  | [] => []
  | iteration :: iterations =>
      let current := iterate ticker now iteration
      current :: loop (ticker.afterTick tickTolerance current.start) current.finish iterations

def run (interval : ImportInterval) (now : Nanos) (iterations : List Iteration) : List Import :=
  loop (Ticker.starting now interval.length) now iterations

end BipaNodes.Importer
