import BipaNodes.Importer.RunOnce

/-!
# The importer task

Where the loop of `Importer::run` and the task of each iteration can be
suspended.
-/

set_option autoImplicit false

namespace BipaNodes.Importer

inductive TaskEnd where
  | returned (result : Except ImportError ImportOutcome)
  | panicked (message : String)
  deriving DecidableEq, Repr

def TaskEnd.result : TaskEnd → Except ImportError ImportOutcome
  | .returned result => result
  | .panicked message => .error (.panicked message)

inductive TaskPhase where
  | unspawned
  | fetching
  /-- Inside `replace_all`, from BEGIN to the reply of COMMIT. -/
  | replacing
  | ended (taskEnd : TaskEnd)
  deriving DecidableEq, Repr

def TaskPhase.inFlight : TaskPhase → Bool
  | .fetching | .replacing => true
  | _ => false

inductive LoopPhase where
  | notSpawned
  /-- The biased `select!` polls the token first. -/
  | checkToken
  | checkTick
  /-- `select!` has chosen the tick. -/
  | ticked
  | awaiting (iteration : Nat)
  | logging (result : Except ImportError ImportOutcome)
  | stopped
  /-- The task of the loop itself has panicked. -/
  | crashed
  deriving DecidableEq, Repr

/-- The task of the loop is over, or never began. -/
def LoopPhase.Over : LoopPhase → Prop
  | .notSpawned | .stopped | .crashed => True
  | _ => False

/-- The current round of `select!` has passed its check of the token. -/
def LoopPhase.PastCheck : LoopPhase → Prop
  | .checkTick | .ticked => True
  | _ => False

instance (phase : LoopPhase) : Decidable phase.PastCheck := by
  unfold LoopPhase.PastCheck
  split <;> infer_instance

end BipaNodes.Importer
