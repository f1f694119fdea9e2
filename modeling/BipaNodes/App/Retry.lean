import BipaNodes.Lib.Time
import BipaNodes.Storage.Error
import Mathlib.Algebra.Group.Nat.Defs

/-!
# Retrying with exponential backoff

The loop of `retry`, poll by poll. A biased `select!` polls the cancellation
token before its other branch, and the token may be cancelled between the two.
-/

set_option autoImplicit false

namespace BipaNodes.App

open Storage (MigrateError SqlxError StorageError)

/-!
## Backoff
-/

def u32Max : Nat := 2 ^ 32 - 1

def u64Max : Nat := 2 ^ 64 - 1

/-- `u64::checked_shl`: `none` when the shift is as wide as the type. -/
def checkedShl (value shift : Nat) : Option Nat :=
  if shift < 64 then some (value * 2 ^ shift % 2 ^ 64) else none

def saturatingAdd (left right : Nat) : Nat := min (left + right) u32Max

def maxBackoff : Nat := 30

/-- Seconds before retry number `attempt`, counted from 0. -/
def backoffDelay (attempt : Nat) : Nat :=
  min ((checkedShl 1 attempt).getD u64Max) maxBackoff

/-!
## Classification
-/

def isConnectionError : SqlxError → Bool
  | .io _ | .poolTimedOut | .poolClosed => true
  | _ => false

/-- While connecting, everything except a malformed configuration may be
transient. -/
def isTransientConnectError : StorageError → Bool
  | .database (.configuration _) => false
  | _ => true

def isTransientMigrateError : StorageError → Bool
  | .database error | .migration (.execute error) => isConnectionError error
  | _ => false

/-!
## The loop
-/

/-- What the source leaves to the build and the logging configuration: whether
`+` panics on overflow, and whether the fields of a warning are evaluated. -/
structure Build where
  overflowChecks : Bool
  warnEnabled : Bool
  deriving DecidableEq, Repr

/-- Which branch of a biased `select!` is polled next. -/
inductive Turn where
  | token
  | other
  deriving DecidableEq, Repr

inductive RetryPhase (Value Error : Type) where
  /-- The first `select!`; `started` tells whether this attempt's future has
  been polled. -/
  | attempt (turn : Turn) (started : Bool)
  /-- The second `select!`, with the instant at which the timer fires. -/
  | sleep (turn : Turn) (wake : Nanos)
  | returned (result : Except Error (Option Value))
  | panicked

/-- A call of `retry`, with the attempts it has started and how they ended. -/
structure RetryState (Value Error : Type) where
  phase : RetryPhase Value Error := .attempt .token false
  attempt : Nat := 0
  starts : List Nanos := []
  failures : List (Error × Nanos) := []
  successes : List (Value × Nanos) := []
  /-- An addition to the `u32` counter has exceeded its type. -/
  overflowed : Bool := false

namespace RetryState

variable {Value Error : Type}

/-- Polls `token.cancelled()`: shutdown always wins. -/
def pollToken (cancelled : Bool) (state : RetryState Value Error) :
    Option (RetryState Value Error) :=
  match state.phase with
  | .attempt .token started =>
      if cancelled then
        some { state with phase := .returned (.ok none) }
      else
        some { state with phase := .attempt .other started }
  | .sleep .token wake =>
      if cancelled then
        some { state with phase := .returned (.ok none) }
      else
        some { state with phase := .sleep .other wake }
  | _ => none

/-- The warning of a transient failure shows `attempt + 1`. -/
def logOverflows (build : Build) (state : RetryState Value Error) : Bool :=
  build.warnEnabled && decide (2 ^ 32 ≤ state.attempt + 1)

def fail (build : Build) (isTransient : Error → Bool) (now : Nanos) (error : Error)
    (state : RetryState Value Error) : RetryState Value Error :=
  let failures := state.failures ++ [(error, now)]
  if isTransient error then
    { state with
      failures
      overflowed := state.overflowed || state.logOverflows build
      phase :=
        if build.overflowChecks && state.logOverflows build then
          .panicked
        else
          .sleep .token (now + Nanos.seconds (backoffDelay state.attempt)) }
  else
    { state with failures, phase := .returned (.error error) }

/-- Polls the operation's future, which starts the attempt the first time. -/
def pollOp (build : Build) (isTransient : Error → Bool) (now : Nanos)
    (ready : Option (Except Error Value)) (state : RetryState Value Error) :
    Option (RetryState Value Error) :=
  match state.phase with
  | .attempt .other started =>
      let starts := if started then state.starts else state.starts ++ [now]
      match ready with
      | none => some { state with starts, phase := .attempt .token true }
      | some (.ok value) =>
          some { state with
            starts
            successes := state.successes ++ [(value, now)]
            phase := .returned (.ok (some value)) }
      | some (.error error) => some (fail build isTransient now error { state with starts })
  | _ => none

/-- Polls the backoff timer; when it has fired the loop starts over. -/
def pollTimer (now : Nanos) (state : RetryState Value Error) :
    Option (RetryState Value Error) :=
  match state.phase with
  | .sleep .other wake =>
      if wake ≤ now then
        some { state with
          attempt := saturatingAdd state.attempt 1
          phase := .attempt .token false }
      else
        some { state with phase := .sleep .token wake }
  | _ => none

/-- Time passes only while the task is suspended: during an operation that is
under way, and in a sleep until its timer fires. -/
def mayElapse (now duration : Nanos) (state : RetryState Value Error) : Bool :=
  match state.phase with
  | .attempt .token started => started
  | .sleep .token wake => now + duration ≤ wake
  | _ => false

end RetryState

end BipaNodes.App
