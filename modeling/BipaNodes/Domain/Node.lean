import Mathlib.Data.Int.Basic

/-!
# Domain values

The instants and nodes that every other layer passes around. Values are kept
raw and typed; formatting happens at the edge.
-/

set_option autoImplicit false

namespace BipaNodes.Domain

/-- Unix second of -262143-01-01T00:00:00Z, chrono's earliest instant. -/
def minUnixSecs : Int := -8334601228800

/-- Unix second of +262142-12-31T23:59:59Z, chrono's latest whole second. -/
def maxUnixSecs : Int := 8210266876799

/-- `chrono::DateTime<Utc>`: the second, and the nanoseconds past it. During a
leap second the nanoseconds run on to just below two seconds. -/
structure DateTime where
  secs : Int
  nanos : Nat
  secs_ge : minUnixSecs ≤ secs
  secs_le : secs ≤ maxUnixSecs
  nanos_lt : nanos < 2000000000
  deriving DecidableEq, Repr

@[ext] theorem DateTime.ext {left right : DateTime} (secs : left.secs = right.secs)
    (nanos : left.nanos = right.nanos) : left = right := by
  cases left
  cases right
  simp_all

/-- `DateTime::from_timestamp`: `none` outside the representable range. -/
def DateTime.fromTimestamp (secs : Int) (nanos : Nat) : Option DateTime :=
  if range : minUnixSecs ≤ secs ∧ secs ≤ maxUnixSecs ∧ nanos < 2000000000 then
    some ⟨secs, nanos, range.1, range.2.1, range.2.2⟩
  else
    none

theorem DateTime.fromTimestamp_eq_some {secs : Int} {nanos : Nat} {instant : DateTime}
    (accepted : DateTime.fromTimestamp secs nanos = some instant) :
    instant.secs = secs ∧ instant.nanos = nanos := by
  unfold DateTime.fromTimestamp at accepted
  split at accepted
  · cases accepted
    exact ⟨rfl, rfl⟩
  · cases accepted

theorem DateTime.fromTimestamp_self (instant : DateTime) :
    DateTime.fromTimestamp instant.secs instant.nanos = some instant := by
  unfold DateTime.fromTimestamp
  rw [dif_pos ⟨instant.secs_ge, instant.secs_le, instant.nanos_lt⟩]

/-- A Lightning Network node as the service understands it. -/
structure Node where
  publicKey : String
  «alias» : String
  capacitySats : UInt64
  firstSeen : DateTime
  deriving DecidableEq, Repr

/-- A node that shows up in the examples of later modules. -/
def sampleNode (publicKey : String) : Node where
  publicKey
  «alias» := "ACINQ"
  capacitySats := 36010516297
  firstSeen := ⟨1522941222, 0, by decide, by decide, by decide⟩

inductive DomainError where
  | invalidTimestamp (secs : Int)
  deriving DecidableEq, Repr

end BipaNodes.Domain
