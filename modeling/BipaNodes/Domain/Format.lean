import BipaNodes.Domain.Node
import BipaNodes.Lib.Decimal
import Mathlib.Tactic.NormNum

/-!
# Presentation of domain values

Conversions between raw source values and the texts shown by the API.
-/

set_option autoImplicit false

namespace BipaNodes.Domain

/-!
## Capacities
-/

def satsPerBtc : UInt64 := 100000000

/-- Formats a capacity in satoshis as a BTC amount with exactly 8 decimals.
Integer division and remainder keep the result exact for every `u64`. -/
def formatBtc (sats : UInt64) : String :=
  String.ofList (Nat.toDigits 10 (sats / satsPerBtc).toNat ++
    '.' :: Decimal.padded 8 (sats % satsPerBtc).toNat)

/-- The text denotes exactly the amount: nothing is rounded or shifted. -/
theorem read_formatBtc (sats : UInt64) :
    Decimal.read (formatBtc sats) = some ((sats.toNat : ℚ) / 10 ^ 8) := by
  have split : 100000000 * (sats.toNat / 100000000) + sats.toNat % 100000000 = sats.toNat :=
    Nat.div_add_mod sats.toNat 100000000
  have whole : (sats / satsPerBtc).toNat = sats.toNat / 100000000 := UInt64.toNat_div ..
  have fraction : (sats % satsPerBtc).toNat = sats.toNat % 100000000 := UInt64.toNat_mod ..
  rw [formatBtc, Decimal.read_point (by decide) (by rw [fraction]; omega), whole, fraction]
  congr 1
  have cast : (100000000 : ℚ) * (sats.toNat / 100000000 : ℕ) + (sats.toNat % 100000000 : ℕ) =
      sats.toNat := by
    exact_mod_cast split
  rw [← cast]
  norm_num
  ring

/-!
## Instants
-/

/-- Converts unix seconds into a UTC instant, rejecting values outside
chrono's representable range. -/
def timestampFromUnix (secs : Int64) : Except DomainError DateTime :=
  match DateTime.fromTimestamp secs.toInt 0 with
  | some instant => .ok instant
  | none => .error (.invalidTimestamp secs.toInt)

theorem timestampFromUnix_ok_iff {secs : Int64} {instant : DateTime} :
    timestampFromUnix secs = .ok instant ↔ instant.secs = secs.toInt ∧ instant.nanos = 0 := by
  constructor
  · intro accepted
    unfold timestampFromUnix at accepted
    split at accepted
    · rename_i built
      cases accepted
      exact DateTime.fromTimestamp_eq_some built
    · cases accepted
  · rintro ⟨sameSecs, wholeSecond⟩
    have built := DateTime.fromTimestamp_self instant
    rw [sameSecs, wholeSecond] at built
    rw [timestampFromUnix, built]

structure CivilDate where
  year : Int
  month : Int
  day : Int
  deriving DecidableEq, Repr

/-- The calendar date that lies `days` days after 1970-01-01. Years are counted
from March within 400-year eras, which puts the leap day last. -/
def civilFromDays (days : Int) : CivilDate :=
  let shifted := days + 719468
  let era := shifted / 146097
  let dayOfEra := shifted % 146097
  let yearOfEra := (dayOfEra - dayOfEra / 1460 + dayOfEra / 36524 - dayOfEra / 146096) / 365
  let dayOfYear := dayOfEra - (365 * yearOfEra + yearOfEra / 4 - yearOfEra / 100)
  let monthFromMarch := (5 * dayOfYear + 2) / 153
  let month := if monthFromMarch < 10 then monthFromMarch + 3 else monthFromMarch - 9
  { year := yearOfEra + era * 400 + (if month ≤ 2 then 1 else 0)
    month
    day := dayOfYear - (153 * monthFromMarch + 2) / 5 + 1 }

/-- RFC 3339 year: four digits, or an explicit sign outside 0..9999. -/
def yearDigits (year : Int) : List Char :=
  if 0 ≤ year ∧ year ≤ 9999 then
    Decimal.padded 4 year.toNat
  else
    (if year < 0 then '-' else '+') :: Decimal.padded 4 year.natAbs

/-- `to_rfc3339_opts(SecondsFormat::Secs, true)`. A leap second is written as
second 60. -/
def formatTimestamp (instant : DateTime) : String :=
  let date := civilFromDays (instant.secs / 86400)
  let clock := (instant.secs % 86400).toNat
  let second := clock % 60 + (if 1000000000 ≤ instant.nanos then 1 else 0)
  String.ofList (yearDigits date.year ++
    '-' :: Decimal.padded 2 date.month.toNat ++
    '-' :: Decimal.padded 2 date.day.toNat ++
    'T' :: Decimal.padded 2 (clock / 3600) ++
    ':' :: Decimal.padded 2 (clock / 60 % 60) ++
    ':' :: Decimal.padded 2 second ++ ['Z'])

end BipaNodes.Domain
