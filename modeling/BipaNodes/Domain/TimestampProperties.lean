import BipaNodes.Domain.Format
import BipaNodes.Lib.Gregorian
import Mathlib.Tactic.Linarith

/-!
# Instants shown on the calendar

`formatTimestamp` shows the date and the clock of an instant. The reader takes
the second back from the text as long as the year has four digits.
-/

set_option autoImplicit false

namespace BipaNodes.Domain

open Gregorian

/-!
## Dates of days
-/

/-- A day of a 400-year era as its century, its four-year cycle, its year and
its day. Only the last year of a cycle is a leap year, and of the years that
end a century only the last of the era. -/
private theorem era_split {dayOfEra : Int} (lower : 0 ≤ dayOfEra) (upper : dayOfEra < 146097) :
    ∃ century cycle year day : Int, dayOfEra = 36524 * century + 1461 * cycle + 365 * year + day ∧
      0 ≤ century ∧ century ≤ 3 ∧ 0 ≤ cycle ∧ cycle ≤ 24 ∧ 0 ≤ year ∧ year ≤ 3 ∧
      0 ≤ day ∧ day ≤ 365 ∧ (day = 365 → year = 3 ∧ (cycle ≠ 24 ∨ century = 3)) := by
  obtain ⟨century, dayOfCentury, rfl, centuryLower, centuryUpper, dayLower, dayUpper⟩ :
      ∃ century day, dayOfEra = 36524 * century + day ∧ 0 ≤ century ∧ century ≤ 3 ∧ 0 ≤ day ∧
        (day < 36524 ∨ day = 36524 ∧ century = 3) := by
    by_cases last : dayOfEra = 146096
    · exact ⟨3, 36524, by omega⟩
    · exact ⟨dayOfEra / 36524, dayOfEra % 36524, by omega⟩
  obtain ⟨cycle, dayOfCycle, rfl, cycleLower, cycleUpper, dayLower, dayUpper⟩ :
      ∃ cycle day, dayOfCentury = 1461 * cycle + day ∧ 0 ≤ cycle ∧ cycle ≤ 24 ∧ 0 ≤ day ∧
        (day < 1460 ∨ day = 1460 ∧ (cycle ≠ 24 ∨ century = 3)) :=
    ⟨dayOfCentury / 1461, dayOfCentury % 1461, by omega⟩
  by_cases last : dayOfCycle = 1460
  · exact ⟨century, cycle, 3, 365, by omega⟩
  · exact ⟨century, cycle, dayOfCycle / 365, dayOfCycle % 365, by omega⟩

private theorem yearOfEra_eq {century cycle year day dayOfEra : Int}
    (split : dayOfEra = 36524 * century + 1461 * cycle + 365 * year + day)
    (centuryLower : 0 ≤ century) (centuryUpper : century ≤ 3)
    (cycleLower : 0 ≤ cycle) (cycleUpper : cycle ≤ 24) (yearLower : 0 ≤ year) (yearUpper : year ≤ 3)
    (dayLower : 0 ≤ day) (dayUpper : day ≤ 365)
    (leapDay : day = 365 → year = 3 ∧ (cycle ≠ 24 ∨ century = 3)) :
    (dayOfEra - dayOfEra / 1460 + dayOfEra / 36524 - dayOfEra / 146096) / 365 =
      100 * century + 4 * cycle + year := by
  have centuries : dayOfEra / 36524 - dayOfEra / 146096 = century := by
    by_cases last : dayOfEra = 146096
    · omega
    · have whole : dayOfEra / 36524 = century := by omega
      omega
  -- 25 cycles are 24 days longer than 25 times 1460 days, hence the early carry.
  by_cases carried : 24 * century + cycle + 365 * year + day < 1460
  · have cycles : dayOfEra / 1460 = 25 * century + cycle := by omega
    omega
  · have cycles : dayOfEra / 1460 = 25 * century + cycle + 1 := by omega
    omega

/-- The leap years among the years of the era up to this one. -/
private theorem year_quotients {century cycle year : Int} (era : Int) (centuryLower : 0 ≤ century)
    (centuryUpper : century ≤ 3) (cycleLower : 0 ≤ cycle) (cycleUpper : cycle ≤ 24)
    (yearLower : 0 ≤ year) (yearUpper : year ≤ 3) :
    (100 * century + 4 * cycle + year + era * 400) / 4 = 25 * century + cycle + era * 100 ∧
      (100 * century + 4 * cycle + year + era * 400) / 100 = century + era * 4 ∧
      (100 * century + 4 * cycle + year + era * 400) / 400 = era := by
  refine ⟨?_, ?_, ?_⟩ <;> omega

private theorem isLeap_succ {century cycle year : Int} (era : Int) (lastYear : year = 3)
    (cycleLower : 0 ≤ cycle) (cycleUpper : cycle ≤ 24) (cycleOrCentury : cycle ≠ 24 ∨ century = 3) :
    IsLeap (100 * century + 4 * cycle + year + era * 400 + 1) := by
  unfold IsLeap
  omega

/-- Every day is the day of a year that starts in March. -/
private theorem civilFromDays_eq (days : Int) :
    ∃ year dayOfYear : Int, days = daysFromEpoch year 3 1 + dayOfYear ∧
      0 ≤ dayOfYear ∧ dayOfYear ≤ 365 ∧ (dayOfYear = 365 → IsLeap (year + 1)) ∧
      civilFromDays days =
        let monthFromMarch := (5 * dayOfYear + 2) / 153
        let month := if monthFromMarch < 10 then monthFromMarch + 3 else monthFromMarch - 9
        { year := year + (if month ≤ 2 then 1 else 0)
          month
          day := dayOfYear - (153 * monthFromMarch + 2) / 5 + 1 } := by
  have lower : 0 ≤ (days + 719468) % 146097 := Int.emod_nonneg _ (by decide)
  have upper : (days + 719468) % 146097 < 146097 := Int.emod_lt_of_pos _ (by decide)
  obtain ⟨century, cycle, yearOfCycle, day, split, centuryLower, centuryUpper, cycleLower,
    cycleUpper, yearLower, yearUpper, dayLower, dayUpper, leapDay⟩ := era_split lower upper
  have yearOfEra := yearOfEra_eq split centuryLower centuryUpper cycleLower cycleUpper yearLower
    yearUpper dayLower dayUpper leapDay
  obtain ⟨fours, hundreds, fourHundreds⟩ := year_quotients ((days + 719468) / 146097)
    centuryLower centuryUpper cycleLower cycleUpper yearLower yearUpper
  obtain ⟨cycles, centuries, _⟩ := year_quotients 0 centuryLower centuryUpper cycleLower
    cycleUpper yearLower yearUpper
  simp only [Int.zero_mul, Int.add_zero] at cycles centuries
  refine ⟨100 * century + 4 * cycle + yearOfCycle + (days + 719468) / 146097 * 400, day, ?_,
    dayLower, dayUpper, ?_, ?_⟩
  · have eras := Int.emod_add_mul_ediv (days + 719468) 146097
    rw [daysFromEpoch_march, fours, hundreds, fourHundreds]
    linarith
  · intro last
    obtain ⟨lastYear, cycleOrCentury⟩ := leapDay last
    exact isLeap_succ _ lastYear cycleLower cycleUpper cycleOrCentury
  · have dayOfYear : (days + 719468) % 146097 - (365 * (100 * century + 4 * cycle + yearOfCycle) +
        (25 * century + cycle) - century) = day := by
      rw [split]
      ring
    simp only [civilFromDays, yearOfEra, cycles, centuries, dayOfYear]

theorem civilFromDays_valid (days : Int) :
    let date := civilFromDays days
    ValidDate date.year date.month.toNat date.day.toNat ∧
      daysFromEpoch date.year date.month.toNat date.day.toNat = days := by
  obtain ⟨year, dayOfYear, split, lower, upper, leapDay, date⟩ := civilFromDays_eq days
  rw [date]
  dsimp only
  obtain ⟨monthFromMarch, months⟩ : ∃ monthFromMarch, (5 * dayOfYear + 2) / 153 = monthFromMarch :=
    ⟨_, rfl⟩
  have monthLower : 0 ≤ monthFromMarch := by omega
  have monthUpper : monthFromMarch ≤ 11 := by omega
  rw [months]
  by_cases sameYear : monthFromMarch < 10
  · rw [if_pos sameYear, if_neg (by omega), Int.add_zero]
    constructor
    · refine ⟨by omega, by omega, by omega, ?_⟩
      interval_cases monthFromMarch <;> simp [daysInMonth] <;> omega
    · rw [daysFromEpoch_fromMarch _ _ (by omega) (by omega)]
      omega
  · rw [if_neg sameYear, if_pos (by omega)]
    constructor
    · refine ⟨by omega, by omega, by omega, ?_⟩
      by_cases leap : IsLeap (year + 1) <;>
        interval_cases monthFromMarch <;> simp [daysInMonth, leap] at leapDay ⊢ <;> omega
    · rw [daysFromEpoch_beforeMarch _ _ (by omega) (by omega)]
      omega

/-- Only these days have a year of four digits. -/
theorem civilFromDays_year_iff (days : Int) :
    0 ≤ (civilFromDays days).year ∧ (civilFromDays days).year ≤ 9999 ↔
      daysToYear 0 ≤ days ∧ days < daysToYear 10000 := by
  obtain ⟨valid, sameDays⟩ := civilFromDays_valid days
  obtain ⟨lower, upper⟩ := daysFromEpoch_bounds valid
  rw [sameDays] at lower upper
  constructor
  · intro digits
    have fromZero := daysToYear_mono digits.1
    have toLast : daysToYear ((civilFromDays days).year + 1) ≤ daysToYear 10000 :=
      daysToYear_mono (by omega)
    omega
  · intro range
    constructor
    · by_contra negative
      have earlier : daysToYear ((civilFromDays days).year + 1) ≤ daysToYear 0 :=
        daysToYear_mono (by omega)
      omega
    · by_contra large
      have later : daysToYear 10000 ≤ daysToYear (civilFromDays days).year :=
        daysToYear_mono (by omega)
      omega

/-!
## Texts of instants
-/

theorem yearDigits_four {year : Int} (four : 0 ≤ year ∧ year ≤ 9999) :
    yearDigits year = Decimal.padded 4 year.toNat :=
  if_pos four

theorem yearDigits_signed {year : Int} (notFour : ¬(0 ≤ year ∧ year ≤ 9999)) :
    yearDigits year = (if year < 0 then '-' else '+') :: Decimal.padded 4 year.natAbs :=
  if_neg notFour

theorem yearDigits_injective : Function.Injective yearDigits := by
  intro left right same
  have notPadded {sign : Char} {year : Nat} {digits : List Char} (notDigit : sign.isDigit = false)
      (text : Decimal.padded 4 year = sign :: digits) : False := by
    have member := Decimal.allDigits_padded 4 year sign (text ▸ List.mem_cons_self)
    rw [notDigit] at member
    cases member
  have signs (year : Int) : (if year < 0 then '-' else '+').isDigit = false := by
    split <;> decide
  by_cases leftFour : 0 ≤ left ∧ left ≤ 9999 <;> by_cases rightFour : 0 ≤ right ∧ right ≤ 9999
  · rw [yearDigits_four leftFour, yearDigits_four rightFour] at same
    have values := congrArg (Nat.ofDigitChars 10 · 0) same
    simp only [Decimal.ofDigitChars_padded] at values
    omega
  · rw [yearDigits_four leftFour, yearDigits_signed rightFour] at same
    exact (notPadded (signs right) same).elim
  · rw [yearDigits_signed leftFour, yearDigits_four rightFour] at same
    exact (notPadded (signs left) same.symm).elim
  · rw [yearDigits_signed leftFour, yearDigits_signed rightFour] at same
    obtain ⟨sameSign, digits⟩ := List.cons.inj same
    have values := congrArg (Nat.ofDigitChars 10 · 0) digits
    simp only [Decimal.ofDigitChars_padded] at values
    by_cases leftNegative : left < 0 <;> by_cases rightNegative : right < 0 <;>
      simp [leftNegative, rightNegative] at sameSign <;> omega

/-- The fields of the clock name the second of the day. -/
private theorem clock_eq (secs : Int) :
    secs = secs / 86400 * 86400 + ((secs % 86400).toNat / 3600 * 3600 +
      (secs % 86400).toNat / 60 % 60 * 60 + (secs % 86400).toNat % 60 : Nat) := by
  omega

theorem formatTimestamp_eq {instant : DateTime} (wholeSecond : instant.nanos = 0) :
    formatTimestamp instant = String.ofList
      (yearDigits (civilFromDays (instant.secs / 86400)).year ++
        '-' :: Decimal.padded 2 (civilFromDays (instant.secs / 86400)).month.toNat ++
        '-' :: Decimal.padded 2 (civilFromDays (instant.secs / 86400)).day.toNat ++
        'T' :: Decimal.padded 2 ((instant.secs % 86400).toNat / 3600) ++
        ':' :: Decimal.padded 2 ((instant.secs % 86400).toNat / 60 % 60) ++
        ':' :: Decimal.padded 2 ((instant.secs % 86400).toNat % 60) ++ ['Z']) := by
  unfold formatTimestamp
  rw [wholeSecond]
  rfl

private theorem month_day_lt {year : Int} {month day : Nat} (valid : ValidDate year month day) :
    month < 10 ^ 2 ∧ day < 10 ^ 2 := by
  have monthLength := daysInMonth_le year month
  have monthLe := valid.month_le
  have dayLe := valid.day_le
  omega

theorem readDateTime_formatTimestamp {instant : DateTime} (wholeSecond : instant.nanos = 0)
    (lower : daysToYear 0 ≤ instant.secs / 86400)
    (upper : instant.secs / 86400 < daysToYear 10000) :
    readDateTime (formatTimestamp instant) = some instant.secs := by
  have year := (civilFromDays_year_iff (instant.secs / 86400)).mpr ⟨lower, upper⟩
  obtain ⟨valid, sameDays⟩ := civilFromDays_valid (instant.secs / 86400)
  obtain ⟨monthLt, dayLt⟩ := month_day_lt valid
  have clock := clock_eq instant.secs
  have sameYear : ((civilFromDays (instant.secs / 86400)).year.toNat : Int) =
      (civilFromDays (instant.secs / 86400)).year := Int.toNat_of_nonneg year.1
  have clockLt : (instant.secs % 86400).toNat < 86400 := by omega
  rw [formatTimestamp_eq wholeSecond, yearDigits_four year, readDateTime]
  simp only [String.toList_ofList, List.append_assoc, List.cons_append]
  rw [readField_padded (by decide) (by omega)]
  simp only [Option.bind_eq_bind, Option.bind_some, readMark_self]
  rw [readField_padded (by decide) monthLt]
  simp only [Option.bind_some, readMark_self]
  rw [readField_padded (by decide) dayLt]
  simp only [Option.bind_some, readMark_self]
  rw [readField_padded (by decide) (by omega)]
  simp only [Option.bind_some, readMark_self]
  rw [readField_padded (by decide) (by omega)]
  simp only [Option.bind_some, readMark_self]
  rw [readField_padded (by decide) (by omega)]
  simp only [Option.bind_some, readMark_self, sameYear]
  rw [if_pos ⟨trivial, valid, by omega, by omega, by omega⟩, sameDays, ← clock]

private theorem field_inj {mark : Char} {left right : List Char} {value other : Nat}
    (valueLt : value < 10 ^ 2) (otherLt : other < 10 ^ 2)
    (same : left ++ mark :: Decimal.padded 2 value = right ++ mark :: Decimal.padded 2 other) :
    left = right ∧ value = other := by
  have lengths : (mark :: Decimal.padded 2 value).length =
      (mark :: Decimal.padded 2 other).length := by
    rw [List.length_cons, List.length_cons, Decimal.length_padded (by decide) valueLt,
      Decimal.length_padded (by decide) otherLt]
  obtain ⟨sameFront, sameField⟩ := List.append_inj' same lengths
  have values := congrArg (Nat.ofDigitChars 10 · 0) (List.cons.inj sameField).2
  simp only [Decimal.ofDigitChars_padded] at values
  exact ⟨sameFront, values⟩

/-- No two seconds share a text, whatever their years. -/
theorem formatTimestamp_injective {left right : DateTime} (leftWhole : left.nanos = 0)
    (rightWhole : right.nanos = 0) (same : formatTimestamp left = formatTimestamp right) :
    left = right := by
  obtain ⟨leftDate, _⟩ := civilFromDays_valid (left.secs / 86400)
  obtain ⟨rightDate, _⟩ := civilFromDays_valid (right.secs / 86400)
  obtain ⟨leftMonth, leftDay⟩ := month_day_lt leftDate
  obtain ⟨rightMonth, rightDay⟩ := month_day_lt rightDate
  have leftClock : (left.secs % 86400).toNat < 86400 := by omega
  have rightClock : (right.secs % 86400).toNat < 86400 := by omega
  rw [formatTimestamp_eq leftWhole, formatTimestamp_eq rightWhole, String.ofList_inj] at same
  obtain ⟨same, second⟩ := field_inj (by omega) (by omega) (List.append_inj' same rfl).1
  obtain ⟨same, minute⟩ := field_inj (by omega) (by omega) same
  obtain ⟨same, hour⟩ := field_inj (by omega) (by omega) same
  obtain ⟨same, day⟩ := field_inj leftDay rightDay same
  obtain ⟨same, month⟩ := field_inj leftMonth rightMonth same
  have year := yearDigits_injective same
  have days : left.secs / 86400 = right.secs / 86400 := by
    have leftDays := (civilFromDays_valid (left.secs / 86400)).2
    have rightDays := (civilFromDays_valid (right.secs / 86400)).2
    rw [← leftDays, ← rightDays, year, month, day]
  have clock : (left.secs % 86400).toNat = (right.secs % 86400).toNat := by omega
  apply DateTime.ext
  · rw [clock_eq left.secs, clock_eq right.secs, days, clock]
  · rw [leftWhole, rightWhole]

end BipaNodes.Domain
