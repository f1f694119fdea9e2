import BipaNodes.Lib.Decimal

/-!
# The proleptic Gregorian calendar

Days counted from 1970-01-01 as the lengths of the years and months between,
and the reading of date-times of the shape YYYY-MM-DDTHH:MM:SSZ.
-/

set_option autoImplicit false

namespace Gregorian

def IsLeap (year : Int) : Prop := year % 4 = 0 ∧ (year % 100 ≠ 0 ∨ year % 400 = 0)

instance (year : Int) : Decidable (IsLeap year) := inferInstanceAs (Decidable (_ ∧ _))

def daysInYear (year : Int) : Int := if IsLeap year then 366 else 365

def daysInMonth (year : Int) (month : Nat) : Nat :=
  match month with
  | 2 => if IsLeap year then 29 else 28
  | 4 | 6 | 9 | 11 => 30
  | _ => 31

theorem daysInMonth_le (year : Int) (month : Nat) : daysInMonth year month ≤ 31 := by
  unfold daysInMonth
  split
  · split <;> decide
  all_goals decide

/-- Leap years from year 1 up to, but not including, `year`. -/
def leapYearsBefore (year : Int) : Int := (year - 1) / 4 - (year - 1) / 100 + (year - 1) / 400

/-- Days from the start of 1970 to the start of `year`. -/
def daysToYear (year : Int) : Int :=
  365 * (year - 1970) + (leapYearsBefore year - leapYearsBefore 1970)

def daysBeforeMonth (year : Int) (month : Nat) : Nat :=
  ((List.range (month - 1)).map fun earlier => daysInMonth year (earlier + 1)).sum

structure ValidDate (year : Int) (month day : Nat) : Prop where
  month_pos : 1 ≤ month
  month_le : month ≤ 12
  day_pos : 1 ≤ day
  day_le : day ≤ daysInMonth year month

instance (year : Int) (month day : Nat) : Decidable (ValidDate year month day) :=
  decidable_of_iff (1 ≤ month ∧ month ≤ 12 ∧ 1 ≤ day ∧ day ≤ daysInMonth year month)
    ⟨fun valid => ⟨valid.1, valid.2.1, valid.2.2.1, valid.2.2.2⟩,
      fun valid => ⟨valid.month_pos, valid.month_le, valid.day_pos, valid.day_le⟩⟩

def daysFromEpoch (year : Int) (month day : Nat) : Int :=
  daysToYear year + daysBeforeMonth year month + (day - 1)

theorem daysToYear_succ (year : Int) :
    daysToYear (year + 1) = daysToYear year + daysInYear year := by
  unfold daysToYear daysInYear leapYearsBefore IsLeap
  split_ifs <;> omega

theorem daysToYear_mono {earlier later : Int} (le : earlier ≤ later) :
    daysToYear earlier ≤ daysToYear later := by
  unfold daysToYear leapYearsBefore
  omega

theorem daysBeforeMonth_succ (year : Int) {month : Nat} (positive : 1 ≤ month) :
    daysBeforeMonth year (month + 1) = daysBeforeMonth year month + daysInMonth year month := by
  obtain ⟨earlier, rfl⟩ : ∃ earlier, month = earlier + 1 := ⟨month - 1, by omega⟩
  rw [daysBeforeMonth, daysBeforeMonth, Nat.add_sub_cancel, Nat.add_sub_cancel,
    List.range_succ, List.map_append, List.sum_append, List.map_singleton, List.sum_singleton]

theorem daysBeforeMonth_mono (year : Int) {earlier later : Nat} (positive : 1 ≤ earlier)
    (le : earlier ≤ later) : daysBeforeMonth year earlier ≤ daysBeforeMonth year later := by
  induction later, le using Nat.le_induction with
  | base => exact le_rfl
  | succ later le ih =>
      rw [daysBeforeMonth_succ year (le_trans positive le)]
      exact le_trans ih (Nat.le_add_right _ _)

/-- The twelve months fill the year. -/
theorem daysBeforeMonth_thirteen (year : Int) :
    (daysBeforeMonth year 13 : Int) = daysInYear year := by
  by_cases leap : IsLeap year <;>
    simp [daysBeforeMonth, daysInMonth, daysInYear, leap, List.range, List.range.loop]

/-- A valid date lies within its year. -/
theorem daysFromEpoch_bounds {year : Int} {month day : Nat} (valid : ValidDate year month day) :
    daysToYear year ≤ daysFromEpoch year month day ∧
      daysFromEpoch year month day < daysToYear (year + 1) := by
  have withinMonth := daysBeforeMonth_succ year valid.month_pos
  have withinYear : daysBeforeMonth year (month + 1) ≤ daysBeforeMonth year 13 :=
    daysBeforeMonth_mono year (Nat.le_add_left _ _) (Nat.succ_le_succ valid.month_le)
  have yearLength := daysBeforeMonth_thirteen year
  have dayPos := valid.day_pos
  have dayLe := valid.day_le
  rw [daysToYear_succ, daysFromEpoch]
  omega

/-!
## Years counted from March
-/

theorem daysBeforeMonth_march (year : Int) :
    (daysBeforeMonth year 3 : Int) = daysInYear year - 306 := by
  by_cases leap : IsLeap year <;>
    simp [daysBeforeMonth, daysInMonth, daysInYear, leap, List.range, List.range.loop]

/-- The first of March of `year`. The leap day of the year lies before it. -/
theorem daysFromEpoch_march (year : Int) :
    daysFromEpoch year 3 1 = 365 * year + year / 4 - year / 100 + year / 400 - 719468 := by
  have yearEnd := daysToYear_succ year
  have beforeMarch := daysBeforeMonth_march year
  unfold daysFromEpoch
  unfold daysToYear leapYearsBefore at yearEnd ⊢
  omega

/-- From March on, no month depends on the year. -/
theorem daysFromEpoch_fromMarch (year : Int) {month : Nat} (day : Nat) (lower : 3 ≤ month)
    (upper : month ≤ 12) :
    daysFromEpoch year month day =
      daysFromEpoch year 3 1 + (153 * (month - 3 : Nat) + 2) / 5 + (day - 1) := by
  have beforeMarch := daysBeforeMonth_march year
  unfold daysFromEpoch
  interval_cases month <;>
    simp [daysBeforeMonth, daysInMonth, List.range, List.range.loop] at beforeMarch ⊢ <;> omega

theorem daysFromEpoch_beforeMarch (year : Int) {month : Nat} (day : Nat) (lower : 1 ≤ month)
    (upper : month ≤ 2) :
    daysFromEpoch (year + 1) month day =
      daysFromEpoch year 3 1 + (153 * (month + 9 : Nat) + 2) / 5 + (day - 1) := by
  have march := daysBeforeMonth_march year
  have yearEnd := daysToYear_succ year
  unfold daysFromEpoch
  interval_cases month <;>
    simp [daysBeforeMonth, daysInMonth, List.range, List.range.loop] at march yearEnd ⊢ <;> omega

/-!
## Reading date-times
-/

def readField (width : Nat) (text : List Char) : Option (Nat × List Char) :=
  if (text.take width).length = width ∧ Decimal.AllDigits (text.take width) then
    some (Nat.ofDigitChars 10 (text.take width) 0, text.drop width)
  else
    none

def readMark (mark : Char) (text : List Char) : Option (List Char) :=
  match text with
  | [] => none
  | char :: rest => if char = mark then some rest else none

/-- The second since 1970 that a text of the shape YYYY-MM-DDTHH:MM:SSZ denotes.
Other texts, and fields out of range, are not read. -/
def readDateTime (text : String) : Option Int := do
  let (year, rest) ← readField 4 text.toList
  let rest ← readMark '-' rest
  let (month, rest) ← readField 2 rest
  let rest ← readMark '-' rest
  let (day, rest) ← readField 2 rest
  let rest ← readMark 'T' rest
  let (hour, rest) ← readField 2 rest
  let rest ← readMark ':' rest
  let (minute, rest) ← readField 2 rest
  let rest ← readMark ':' rest
  let (second, rest) ← readField 2 rest
  let rest ← readMark 'Z' rest
  if rest = [] ∧ ValidDate year month day ∧ hour < 24 ∧ minute < 60 ∧ second < 60 then
    some (daysFromEpoch year month day * 86400 + (hour * 3600 + minute * 60 + second : Nat))
  else
    none

theorem readField_padded {width value : Nat} (positive : 0 < width) (fits : value < 10 ^ width)
    (rest : List Char) :
    readField width (Decimal.padded width value ++ rest) = some (value, rest) := by
  have length := Decimal.length_padded positive fits
  rw [readField, List.take_left' length, List.drop_left' length, Decimal.ofDigitChars_padded,
    if_pos ⟨length, Decimal.allDigits_padded width value⟩]

theorem readMark_self (mark : Char) (rest : List Char) :
    readMark mark (mark :: rest) = some rest :=
  if_pos rfl

theorem readField_eq_some {width value : Nat} {text rest : List Char}
    (read : readField width text = some (value, rest)) :
    value < 10 ^ width ∧ text.length = width + rest.length := by
  unfold readField at read
  split at read
  · next digits =>
      obtain ⟨length, all⟩ := digits
      cases read
      have fits := Decimal.ofDigitChars_lt all
      rw [length] at fits
      refine ⟨fits, ?_⟩
      rw [List.length_take] at length
      rw [List.length_drop]
      omega
  · cases read

theorem readMark_eq_some {mark : Char} {text rest : List Char}
    (read : readMark mark text = some rest) : text = mark :: rest := by
  cases text with
  | nil => cases read
  | cons char text =>
      obtain ⟨same, rest⟩ := Option.ite_none_right_eq_some.mp read
      rw [same, Option.some.inj rest]

theorem readDateTime_eq_some {text : String} {secs : Int}
    (read : readDateTime text = some secs) :
    text.length = 20 ∧ ∃ year month day hour minute second : Nat,
      year ≤ 9999 ∧ ValidDate year month day ∧ hour < 24 ∧ minute < 60 ∧ second < 60 ∧
      secs = daysFromEpoch year month day * 86400 + (hour * 3600 + minute * 60 + second : Nat) := by
  simp only [readDateTime, Option.bind_eq_bind, Option.bind_eq_some_iff, Prod.exists] at read
  obtain ⟨year, _, yearRead, _, yearMark, month, _, monthRead, _, monthMark, day, _, dayRead, _,
    dayMark, hour, _, hourRead, _, hourMark, minute, _, minuteRead, _, minuteMark, second, _,
    secondRead, rest, secondMark, checked⟩ := read
  split at checked
  · next valid =>
      obtain ⟨atEnd, date, hourLt, minuteLt, secondLt⟩ := valid
      cases checked
      obtain ⟨yearLt, yearLength⟩ := readField_eq_some yearRead
      have monthLength := (readField_eq_some monthRead).2
      have dayLength := (readField_eq_some dayRead).2
      have hourLength := (readField_eq_some hourRead).2
      have minuteLength := (readField_eq_some minuteRead).2
      have secondLength := (readField_eq_some secondRead).2
      obtain rfl := readMark_eq_some yearMark
      obtain rfl := readMark_eq_some monthMark
      obtain rfl := readMark_eq_some dayMark
      obtain rfl := readMark_eq_some hourMark
      obtain rfl := readMark_eq_some minuteMark
      obtain rfl := readMark_eq_some secondMark
      simp only [List.length_cons, atEnd, List.length_nil] at *
      refine ⟨?_, year, month, day, hour, minute, second, by omega, date, hourLt, minuteLt,
        secondLt, rfl⟩
      rw [← String.length_toList]
      omega
  · cases checked

end Gregorian
