import Mathlib.Data.Rat.Defs
import Mathlib.Tactic.Ring
import Mathlib.Tactic.FieldSimp
import Mathlib.Tactic.IntervalCases
import Mathlib.Algebra.Order.Field.Rat

/-!
# Decimal numerals

Zero-padded decimal digits and the number that a decimal text denotes.
-/

set_option autoImplicit false

namespace Decimal

/-- Decimal digits of `value`, padded on the left with zeros to `width`. -/
def padded (width value : Nat) : List Char :=
  List.replicate (width - (Nat.toDigits 10 value).length) '0' ++ Nat.toDigits 10 value

/-- The number denoted by `digits` or `digits.digits`. -/
def read (text : String) : Option ℚ :=
  let whole := text.toList.takeWhile (· ≠ '.')
  let fraction := (text.toList.dropWhile (· ≠ '.')).drop 1
  if whole ≠ [] ∧ whole.all Char.isDigit ∧ fraction.all Char.isDigit then
    some ((Nat.ofDigitChars 10 (whole ++ fraction) 0 : ℚ) / 10 ^ fraction.length)
  else
    none

theorem toDigits_all_isDigit (value : Nat) :
    (Nat.toDigits 10 value).all Char.isDigit = true := by
  rw [List.all_eq_true]
  intro char member
  exact Nat.isDigit_of_mem_toDigits (by decide) (by decide) member

theorem padded_all_isDigit (width value : Nat) :
    (padded width value).all Char.isDigit = true := by
  rw [padded, List.all_append, toDigits_all_isDigit, Bool.and_true, List.all_replicate]
  split <;> rfl

theorem length_padded {width value : Nat} (positive : 0 < width)
    (fits : value < 10 ^ width) : (padded width value).length = width := by
  have short : (Nat.toDigits 10 value).length ≤ width :=
    (Nat.length_toDigits_le_iff (by decide) positive).mpr fits
  rw [padded, List.length_append, List.length_replicate]
  omega

@[simp] theorem ofDigitChars_padded (width value : Nat) :
    Nat.ofDigitChars 10 (padded width value) 0 = value := by
  rw [padded, Nat.ofDigitChars_append, Nat.ofDigitChars_replicate_zero, Nat.mul_zero,
    Nat.ofDigitChars_ten_toDigits]

/-!
## Digits of a number
-/

def AllDigits (digits : List Char) : Prop := ∀ digit ∈ digits, digit.isDigit = true

instance (digits : List Char) : Decidable (AllDigits digits) :=
  decidable_of_iff (digits.all Char.isDigit = true) List.all_eq_true

theorem AllDigits.tail {digit : Char} {digits : List Char} (all : AllDigits (digit :: digits)) :
    AllDigits digits :=
  fun other member => all other (List.mem_cons_of_mem digit member)

theorem allDigits_toDigits (value : Nat) : AllDigits (Nat.toDigits 10 value) :=
  fun _ member => Nat.isDigit_of_mem_toDigits (by decide) (by decide) member

theorem allDigits_padded (width value : Nat) : AllDigits (padded width value) :=
  List.all_eq_true.mp (padded_all_isDigit width value)

theorem digit_bounds {digit : Char} (isDigit : digit.isDigit = true) :
    48 ≤ digit.toNat ∧ digit.toNat ≤ 57 :=
  Char.isDigit_iff_toNat.mp isDigit

theorem ofDigitChars_cons_zero (digit : Char) (digits : List Char) :
    Nat.ofDigitChars 10 (digit :: digits) 0 =
      10 ^ digits.length * (digit.toNat - 48) + Nat.ofDigitChars 10 digits 0 := by
  rw [Nat.ofDigitChars_cons, Nat.ofDigitChars_eq_ofDigitChars_zero, Nat.mul_zero, Nat.zero_add]
  rfl

theorem ofDigitChars_lt {digits : List Char} (all : AllDigits digits) :
    Nat.ofDigitChars 10 digits 0 < 10 ^ digits.length := by
  induction digits with
  | nil => exact Nat.one_pos
  | cons digit digits ih =>
      obtain ⟨_, upper⟩ := digit_bounds (all digit List.mem_cons_self)
      have rest := ih all.tail
      have leading : 10 ^ digits.length * (digit.toNat - 48) ≤ 10 ^ digits.length * 9 :=
        Nat.mul_le_mul_left _ (by omega)
      rw [ofDigitChars_cons_zero, List.length_cons, Nat.pow_succ]
      omega

/-- As many digits of the same number are the same digits. -/
theorem eq_of_ofDigitChars_eq {left right : List Char} (leftAll : AllDigits left)
    (rightAll : AllDigits right) (lengths : left.length = right.length)
    (same : Nat.ofDigitChars 10 left 0 = Nat.ofDigitChars 10 right 0) : left = right := by
  induction left generalizing right with
  | nil => exact (List.length_eq_zero_iff.mp lengths.symm).symm
  | cons digit left ih =>
      cases right with
      | nil => cases lengths
      | cons other right =>
          have lengths : left.length = right.length := Nat.succ.inj lengths
          have leftRest := ofDigitChars_lt leftAll.tail
          have rightRest := ofDigitChars_lt rightAll.tail
          obtain ⟨digitLower, _⟩ := digit_bounds (leftAll digit List.mem_cons_self)
          obtain ⟨otherLower, _⟩ := digit_bounds (rightAll other List.mem_cons_self)
          rw [ofDigitChars_cons_zero, ofDigitChars_cons_zero, lengths] at same
          rw [lengths] at leftRest
          have positive : 0 < 10 ^ right.length := Nat.pow_pos (by decide)
          have sameDigit : digit.toNat - 48 = other.toNat - 48 := by
            have quotients := congrArg (· / 10 ^ right.length) same
            simpa only [Nat.mul_add_div positive, Nat.div_eq_of_lt leftRest,
              Nat.div_eq_of_lt rightRest, Nat.add_zero] using quotients
          rw [sameDigit] at same
          have sameRest := ih leftAll.tail rightAll.tail lengths (Nat.add_left_cancel same)
          have sameChar : digit = other := Char.toNat_inj.mp (by omega)
          rw [sameChar, sameRest]

theorem padded_ofDigitChars {digits : List Char} {width : Nat} (positive : 0 < width)
    (all : AllDigits digits) (length : digits.length = width) :
    padded width (Nat.ofDigitChars 10 digits 0) = digits := by
  have fits := ofDigitChars_lt all
  rw [length] at fits
  apply eq_of_ofDigitChars_eq (allDigits_padded _ _) all
  · rw [length_padded positive fits, length]
  · exact ofDigitChars_padded _ _

/-- Digits without a leading zero, unless they are the digit zero alone. -/
def Canonical (digits : List Char) : Prop :=
  digits = ['0'] ∨ ∃ leading rest, digits = leading :: rest ∧ leading ≠ '0' ∧ AllDigits digits

theorem Canonical.allDigits {digits : List Char} (canonical : Canonical digits) :
    AllDigits digits := by
  rcases canonical with rfl | leading
  · decide
  · obtain ⟨_, _, _, _, all⟩ := leading
    exact all

theorem toDigits_ofDigitChars {digits : List Char} (canonical : Canonical digits) :
    Nat.toDigits 10 (Nat.ofDigitChars 10 digits 0) = digits := by
  rcases canonical with rfl | leads
  · decide
  · obtain ⟨leading, rest, rfl, nonzero, all⟩ := leads
    have upper := ofDigitChars_lt all
    have lower : 10 ^ rest.length ≤ Nat.ofDigitChars 10 (leading :: rest) 0 := by
      obtain ⟨atLeast, _⟩ := digit_bounds (all leading List.mem_cons_self)
      have notZero : leading.toNat ≠ 48 := fun same => nonzero (Char.toNat_inj.mp same)
      have leads : 10 ^ rest.length * 1 ≤ 10 ^ rest.length * (leading.toNat - 48) :=
        Nat.mul_le_mul_left _ (by omega)
      rw [ofDigitChars_cons_zero]
      omega
    apply eq_of_ofDigitChars_eq (allDigits_toDigits _) all
    · apply le_antisymm
      · exact (Nat.length_toDigits_le_iff (by decide) (Nat.succ_pos _)).mpr upper
      · rw [List.length_cons, Nat.succ_le_iff, ← Nat.not_le]
        intro short
        cases rest with
        | nil =>
            rw [List.length_nil, Nat.le_zero, List.length_eq_zero_iff] at short
            exact Nat.toDigits_ne_nil short
        | cons digit rest =>
            have small := (Nat.length_toDigits_le_iff (by decide) (Nat.succ_pos _)).mp short
            exact Nat.not_lt.mpr lower small
    · exact Nat.ofDigitChars_ten_toDigits

theorem canonical_toDigits (value : Nat) : Canonical (Nat.toDigits 10 value) := by
  induction value using Nat.strongRecOn with
  | _ value ih =>
      rcases Nat.lt_or_ge value 10 with small | large
      · interval_cases value
        · exact .inl rfl
        all_goals exact .inr ⟨_, [], rfl, by decide, by decide⟩
      · have digits := Nat.toDigits_of_base_le (by decide) large
        have all := allDigits_toDigits value
        rcases ih (value / 10) (by omega) with zero | leads
        · have read := congrArg (Nat.ofDigitChars 10 · 0) zero
          rw [Nat.ofDigitChars_ten_toDigits] at read
          have small : value / 10 = 0 := read
          omega
        · obtain ⟨leading, rest, split, nonzero, _⟩ := leads
          rw [split] at digits
          exact .inr ⟨leading, _, digits, nonzero, all⟩

/-!
## Numbers with a fraction
-/

private theorem takeWhile_ne_point {whole : List Char} (rest : List Char)
    (digits : whole.all Char.isDigit = true) :
    (whole ++ '.' :: rest).takeWhile (· ≠ '.') = whole ∧
      (whole ++ '.' :: rest).dropWhile (· ≠ '.') = '.' :: rest := by
  induction whole with
  | nil => simp
  | cons digit whole ih =>
      rw [List.all_cons, Bool.and_eq_true] at digits
      have notPoint : digit ≠ '.' := by
        rintro rfl
        exact absurd digits.1 (by decide)
      obtain ⟨taken, dropped⟩ := ih digits.2
      constructor
      · rw [List.cons_append, List.takeWhile_cons_of_pos (by simpa using notPoint), taken]
      · rw [List.cons_append, List.dropWhile_cons_of_pos (by simpa using notPoint), dropped]

theorem read_point {whole fraction width : Nat} (positive : 0 < width)
    (fits : fraction < 10 ^ width) :
    read (String.ofList (Nat.toDigits 10 whole ++ '.' :: padded width fraction)) =
      some ((whole : ℚ) + fraction / 10 ^ width) := by
  obtain ⟨taken, dropped⟩ := takeWhile_ne_point (padded width fraction)
    (toDigits_all_isDigit whole)
  unfold read
  simp only [String.toList_ofList, taken, dropped, List.drop_succ_cons, List.drop_zero]
  rw [if_pos ⟨Nat.toDigits_ne_nil, toDigits_all_isDigit whole, padded_all_isDigit width fraction⟩,
    length_padded positive fits, Nat.ofDigitChars_append, Nat.ofDigitChars_ten_toDigits,
    Nat.ofDigitChars_eq_ofDigitChars_zero, ofDigitChars_padded, length_padded positive fits]
  have nonzero : (10 ^ width : ℚ) ≠ 0 := pow_ne_zero width (by norm_num)
  push_cast
  congr 1
  field_simp

/-!
## Hexadecimal digits
-/

def hexDigit (char : Char) : Option Nat :=
  if char.isDigit then some (char.toNat - 48)
  else if 97 ≤ char.toNat ∧ char.toNat ≤ 102 then some (char.toNat - 87)
  else if 65 ≤ char.toNat ∧ char.toNat ≤ 70 then some (char.toNat - 55)
  else none

end Decimal
