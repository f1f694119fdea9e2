import BipaNodes.Domain.Format

/-! The texts of capacities are the canonical decimals with eight places. -/

set_option autoImplicit false

namespace BipaNodes.Domain

/-- `(0|[1-9][0-9]*)\.[0-9]{8}`. -/
def CanonicalBtc (text : String) : Prop :=
  ∃ whole fraction, text.toList = whole ++ '.' :: fraction ∧ Decimal.Canonical whole ∧
    fraction.length = 8 ∧ Decimal.AllDigits fraction

/-- Drops the point and reads the digits as an integer. -/
def decodeBtc (text : String) : Nat :=
  Nat.ofDigitChars 10 (text.toList.filter (· ≠ '.')) 0

theorem filter_ne_point {digits : List Char} (all : Decimal.AllDigits digits) :
    digits.filter (· ≠ '.') = digits := by
  apply List.filter_eq_self.mpr
  intro digit member
  have isDigit := all digit member
  apply decide_eq_true
  intro point
  rw [point] at isDigit
  cases isDigit

theorem decodeBtc_of_split {text : String} {whole fraction : List Char}
    (split : text.toList = whole ++ '.' :: fraction) (wholeDigits : Decimal.AllDigits whole)
    (fractionDigits : Decimal.AllDigits fraction) :
    decodeBtc text = 10 ^ fraction.length * Nat.ofDigitChars 10 whole 0 +
      Nat.ofDigitChars 10 fraction 0 := by
  rw [decodeBtc, split, List.filter_append, List.filter_cons_of_neg (by simp),
    filter_ne_point wholeDigits, filter_ne_point fractionDigits, Nat.ofDigitChars_append,
    Nat.ofDigitChars_eq_ofDigitChars_zero]

/-- The whole coins and the satoshis left over. -/
theorem toNat_div_mod_btc (sats : UInt64) :
    (sats / satsPerBtc).toNat = sats.toNat / 10 ^ 8 ∧
      (sats % satsPerBtc).toNat = sats.toNat % 10 ^ 8 :=
  ⟨UInt64.toNat_div .., UInt64.toNat_mod ..⟩

theorem toList_formatBtc (sats : UInt64) :
    (formatBtc sats).toList = Nat.toDigits 10 (sats.toNat / 10 ^ 8) ++
      '.' :: Decimal.padded 8 (sats.toNat % 10 ^ 8) := by
  obtain ⟨whole, fraction⟩ := toNat_div_mod_btc sats
  rw [formatBtc, String.toList_ofList, whole, fraction]

theorem canonical_formatBtc (sats : UInt64) : CanonicalBtc (formatBtc sats) :=
  ⟨_, _, toList_formatBtc sats, Decimal.canonical_toDigits _,
    Decimal.length_padded (by decide) (Nat.mod_lt _ (by decide)), Decimal.allDigits_padded _ _⟩

theorem decodeBtc_formatBtc (sats : UInt64) : decodeBtc (formatBtc sats) = sats.toNat := by
  rw [decodeBtc_of_split (toList_formatBtc sats) (Decimal.allDigits_toDigits _)
      (Decimal.allDigits_padded _ _),
    Decimal.length_padded (by decide) (Nat.mod_lt _ (by decide)), Nat.ofDigitChars_ten_toDigits,
    Decimal.ofDigitChars_padded, Nat.div_add_mod]

theorem formatBtc_decodeBtc {text : String} (canonical : CanonicalBtc text)
    (fits : decodeBtc text < 2 ^ 64) : formatBtc (UInt64.ofNat (decodeBtc text)) = text := by
  obtain ⟨whole, fraction, split, wholeCanonical, eight, fractionDigits⟩ := canonical
  have decoded := decodeBtc_of_split split wholeCanonical.allDigits fractionDigits
  have small := Decimal.ofDigitChars_lt fractionDigits
  rw [eight] at decoded small
  have quotient : decodeBtc text / 10 ^ 8 = Nat.ofDigitChars 10 whole 0 := by
    rw [decoded, Nat.mul_add_div (by decide), Nat.div_eq_of_lt small, Nat.add_zero]
  have remainder : decodeBtc text % 10 ^ 8 = Nat.ofDigitChars 10 fraction 0 := by
    rw [decoded, Nat.mul_add_mod, Nat.mod_eq_of_lt small]
  have amount : (UInt64.ofNat (decodeBtc text)).toNat = decodeBtc text :=
    UInt64.toNat_ofNat_of_lt fits
  apply String.toList_inj.mp
  rw [toList_formatBtc, amount, quotient, remainder,
    Decimal.toDigits_ofDigitChars wholeCanonical,
    Decimal.padded_ofDigitChars (by decide) fractionDigits eight, split]

/-- `format_btc` and the decoder are inverse to each other, between the amounts
of a `u64` and the canonical texts of numbers that fit one. -/
theorem format_btc_canonical :
    (∀ sats : UInt64, CanonicalBtc (formatBtc sats) ∧ decodeBtc (formatBtc sats) = sats.toNat ∧
      Decimal.read (formatBtc sats) = some ((sats.toNat : ℚ) / 10 ^ 8)) ∧
    (∀ text, CanonicalBtc text → decodeBtc text < 2 ^ 64 →
      formatBtc (UInt64.ofNat (decodeBtc text)) = text) ∧
    Function.Injective formatBtc := by
  refine ⟨?_, fun _ => formatBtc_decodeBtc, ?_⟩
  · intro sats
    exact ⟨canonical_formatBtc sats, decodeBtc_formatBtc sats, read_formatBtc sats⟩
  · intro left right same
    have decoded := congrArg decodeBtc same
    rw [decodeBtc_formatBtc, decodeBtc_formatBtc] at decoded
    exact UInt64.toNat_inj.mp decoded

end BipaNodes.Domain
