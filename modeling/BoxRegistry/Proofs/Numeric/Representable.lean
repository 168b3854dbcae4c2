import BoxRegistry.Json.Binary
import BoxRegistry.Proofs.Numeric.Decimal

namespace BoxRegistry

namespace Numeric

theorem divRound_le (num den : Nat) : divRound num den ≤ num + 1 := by
  have hle : num / den ≤ num := Nat.div_le_self num den
  simp only [divRound]
  split
  . omega
  . split
    . omega
    . split <;> omega

theorem quotientLog_le (num den : Nat) : quotientLog num den ≤ num.log2 := by
  simp only [quotientLog]
  split <;> omega

theorem le_quotientLog (num : Nat) : -1 ≤ quotientLog num 1 := by
  have hone : Nat.log2 1 = 0 := by decide
  simp only [quotientLog, hone]
  split <;> omega

theorem scaled_le (num den : Nat) {exponent : Int} {k : Nat} (h : exponent ≤ k)
    : (scaled num den exponent).1 ≤ num * 2 ^ k := by
  simp only [scaled]
  split
  . exact Nat.mul_le_mul_left _ (Nat.pow_le_pow_right (by decide) (by omega))
  . exact Nat.le_mul_of_pos_right _ (Nat.pow_pos (by decide))

namespace BinaryFormat

def unitOf (num den : Nat) : Int :=
  max (-1074) (quotientLog num den - 52)

theorem round?_double {num : Nat} (den : Nat) (hnum : num ≠ 0) (hlog : num.log2 ≤ 1000)
    : ∃ x, double.round? num den = some x ∧ x.exponent ≤ unitOf num den + 1
        ∧ x.mantissa ≤ max (2 ^ 52) ((scaled num den (-unitOf num den)).1 + 1) := by
  have hle := quotientLog_le num den
  have hunit : max double.minExponent (quotientLog num den - double.precision + 1) = unitOf num den := by
    simp only [double, unitOf]
    omega
  have hbound : unitOf num den + 1 ≤ double.maxExponent := by
    simp only [double, unitOf]
    omega
  have hmantissa := divRound_le (scaled num den (-unitOf num den)).1 (scaled num den (-unitOf num den)).2
  simp only [round?, if_neg hnum, hunit]
  split
  . exact ⟨_, rfl, Int.le_refl _, Nat.le_max_left _ _⟩
  . rw [if_pos (by dsimp only; omega)]
    exact ⟨_, rfl, by dsimp only; omega, Nat.le_trans hmantissa (Nat.le_max_right _ _)⟩

theorem round?_isSome {num den : Nat} (h : num < 2 ^ 256) : (double.round? num den).isSome = true := by
  by_cases hnum : num = 0
  . rw [hnum]
    rfl
  . have hlog := (Nat.log2_lt hnum).mpr h
    rcases round?_double den hnum (by omega) with ⟨x, hx, -⟩
    rw [hx]
    rfl

theorem round?_whole {n : Nat} (h : n < 2 ^ 64) : ∃ x, double.round? n 1 = some x ∧ x.quotient.1 < 2 ^ 200 := by
  by_cases hn : n = 0
  . subst hn
    exact ⟨_, rfl, by decide⟩
  . have hlog := (Nat.log2_lt hn).mpr h
    have hupper := quotientLog_le n 1
    have hlower := le_quotientLog n
    rcases round?_double 1 hn (by omega) with ⟨x, hx, hexponent, hmantissa⟩
    have hunit : -unitOf n 1 ≤ (53 : Nat) := by
      simp only [unitOf]
      omega
    have hscaled := scaled_le n 1 hunit
    refine ⟨x, hx, ?_⟩
    calc x.quotient.1
        ≤ x.mantissa * 2 ^ 13 := scaled_le _ _ (by simp only [unitOf] at hexponent; omega)
      _ < 2 ^ 200 := by
        have hbig : (2 : Nat) ^ 52 ≤ 2 ^ 180 ∧ (2 : Nat) ^ 64 * 2 ^ 53 + 1 ≤ 2 ^ 180 := by decide
        omega

end BinaryFormat

end Numeric

namespace Json.Number

open Numeric

theorem tenPower_zero : (tenPower 0).quotient = (2 ^ 52, 2 ^ 52) := by
  decide +kernel

theorem le_ofDigitChars (cs : List Char) (init : Nat) : init ≤ Nat.ofDigitChars 10 cs init := by
  induction cs generalizing init with
  | nil => exact Nat.le_refl init
  | cons c cs ih =>
    rw [Nat.ofDigitChars_cons]
    exact Nat.le_trans (by omega) (ih _)

theorem leading_eq {cs : List Char} {init : Nat} (h : Nat.ofDigitChars 10 cs init < Nat.pow 2 64)
    : leading init (cs.map fun c => c.toNat - '0'.toNat) = (Nat.ofDigitChars 10 cs init, 0) := by
  induction cs generalizing init with
  | nil => rfl
  | cons c cs ih =>
    rw [Nat.ofDigitChars_cons] at h ⊢
    have hlt := Nat.lt_of_le_of_lt (le_ofDigitChars cs _) h
    rw [List.map_cons, leading, Nat.mul_comm init 10, if_pos hlt, ih h]

theorem scaleByTen?_zero (fuel : Nat) (x : Binary)
    : scaleByTen? fuel x 0 = if x.mantissa = 0 then some x else x.mul? .double (tenPower 0) := by
  unfold scaleByTen?
  simp only [show ¬(308 : Int) < 0 by decide, if_false, Int.le_refl, if_true, Int.toNat_zero]

theorem representable_ofInt {i : Int} (h : i.natAbs < 2 ^ 64) : (ofInt i).representable = true := by
  have hdigits : leading 0 (wholeDigits i.natAbs) = (i.natAbs, 0) := by
    rw [wholeDigits, toList_toString]
    have heq := (decimal_toDigits i.natAbs).value
    rw [leading_eq (by rw [heq]; exact h), heq]
  have hsignificand : (ofInt i).significand = (i.natAbs, 0) := by
    simp only [significand, ofInt, hdigits, leading]
    rfl
  rcases BinaryFormat.round?_whole h with ⟨x, hx, hquotient⟩
  simp only [representable, double?, hsignificand, hx, Option.bind_eq_bind, Option.bind_some, scaleByTen?_zero]
  split
  . rfl
  . simp only [Binary.mul?, tenPower_zero]
    refine BinaryFormat.round?_isSome ?_
    calc x.quotient.1 * 2 ^ 52
        < 2 ^ 200 * 2 ^ 52 := Nat.mul_lt_mul_of_pos_right hquotient (by decide)
      _ ≤ 2 ^ 256 := by decide

end Json.Number

end BoxRegistry
