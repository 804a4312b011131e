import Mathlib.Algebra.IsPrimePow
import Mathlib.Data.Nat.Prime.Basic
import Mathlib.Tactic.Linarith
import Mathlib.Tactic.Positivity

/-! Multiplication modulo 2^64 by a 32-bit factor that is meant to be a power of
ten. From 10^10 on there is no such factor, and none gives the right product by
accident. -/
namespace Library

theorem no_power_of_two_above (exponent : Fin 10) (k : Fin 65) :
    ¬ (10 ^ (exponent.val + 10) < 2 ^ k.val ∧
      2 ^ k.val ≤ 10 ^ (exponent.val + 10) + 2 ^ 31) := by
  revert exponent k
  decide

theorem exponent_lt_of_fits {value exponent : Nat} (hvalue : 0 < value)
    (hfits : value * 10 ^ exponent < 2 ^ 64) : exponent < 20 := by
  by_contra hlarge
  have hpow : 10 ^ 20 ≤ 10 ^ exponent := Nat.pow_le_pow_right (by decide) (by omega)
  have hle : 10 ^ exponent ≤ value * 10 ^ exponent := Nat.le_mul_of_pos_left _ hvalue
  omega

/-- If the two products agree modulo 2^64, the factors differ by a divisor of 2^64. -/
theorem mul_distance_eq {value power factor : Int} (hvalue : 0 < value)
    (hfactor : -2 ^ 31 ≤ factor ∧ factor < 2 ^ 31) (hpower : 10 ^ 10 ≤ power)
    (hfits : value * power < 2 ^ 64) (heq : value * factor % 2 ^ 64 = value * power) :
    value * (power - factor) = 2 ^ 64 := by
  have hproduct : value * 10 ^ 10 ≤ value * power := by
    exact mul_le_mul_of_nonneg_left hpower hvalue.le
  have hlow : value * (-2 ^ 31) ≤ value * factor := by
    exact mul_le_mul_of_nonneg_left hfactor.1 hvalue.le
  have hhigh : value * factor ≤ value * 2 ^ 31 := by
    exact mul_le_mul_of_nonneg_left hfactor.2.le hvalue.le
  have hquotient := Int.emod_add_mul_ediv (value * factor) (2 ^ 64)
  rw [mul_sub]
  omega

/-- No 32-bit factor stands in for a larger power of ten. -/
theorem no_substitute_factor {value exponent : Nat} {factor : Int} (hvalue : 0 < value)
    (hfactor : -2 ^ 31 ≤ factor ∧ factor < 2 ^ 31) (hexponent : 10 ≤ exponent)
    (hfits : value * 10 ^ exponent < 2 ^ 64) :
    (value * factor % 2 ^ 64 : Int) ≠ value * 10 ^ exponent := by
  intro heq
  have hsmall := exponent_lt_of_fits hvalue hfits
  have hpower : (10 : Int) ^ 10 ≤ 10 ^ exponent := pow_le_pow_right₀ (by decide) hexponent
  have hfits' : (value : Int) * 10 ^ exponent < 2 ^ 64 := by exact_mod_cast hfits
  have hmul := mul_distance_eq (by exact_mod_cast hvalue) hfactor hpower hfits' heq
  have hnegative : factor < 0 := by
    by_contra hle
    have hless : (value : Int) * (10 ^ exponent - factor) ≤ value * 10 ^ exponent :=
      mul_le_mul_of_nonneg_left (by omega) (Int.natCast_nonneg _)
    omega
  obtain ⟨distance, hdistance⟩ := Int.eq_ofNat_of_zero_le (a := 10 ^ exponent - factor) (by omega)
  rw [hdistance] at hmul
  have hdvd : distance ∣ 2 ^ 64 := Dvd.intro_left value (by exact_mod_cast hmul)
  obtain ⟨k, hk, rfl⟩ := (Nat.dvd_prime_pow Nat.prime_two).mp hdvd
  have hnone := no_power_of_two_above ⟨exponent - 10, by omega⟩ ⟨k, by omega⟩
  have hexponent : exponent - 10 + 10 = exponent := by omega
  simp only [hexponent] at hnone
  apply hnone
  constructor
  · have habove : (10 : Int) ^ exponent < ((2 ^ k : Nat) : Int) := by omega
    exact_mod_cast habove
  · have hnear : ((2 ^ k : Nat) : Int) ≤ 10 ^ exponent + 2 ^ 31 := by omega
    exact_mod_cast hnear

end Library
