import Mathlib.Data.Nat.Size
import Mathlib.Tactic.Ring

/-! Whole numbers in a format of `precision` significant bits: every number is
rounded to the nearest one the format has, a tie to the one with an even last bit. -/
namespace Library

/-- The distance of the numbers the format has near `number`. -/
def spacing (precision number : Nat) : Nat := 2 ^ (number.size - precision)

def roundEven (precision number : Nat) : Nat :=
  let step := spacing precision number
  let low := number / step
  if 2 * (number % step) < step ∨ 2 * (number % step) = step ∧ low % 2 = 0 then step * low
  else step * low + step

variable (precision number : Nat)

theorem spacing_pos : 0 < spacing precision number := Nat.two_pow_pos _

/-- The step is 1, 2 or a multiple of 4. -/
theorem spacing_cases :
    spacing precision number = 1 ∨ spacing precision number = 2 ∨
      4 ∣ spacing precision number := by
  unfold spacing
  obtain hzero | hone | ⟨k, hk⟩ : number.size - precision = 0 ∨ number.size - precision = 1 ∨
      ∃ k, number.size - precision = 2 + k := by
    by_cases h : 2 ≤ number.size - precision
    · exact .inr (.inr ⟨_, (Nat.add_sub_cancel' h).symm⟩)
    · omega
  · exact .inl (by rw [hzero, Nat.pow_zero])
  · exact .inr (.inl (by rw [hone, Nat.pow_one]))
  · refine .inr (.inr ⟨2 ^ k, ?_⟩)
    rw [hk, Nat.pow_add]

theorem roundEven_eq_self_iff :
    roundEven precision number = number ↔ spacing precision number ∣ number := by
  have hpos := spacing_pos precision number
  have hdiv := Nat.div_add_mod number (spacing precision number)
  have hmod := Nat.mod_lt number hpos
  rw [Nat.dvd_iff_mod_eq_zero]
  unfold roundEven
  dsimp only
  split <;> omega

theorem spacing_dvd_succ_iff :
    spacing precision number ∣ number + 1 ↔
      number % spacing precision number + 1 = spacing precision number := by
  have hmod := Nat.mod_lt number (spacing_pos precision number)
  have hsplit : number + 1 = spacing precision number * (number / spacing precision number) +
      (number % spacing precision number + 1) := by
    rw [← Nat.add_assoc, Nat.div_add_mod]
  constructor
  · intro hdvd
    rw [hsplit] at hdvd
    have hrest := (Nat.dvd_add_right (Nat.dvd_mul_right _ _)).mp hdvd
    have hle := Nat.le_of_dvd (Nat.succ_pos _) hrest
    omega
  · intro heq
    rw [hsplit, heq, ← Nat.mul_succ]
    exact Nat.dvd_mul_right _ _

/-- A number is rounded up by one when the next number is in the format and not
farther away, or as far and even. -/
theorem roundEven_eq_succ_iff :
    roundEven precision number = number + 1 ↔
      2 ≤ spacing precision number ∧ spacing precision number ∣ number + 1 ∧ 4 ∣ number + 1 := by
  have hdiv := Nat.div_add_mod number (spacing precision number)
  have hmod := Nat.mod_lt number (spacing_pos precision number)
  rcases spacing_cases precision number with hone | htwo | hfour
  · unfold roundEven
    rw [hone] at hdiv hmod ⊢
    dsimp only
    split <;> omega
  · unfold roundEven
    rw [htwo] at hdiv hmod ⊢
    dsimp only
    split <;> omega
  · have hlarge : 4 ≤ spacing precision number := Nat.le_of_dvd (spacing_pos precision number) hfour
    have hnext : spacing precision number ∣ number + 1 → 4 ∣ number + 1 := hfour.trans
    rw [spacing_dvd_succ_iff] at hnext ⊢
    unfold roundEven
    dsimp only
    split <;> omega

end Library
