import Mathlib.Data.Nat.Digits.Lemmas

/-! Numerals: the digits of a number, the most significant one first. -/
namespace Library

variable {radix : Nat}

/-- The number a list of digits denotes. -/
def numeral (digits : List (Fin radix)) : Nat :=
  Nat.ofDigits radix (digits.map Fin.val).reverse

theorem numeral_append (left right : List (Fin radix)) :
    numeral (left ++ right) = numeral left * radix ^ right.length + numeral right := by
  unfold numeral
  rw [List.map_append, List.reverse_append, Nat.ofDigits_append, List.length_reverse,
    List.length_map]
  ring

theorem numeral_lt (digits : List (Fin radix)) : numeral digits < radix ^ digits.length := by
  induction digits using List.reverseRecOn with
  | nil => exact Nat.one_pos
  | append_singleton digits digit ih =>
    have hdigit : numeral [digit] = digit.val := by simp [numeral]
    have hstep : (numeral digits + 1) * radix ≤ radix ^ digits.length * radix :=
      Nat.mul_le_mul_right radix ih
    rw [numeral_append, hdigit, List.length_singleton, Nat.pow_one, List.length_append,
      List.length_singleton, Nat.pow_succ]
    have hlt := digit.isLt
    rw [Nat.add_mul] at hstep
    omega

variable [NeZero radix]

theorem numeral_replicate_zero (count : Nat) :
    numeral (List.replicate count (0 : Fin radix)) = 0 := by
  simp [numeral, Nat.ofDigits_replicate_zero]

theorem numeral_pad (count : Nat) (digits : List (Fin radix)) :
    numeral (List.replicate count 0 ++ digits) = numeral digits := by
  rw [numeral_append, numeral_replicate_zero, Nat.zero_mul, Nat.zero_add]

/-- The digits of a number without leading zeros, apart from the numeral of 0. -/
def spell (radix : Nat) [NeZero radix] (number : Nat) : List (Fin radix) :=
  if number = 0 then [0] else (Nat.digits radix number).reverse.map (Fin.ofNat radix)

theorem numeral_spell (hradix : 1 < radix) (number : Nat) :
    numeral (spell radix number) = number := by
  unfold spell
  split
  · rename_i hzero
    simp [numeral, hzero]
  · have hdigits : ((Nat.digits radix number).map (Fin.ofNat radix)).map Fin.val =
        Nat.digits radix number := by
      conv_rhs => rw [← List.map_id (Nat.digits radix number)]
      rw [List.map_map]
      apply List.map_congr_left
      intro digit hdigit
      exact Nat.mod_eq_of_lt (Nat.digits_lt_base hradix hdigit)
    rw [numeral, List.map_reverse, List.map_reverse, List.reverse_reverse, hdigits,
      Nat.ofDigits_digits]

theorem length_spell_le (hradix : 1 < radix) {number count : Nat} (hcount : 0 < count)
    (hnumber : number < radix ^ count) : (spell radix number).length ≤ count := by
  unfold spell
  split
  · exact hcount
  · rw [List.length_map, List.length_reverse]
    exact (Nat.digits_length_le_iff hradix number).mpr hnumber

end Library
