import MarketServer.Decimal

/-! Printing a decimal. The format reads the value as signed, and the buffer bounds
the number of decimal places. -/
namespace MarketServer.SDecimal
open Library

/-- The printed digits of a number that is not negative. -/
def paddedDigits (width number : Nat) : List (Fin 10) :=
  List.replicate (width - (spell 10 number).length) 0 ++ spell 10 number

theorem length_paddedDigits (width number : Nat) :
    (paddedDigits width number).length = max width (spell 10 number).length := by
  unfold paddedDigits
  rw [List.length_append, List.length_replicate]
  omega

theorem numeral_paddedDigits (width number : Nat) :
    numeral (paddedDigits width number) = number := by
  unfold paddedDigits
  rw [numeral_pad, numeral_spell (by decide)]

theorem sprintfPadded_natCast (width number : Nat) :
    sprintfPadded width number = (paddedDigits width number).map digitByte := by
  have hsign : ¬ (number : Int) < 0 := by omega
  unfold sprintfPadded paddedDigits
  simp [hsign]

theorem insertIdx_append (left right : Bytes) (character : UInt8) :
    (left ++ right).insertIdx left.length character = left ++ character :: right := by
  induction left with
  | nil => rfl
  | cons first left ih => exact congrArg (first :: ·) ih

/-- Any 64-bit number has at most 20 digits. -/
theorem length_spell_le_twenty {number : Nat} (h : number < 2 ^ 64) :
    (spell 10 number).length ≤ 20 :=
  length_spell_le (by decide) (by decide) (by omega)

theorem sprintfPadded_of_neg (width : Nat) {number : Int} (h : number < 0) :
    ∃ rest, sprintfPadded width number = 45 :: rest ∧ width ≤ rest.length + 1 := by
  let digits := (spell 10 number.natAbs).map digitByte
  have hpadded : sprintfPadded width number =
      45 :: (List.replicate (width - 1 - digits.length) (digitByte 0) ++ digits) := by
    unfold sprintfPadded
    rw [if_pos h]
    rfl
  refine ⟨_, hpadded, ?_⟩
  rw [List.length_append, List.length_replicate]
  omega

theorem toInt_toInt64 (value : UInt64) :
    value.toInt64.toInt =
      if value.toNat < 2 ^ 63 then (value.toNat : Int) else value.toNat - 2 ^ 64 := by
  rw [← Int64.toInt_toBitVec, UInt64.toBitVec_toInt64, BitVec.toInt_eq_toNat_cond,
    UInt64.toNat_toBitVec]
  split <;> split <;> omega

theorem getStrValue_eq {d : SDecimal} (hvalue : d.value.toNat < 2 ^ 63) :
    let digits := paddedDigits (d.base.toNat + 1) d.value.toNat
    d.getStrValue =
      if 1024 < digits.length + 1 then .error .undefined
      else .ok ((digits.take (digits.length - d.base.toNat)).map digitByte ++
        46 :: (digits.drop (digits.length - d.base.toNat)).map digitByte) := by
  intro digits
  have htext : sprintfPadded (d.base.toNat + 1) d.value.toInt64.toInt = digits.map digitByte := by
    rw [toInt_toInt64, if_pos hvalue]
    exact sprintfPadded_natCast _ _
  have hpoint : (digits.map digitByte).insertIdx (digits.length - d.base.toNat) 46 =
      (digits.take (digits.length - d.base.toNat)).map digitByte ++
        46 :: (digits.drop (digits.length - d.base.toNat)).map digitByte := by
    have hlength : ((digits.take (digits.length - d.base.toNat)).map digitByte).length =
        digits.length - d.base.toNat := by
      rw [List.length_map, List.length_take]
      omega
    rw [← insertIdx_append, hlength, ← List.map_append, List.take_append_drop]
  unfold getStrValue
  simp only [htext, List.length_map, hpoint]

/-- A value from 2^63 on is printed as a negative number. -/
theorem getStrValue_negative {d : SDecimal} (hvalue : ¬ d.value.toNat < 2 ^ 63) {text : Bytes}
    (h : d.getStrValue = .ok text) : text.head? = some 45 := by
  have hnegative : d.value.toInt64.toInt < 0 := by
    have hlt := d.value.toNat_lt
    rw [toInt_toInt64, if_neg hvalue]
    omega
  obtain ⟨rest, hrest, hlength⟩ := sprintfPadded_of_neg (d.base.toNat + 1) hnegative
  have hindex : (45 :: rest).length - d.base.toNat = rest.length - d.base.toNat + 1 := by
    rw [List.length_cons]
    omega
  unfold getStrValue at h
  simp only [hrest, hindex, List.insertIdx_succ_cons] at h
  split at h
  · cases h
  · cases h
    rfl

/-- The text has the point where the number has it, and its digits are those of the
value. -/
def PrintsExactly (d : SDecimal) : Prop :=
  ∃ whole fraction : List (Fin 10),
    d.getStrValue = .ok (whole.map digitByte ++ 46 :: fraction.map digitByte) ∧
      whole ≠ [] ∧ fraction.length = d.base.toNat ∧
      numeral (whole ++ fraction) = d.value.toNat

theorem digitByte_ne_sign (digit : Fin 10) : digitByte digit ≠ 45 := by
  revert digit
  decide

theorem PrintsExactly.value_lt {d : SDecimal} (h : PrintsExactly d) : d.value.toNat < 2 ^ 63 := by
  obtain ⟨whole, fraction, htext, hwhole, _⟩ := h
  by_contra hvalue
  have hhead := getStrValue_negative hvalue htext
  cases whole with
  | nil => exact hwhole rfl
  | cons digit rest => exact digitByte_ne_sign digit (Option.some.inj hhead)

/-- A decimal is printed as the number it is exactly when its value fits a signed
64-bit integer and its decimal places fit the buffer. -/
theorem prints_exactly_iff (d : SDecimal) :
    PrintsExactly d ↔ d.value.toNat < 2 ^ 63 ∧ d.base.toNat ≤ 1022 := by
  have hlength := length_paddedDigits (d.base.toNat + 1) d.value.toNat
  have hspell := length_spell_le_twenty d.value.toNat_lt
  constructor
  · intro h
    have hvalue := h.value_lt
    obtain ⟨whole, fraction, htext, _⟩ := h
    rw [getStrValue_eq hvalue] at htext
    split at htext
    · cases htext
    · exact ⟨hvalue, by omega⟩
  · rintro ⟨hvalue, hbase⟩
    have htext := getStrValue_eq hvalue
    have hnumeral := numeral_paddedDigits (d.base.toNat + 1) d.value.toNat
    generalize paddedDigits (d.base.toNat + 1) d.value.toNat = digits at htext hlength hnumeral
    refine ⟨digits.take (digits.length - d.base.toNat),
      digits.drop (digits.length - d.base.toNat), ?_, ?_, ?_, ?_⟩
    · exact htext.trans (if_neg (by omega))
    · apply List.ne_nil_of_length_pos
      rw [List.length_take]
      omega
    · rw [List.length_drop]
      omega
    · rw [List.take_append_drop, hnumeral]

/-- The largest decimal is printed with a sign and without a digit before the point. -/
theorem prints_wrongly :
    maxDecimal.getStrValue = .ok (.ofLiteral "-1.") ∧ ¬ PrintsExactly maxDecimal := by
  refine ⟨by decide +kernel, fun h => ?_⟩
  have hvalue := h.value_lt
  revert hvalue
  decide

end MarketServer.SDecimal
