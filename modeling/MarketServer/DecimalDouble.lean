import MarketServer.Decimal
import MarketServer.Exact
import MarketServer.Library.Rounding
import Mathlib.Data.Rat.Floor
import Mathlib.Tactic.FieldSimp

/-! What is assumed of `double` when decimals pass through it, and two instances of
it: exact rationals, and rationals where a converted integer keeps 53 bits. -/
namespace MarketServer
open Library

/-- The conversion of a number to `unsigned long`: it is truncated, and what does not
fit then has no defined result. -/
def truncated (number : ℚ) : Except Failure UInt64 :=
  if -1 < number ∧ number < 2 ^ 64 then .ok (.ofNat ⌊number⌋₊) else .error .undefined

theorem truncated_div (value : Nat) {divisor : Nat} (hdivisor : 0 < divisor) :
    truncated (value / divisor) =
      if value < 2 ^ 64 * divisor then .ok (.ofNat (value / divisor)) else .error .undefined := by
  have hpos : (0 : ℚ) < divisor := by exact_mod_cast hdivisor
  have hlow : (-1 : ℚ) < value / divisor := by
    have hnonneg : (0 : ℚ) ≤ value / divisor := by positivity
    linarith
  have hhigh : (value / divisor : ℚ) < 2 ^ 64 ↔ value < 2 ^ 64 * divisor := by
    rw [div_lt_iff₀ hpos]
    exact_mod_cast Iff.rfl
  unfold truncated
  simp only [hlow, true_and, hhigh, Rat.natFloor_natCast_div_natCast]

theorem truncated_natCast (n : Nat) :
    truncated n = if n < 2 ^ 64 then .ok (.ofNat n) else .error .undefined := by
  simpa using truncated_div n Nat.one_pos

theorem mul_pow_ten_le {number : ℚ} {exponent : Nat} (hnumber : 0 ≤ number)
    (hexponent : 10 ≤ exponent) : number * 10 ^ 10 ≤ number * 10 ^ exponent := by
  have hpow : (10 : ℚ) ^ 10 ≤ 10 ^ exponent := pow_le_pow_right₀ (by norm_num) hexponent
  exact mul_le_mul_of_nonneg_left hpow hnumber

/-- With a factor below 2^31 in place of a power of ten from 10^10 on, the result is
less than a quarter of what it should be. -/
theorem four_mul_le_of_truncated {number : ℚ} {factor : Int} {exponent : Nat} {value : UInt64}
    (hnumber : 0 ≤ number) (hfactor : factor < 2 ^ 31) (hexponent : 10 ≤ exponent)
    (h : truncated (number * factor) = .ok value) :
    4 * (value.toNat : ℚ) ≤ number * 10 ^ exponent := by
  have hpow := mul_pow_ten_le hnumber hexponent
  have hfactor' : (factor : ℚ) ≤ 2 ^ 31 := by exact_mod_cast hfactor.le
  have hproduct : number * factor ≤ number * 2 ^ 31 := mul_le_mul_of_nonneg_left hfactor' hnumber
  have hfloor : (value.toNat : ℚ) ≤ max (number * factor) 0 := by
    unfold truncated at h
    split at h
    · rename_i hrange
      cases h
      have hle : ((UInt64.ofNat ⌊number * factor⌋₊).toNat : ℚ) ≤ ⌊number * factor⌋₊ := by
        rw [UInt64.toNat_ofNat']
        exact_mod_cast Nat.mod_le _ _
      rcases le_total 0 (number * factor) with hnonneg | hneg
      · exact (hle.trans (Nat.floor_le hnonneg)).trans (le_max_left _ _)
      · rw [Nat.floor_of_nonpos hneg] at hle ⊢
        exact (hle.trans_eq Nat.cast_zero).trans (le_max_right _ _)
    · cases h
  rcases max_cases (number * factor) 0 with ⟨hmax, _⟩ | ⟨hmax, _⟩
  · linarith
  · linarith

theorem truncated_eq_zero {number : ℚ} {factor : Int} {exponent : Nat} (hnumber : 0 ≤ number)
    (hfactor : -2 ^ 31 ≤ factor ∧ factor < 2 ^ 31) (hexponent : 10 ≤ exponent)
    (hsmall : number * 10 ^ exponent ≤ 1) : truncated (number * factor) = .ok 0 := by
  have hpow := mul_pow_ten_le hnumber hexponent
  have hlow : number * (-2 ^ 31) ≤ number * factor :=
    mul_le_mul_of_nonneg_left (by exact_mod_cast hfactor.1) hnumber
  have hhigh : number * factor ≤ number * 2 ^ 31 :=
    mul_le_mul_of_nonneg_left (by exact_mod_cast hfactor.2.le) hnumber
  have hrange : -1 < number * factor ∧ number * factor < 1 := by
    constructor <;> linarith
  unfold truncated
  rw [if_pos ⟨hrange.1, hrange.2.trans (by norm_num)⟩, Nat.floor_eq_zero.mpr hrange.2]
  rfl

section Laws

variable {F : Type} [DecimalDouble F]

/-- The rounding of binary64, where `val` reads a `double` as a number: a converted
integer keeps 53 bits. -/
structure RoundsToEven (val : F → ℚ) : Prop where
  toUnsigned_eq : ∀ x : F, DecimalDouble.toUnsigned x = truncated (val x)
  val_ofUnsigned : ∀ n : UInt64, val (Double.ofUnsigned n) = roundEven 53 n.toNat
  val_ceil : ∀ x : F, val (DecimalDouble.ceil x) = ⌈val x⌉
  val_floor : ∀ x : F, val (DecimalDouble.floor x) = ⌊val x⌋

/-- Reading digits, with or without a point, and the product are exact. -/
structure ReadsExactly (val : F → ℚ) : Prop where
  toUnsigned_eq : ∀ x : F, DecimalDouble.toUnsigned x = truncated (val x)
  val_mul : ∀ x y : F, val (x * y) = val x * val y
  val_ofInt : ∀ n : Int32, val (Double.ofInt n) = n.toInt
  val_atof : ∀ whole : List (Fin 10),
    val (DecimalDouble.atof (whole.map digitByte)) = numeral whole
  val_atof_point : ∀ whole fraction : List (Fin 10),
    val (DecimalDouble.atof (whole.map digitByte ++ 46 :: fraction.map digitByte)) =
      numeral (whole ++ fraction) / 10 ^ fraction.length

end Laws

section Instances

def isDigit (byte : UInt8) : Bool := 48 ≤ byte && byte ≤ 57

def digitOf (byte : UInt8) : Fin 10 := .ofNat 10 (byte.toNat - 48)

/-- The number `atof` reads at the start of a text of digits and points. -/
def readNumber (text : Bytes) : ℚ :=
  let whole := (text.takeWhile isDigit).map digitOf
  match text.dropWhile isDigit with
  | 46 :: rest =>
    let fraction := (rest.takeWhile isDigit).map digitOf
    numeral (whole ++ fraction) / 10 ^ fraction.length
  | _ => numeral whole

theorem isDigit_digitByte (digit : Fin 10) : isDigit (digitByte digit) = true := by
  revert digit
  decide

theorem digitOf_digitByte (digit : Fin 10) : digitOf (digitByte digit) = digit := by
  revert digit
  decide

theorem map_digitOf (digits : List (Fin 10)) : (digits.map digitByte).map digitOf = digits := by
  rw [List.map_map]
  conv_rhs => rw [← List.map_id digits]
  exact List.map_congr_left fun digit _ => digitOf_digitByte digit

theorem digits_isDigit (digits : List (Fin 10)) :
    ∀ byte ∈ digits.map digitByte, isDigit byte = true := by
  intro byte hbyte
  obtain ⟨digit, _, rfl⟩ := List.mem_map.mp hbyte
  exact isDigit_digitByte digit

theorem takeWhile_digits (digits : List (Fin 10)) (rest : Bytes) :
    (digits.map digitByte ++ rest).takeWhile isDigit =
      digits.map digitByte ++ rest.takeWhile isDigit :=
  List.takeWhile_append_of_pos (digits_isDigit digits)

theorem dropWhile_digits (digits : List (Fin 10)) (rest : Bytes) :
    (digits.map digitByte ++ rest).dropWhile isDigit = rest.dropWhile isDigit :=
  List.dropWhile_append_of_pos (digits_isDigit digits)

theorem readNumber_digits (whole : List (Fin 10)) :
    readNumber (whole.map digitByte) = numeral whole := by
  have htake := takeWhile_digits whole []
  have hdrop := dropWhile_digits whole []
  rw [List.append_nil, List.takeWhile_nil, List.append_nil] at htake
  rw [List.append_nil, List.dropWhile_nil] at hdrop
  unfold readNumber
  simp only [htake, hdrop, map_digitOf]

theorem readNumber_point (whole fraction : List (Fin 10)) :
    readNumber (whole.map digitByte ++ 46 :: fraction.map digitByte) =
      numeral (whole ++ fraction) / 10 ^ fraction.length := by
  have hpoint : isDigit 46 = false := by decide
  have htake := takeWhile_digits whole (46 :: fraction.map digitByte)
  have hdrop := dropWhile_digits whole (46 :: fraction.map digitByte)
  have hfraction := takeWhile_digits fraction []
  rw [List.takeWhile_cons_of_neg (by simp [hpoint]), List.append_nil] at htake
  rw [List.dropWhile_cons_of_neg (by simp [hpoint])] at hdrop
  rw [List.append_nil, List.takeWhile_nil, List.append_nil] at hfraction
  unfold readNumber
  simp only [htake, hdrop, hfraction, map_digitOf]

theorem calcBase_zero : calcBase ℚ 0 = 1 := by decide +kernel

theorem powersOfTen_calcBase : PowersOfTen (calcBase ℚ) := by
  unfold PowersOfTen
  decide +kernel

/-- `CALC_BASE` with another result for a power of ten that does not fit an `int`. -/
theorem powersOfTen_update {large : Nat} (hlarge : 10 ≤ large) (factor : Int32) :
    PowersOfTen (Function.update (calcBase ℚ) large factor) := by
  intro exponent hexponent
  rw [Function.update_of_ne (by omega)]
  exact powersOfTen_calcBase exponent hexponent

instance : DecimalDouble ℚ where
  atof := readNumber
  ceil number := ⌈number⌉
  floor number := ⌊number⌋
  toUnsigned := truncated

theorem readsExactly_rat : ReadsExactly (F := ℚ) id where
  toUnsigned_eq _ := rfl
  val_mul _ _ := rfl
  val_ofInt _ := rfl
  val_atof := readNumber_digits
  val_atof_point := readNumber_point

/-- Rationals whose converted integers are those of binary64. -/
structure Binary64 where
  number : ℚ

instance : DecimalDouble Binary64 where
  zero := ⟨0⟩
  one := ⟨1⟩
  add left right := ⟨left.number + right.number⟩
  mul left right := ⟨left.number * right.number⟩
  div left right := ⟨left.number / right.number⟩
  ofUnsigned value := ⟨roundEven 53 value.toNat⟩
  ofInt value := ⟨value.toInt⟩
  pow10 exponent := ⟨10 ^ exponent⟩
  toInt value := Double.toInt value.number
  atof text := ⟨readNumber text⟩
  ceil value := ⟨⌈value.number⌉⟩
  floor value := ⟨⌊value.number⌋⟩
  toUnsigned value := truncated value.number

theorem powersOfTen_binary64 : PowersOfTen (calcBase Binary64) := powersOfTen_calcBase

theorem roundsToEven_binary64 : RoundsToEven Binary64.number where
  toUnsigned_eq _ := rfl
  val_ofUnsigned _ := rfl
  val_ceil _ := rfl
  val_floor _ := rfl

end Instances

end MarketServer
