import MarketServer.DecimalLiteral
import Mathlib.Data.Nat.Cast.Field

/-! When parsing a literal gives the number it denotes, without a precision and with
one. Digits are scaled by `CALC_BASE`, which is a power of ten up to 10^9 only. -/
namespace MarketServer
open Library

variable {F : Type} [DecimalDouble F] {val : F → ℚ}

theorem exists_bind_ok {α β : Type} {result : Except Failure α} {build : α → β} {P : β → Prop} :
    (∃ x, (do let value ← result; return build value) = Except.ok x ∧ P x) ↔
      ∃ value, result = .ok value ∧ P (build value) := by
  cases result with
  | ok value =>
    constructor
    · rintro ⟨_, ⟨⟩, h⟩
      exact ⟨value, rfl, h⟩
    · rintro ⟨_, ⟨⟩, h⟩
      exact ⟨_, rfl, h⟩
  | error failure =>
    constructor
    · rintro ⟨_, ⟨⟩, _⟩
    · rintro ⟨_, ⟨⟩, _⟩

/-! The scaled numerals `M / 10 ^ k`. -/

theorem truncated_small (hpower : PowersOfTen (calcBase F)) {base : Nat} (hbase : base ≤ 9)
    (M k : Nat) :
    truncated (M / 10 ^ k * (calcBase F base).toInt) =
      if M * 10 ^ base < 2 ^ 64 * 10 ^ k then .ok (.ofNat (M * 10 ^ base / 10 ^ k))
      else .error .undefined := by
  have hvalue : (M / 10 ^ k * (calcBase F base).toInt : ℚ) =
      (M * 10 ^ base : Nat) / (10 ^ k : Nat) := by
    rw [hpower base hbase]
    push_cast
    ring
  rw [hvalue, truncated_div _ (Nat.pow_pos (by decide))]

theorem truncated_large {base : Nat} (hbase : 10 ≤ base) {M k : Nat} {value : UInt64}
    (h : truncated (M / 10 ^ k * (calcBase F base).toInt) = .ok value) :
    4 * value.toNat * 10 ^ k ≤ M * 10 ^ base := by
  have hpos : (0 : ℚ) < 10 ^ k := by positivity
  have hle := four_mul_le_of_truncated (by positivity) (calcBase F base).toInt_lt hbase h
  rw [div_mul_eq_mul_div, le_div_iff₀ hpos] at hle
  exact_mod_cast hle

theorem truncated_large_zero {base : Nat} (hbase : 10 ≤ base) {M k : Nat}
    (h : M * 10 ^ base ≤ 10 ^ k) :
    truncated (M / 10 ^ k * (calcBase F base).toInt) = .ok 0 := by
  have hpos : (0 : ℚ) < 10 ^ k := by positivity
  apply truncated_eq_zero (by positivity) ⟨(calcBase F base).le_toInt, (calcBase F base).toInt_lt⟩
    hbase
  rw [div_mul_eq_mul_div, div_le_one hpos]
  exact_mod_cast h

/-- A scaled numeral is exact when it is 0, or a whole number that fits, scaled by a
power of ten that fits an `int`. -/
theorem truncated_exact_iff (hpower : PowersOfTen (calcBase F)) (base M k : Nat) :
    (∃ value, truncated (M / 10 ^ k * (calcBase F base).toInt) = .ok value ∧
      value.toNat * 10 ^ k = M * 10 ^ base) ↔
      M = 0 ∨ base ≤ 9 ∧ M * 10 ^ base < 2 ^ 64 * 10 ^ k ∧ 10 ^ k ∣ M * 10 ^ base := by
  have hpos : 0 < 10 ^ k := Nat.pow_pos (by decide)
  have hbasePos : 0 < 10 ^ base := Nat.pow_pos (by decide)
  constructor
  · rintro ⟨value, hvalue, hexact⟩
    by_cases hbase : base ≤ 9
    · rw [truncated_small hpower hbase] at hvalue
      split at hvalue
      · rename_i hfits
        exact .inr ⟨hbase, hfits, Dvd.intro_left _ hexact⟩
      · cases hvalue
    · have hquarter := truncated_large (by omega) hvalue
      have hzero : M * 10 ^ base = 0 := by
        rw [Nat.mul_assoc, hexact] at hquarter
        omega
      exact .inl ((Nat.mul_eq_zero.mp hzero).resolve_right hbasePos.ne')
  · rintro (rfl | ⟨hbase, hfits, hdvd⟩)
    · refine ⟨0, ?_, by simp⟩
      simpa using truncated_natCast 0
    · refine ⟨.ofNat (M * 10 ^ base / 10 ^ k), ?_, ?_⟩
      · rw [truncated_small hpower hbase, if_pos hfits]
      · have hlt : M * 10 ^ base / 10 ^ k < 2 ^ 64 := (Nat.div_lt_iff_lt_mul hpos).mpr hfits
        rw [toNat_ofNat hlt, Nat.div_mul_cancel hdvd]

/-- The value the cut branch leaves: rounding up adds 1 to whatever was parsed. -/
def raised (ceiling : Bool) (value : UInt64) : UInt64 := if ceiling then value + 1 else value

theorem toNat_raised (ceiling : Bool) (value : UInt64) :
    (raised ceiling value).toNat =
      if ceiling then (value.toNat + 1) % 2 ^ 64 else value.toNat := by
  cases ceiling with
  | false => rfl
  | true => exact UInt64.toNat_add value 1

/-! Cut behind a point: the digits that are kept are scaled back to themselves. `T` is
the correct result. -/

theorem raised_cut_small_iff (hpower : PowersOfTen (calcBase F)) {precise M T : Nat}
    (hprecise : precise ≤ 9) (hM : M ≤ T) (hfits : T < 2 ^ 64) (ceiling : Bool) :
    (∃ value, truncated (M / 10 ^ precise * (calcBase F precise).toInt) = .ok value ∧
      (raised ceiling value).toNat = T) ↔ if ceiling then T = M + 1 else T = M := by
  have hpos : 0 < 10 ^ precise := Nat.pow_pos (by decide)
  have hword : (UInt64.ofNat M).toNat = M := toNat_ofNat (by omega)
  rw [truncated_small hpower hprecise, if_pos (Nat.mul_lt_mul_of_pos_right (by omega) hpos),
    Nat.mul_div_cancel _ hpos]
  simp only [toNat_raised, Except.ok.injEq, exists_eq_left', hword]
  split <;> omega

theorem raised_cut_large_iff {precise M T : Nat} (hprecise : 10 ≤ precise) (hM : M ≤ T)
    (hT : T ≤ M + 1) (hfits : T < 2 ^ 64) (ceiling : Bool) :
    (∃ value, truncated (M / 10 ^ precise * (calcBase F precise).toInt) = .ok value ∧
      (raised ceiling value).toNat = T) ↔ if ceiling then T = 1 else T = 0 := by
  have hpos : 0 < 10 ^ precise := Nat.pow_pos (by decide)
  simp only [toNat_raised]
  constructor
  · rintro ⟨value, hvalue, hresult⟩
    have hquarter := Nat.le_of_mul_le_mul_right (truncated_large hprecise hvalue) hpos
    split at hresult
    · rw [if_pos ‹_›]
      omega
    · rw [if_neg ‹_›]
      omega
  · intro hcases
    have hsmall : M ≤ 1 := by
      split at hcases <;> omega
    have hzero : truncated (M / 10 ^ precise * (calcBase F precise).toInt) = .ok 0 :=
      truncated_large_zero hprecise ((Nat.mul_le_mul_right _ hsmall).trans_eq (Nat.one_mul _))
    have hword : (0 : UInt64).toNat = 0 := rfl
    refine ⟨0, hzero, ?_⟩
    rw [hword]
    split at hcases
    · rw [if_pos ‹_›]
      omega
    · rw [if_neg ‹_›]
      omega

/-! Cut without a point: the leading digits `M` are taken for the whole number `N`. -/

theorem raised_leading_small_iff (hpower : PowersOfTen (calcBase F)) {precise M N : Nat}
    (hprecise : precise ≤ 9) (hM : 10 * M ≤ N) (hnone : precise = 0 → M = 0)
    (hfits : N * 10 ^ precise < 2 ^ 64) (ceiling : Bool) :
    (∃ value, truncated (M * (calcBase F precise).toInt) = .ok value ∧
      (raised ceiling value).toNat = N * 10 ^ precise) ↔
      if ceiling then precise = 0 ∧ N = 1 else N = 0 := by
  have hunit : (M : ℚ) = M / 10 ^ 0 := by simp
  have hten : 10 * (M * 10 ^ precise) ≤ N * 10 ^ precise := by
    rw [← Nat.mul_assoc]
    exact Nat.mul_le_mul_right _ hM
  have hN : N * 10 ^ precise = 0 ↔ N = 0 := by simp
  have hword : (UInt64.ofNat (M * 10 ^ precise)).toNat = M * 10 ^ precise := toNat_ofNat (by omega)
  rw [hunit, truncated_small hpower hprecise, Nat.pow_zero, Nat.div_one, if_pos (by omega)]
  simp only [toNat_raised, Except.ok.injEq, exists_eq_left', hword]
  rcases Nat.eq_zero_or_pos precise with rfl | hpositive
  · simp only [hnone rfl, Nat.pow_zero, Nat.mul_one, true_and]
    split <;> omega
  · -- Both sides are multiples of 10, so 1 cannot make up for what is missing.
    obtain ⟨unit, hunit⟩ := Nat.dvd_of_pow_dvd hpositive (Nat.dvd_refl (10 ^ precise))
    simp only [hunit, Nat.mul_left_comm _ 10] at *
    split <;> omega

theorem raised_leading_large_iff {precise M N : Nat} (hprecise : 10 ≤ precise) (hM : 10 * M ≤ N)
    (hfits : N * 10 ^ precise < 2 ^ 64) (ceiling : Bool) :
    (∃ value, truncated (M * (calcBase F precise).toInt) = .ok value ∧
      (raised ceiling value).toNat = N * 10 ^ precise) ↔
      if ceiling then precise = 0 ∧ N = 1 else N = 0 := by
  have hunit : (M : ℚ) = M / 10 ^ 0 := by simp
  have hten : 10 * (M * 10 ^ precise) ≤ N * 10 ^ precise := by
    rw [← Nat.mul_assoc]
    exact Nat.mul_le_mul_right _ hM
  have hN : N * 10 ^ precise = 0 ↔ N = 0 := by simp
  obtain ⟨unit, htens⟩ := Nat.dvd_of_pow_dvd (by omega : 1 ≤ precise) (Nat.dvd_refl (10 ^ precise))
  rw [hunit]
  simp only [toNat_raised]
  constructor
  · rintro ⟨value, hvalue, hresult⟩
    have hquarter := truncated_large hprecise hvalue
    simp only [htens, Nat.mul_left_comm _ 10, Nat.pow_zero, Nat.mul_one] at *
    have hword : (value.toNat + 1) % 2 ^ 64 = value.toNat + 1 := Nat.mod_eq_of_lt (by omega)
    split at hresult
    · omega
    · rw [if_neg ‹_›]
      omega
  · intro hcases
    split at hcases
    · omega
    · have hzero : M = 0 := by omega
      refine ⟨0, truncated_large_zero hprecise ?_, ?_⟩
      · rw [hzero, Nat.zero_mul]
        exact Nat.zero_le _
      · rw [if_neg ‹_›, hcases, Nat.zero_mul]
        rfl

theorem div_mul_eq_iff_dvd {Y D factor : Nat} (hfactor : 0 < factor) :
    Y / D * factor = Y * factor / D ↔ factor ∣ Y * factor / D := by
  constructor
  · intro heq
    exact Dvd.intro_left _ heq
  · intro hdvd
    have hquotient : Y * factor / D / factor = Y / D := by
      rw [Nat.div_div_eq_div_mul, Nat.mul_div_mul_right _ _ hfactor]
    rw [← hquotient, Nat.div_mul_cancel hdvd]

theorem div_mul_eq_ceil_iff_dvd {Y D factor : Nat} (hD : 0 < D) (hfactor : 0 < factor) :
    Y / D * factor = quotient true (Y * factor) D ↔ D ∣ Y := by
  constructor
  · intro heq
    have hle := (quotient_true_le_iff (Y * factor) hD (Y / D * factor)).mp heq.ge
    rw [Nat.mul_right_comm] at hle
    have hback := Nat.le_of_mul_le_mul_right hle hfactor
    exact Dvd.intro_left _ (Nat.le_antisymm (Nat.div_mul_le_self Y D) hback)
  · intro hdvd
    rw [quotient_of_dvd (hdvd.mul_right factor)]
    exact (Nat.mul_div_right_comm hdvd factor).symm

/-! The whole text at a base that is not above the precision: `Y` is the number in
units of `10 ^ -base`, and `factor` leads from there to the precision. -/

theorem whole_fits {Y D factor : Nat} (hD : 0 < D) {ceiling : Bool}
    (hfits : quotient ceiling (Y * factor) D < 2 ^ 64 * factor) : Y < 2 ^ 64 * D := by
  apply Nat.lt_of_mul_lt_mul_right (a := factor)
  calc Y * factor
      < (quotient ceiling (Y * factor) D + 1) * D := lt_quotient_succ_mul hD ceiling (Y * factor)
    _ ≤ 2 ^ 64 * factor * D := Nat.mul_le_mul_right _ hfits
    _ = 2 ^ 64 * D * factor := by ring

theorem whole_small_iff (hpower : PowersOfTen (calcBase F)) {base places N factor : Nat}
    (hbase : base ≤ 9) (hfactor : 0 < factor) (ceiling : Bool)
    (hfits : quotient ceiling (N * 10 ^ base * factor) (10 ^ places) < 2 ^ 64 * factor) :
    (∃ value, truncated (N / 10 ^ places * (calcBase F base).toInt) = .ok value ∧
      value.toNat * factor = quotient ceiling (N * 10 ^ base * factor) (10 ^ places)) ↔
      if ceiling then 10 ^ places ∣ N * 10 ^ base
      else factor ∣ quotient false (N * 10 ^ base * factor) (10 ^ places) := by
  have hpos : 0 < 10 ^ places := Nat.pow_pos (by decide)
  have hword := whole_fits hpos hfits
  have hvalue : (UInt64.ofNat (N * 10 ^ base / 10 ^ places)).toNat = N * 10 ^ base / 10 ^ places :=
    toNat_ofNat ((Nat.div_lt_iff_lt_mul hpos).mpr hword)
  rw [truncated_small hpower hbase, if_pos hword]
  simp only [Except.ok.injEq, exists_eq_left', hvalue]
  cases ceiling with
  | false =>
    rw [quotient_false]
    exact div_mul_eq_iff_dvd hfactor
  | true => exact div_mul_eq_ceil_iff_dvd hpos hfactor

/-- With a base that is too large only a result of 0 comes out right: any other value
is at most a quarter of what it should be. -/
theorem whole_large_iff {base places N factor : Nat} (hbase : 10 ≤ base) (hfactor : 0 < factor)
    (ceiling : Bool) :
    (∃ value, truncated (N / 10 ^ places * (calcBase F base).toInt) = .ok value ∧
      value.toNat * factor = quotient ceiling (N * 10 ^ base * factor) (10 ^ places)) ↔
      quotient ceiling (N * 10 ^ base * factor) (10 ^ places) = 0 := by
  have hpos : 0 < 10 ^ places := Nat.pow_pos (by decide)
  have hnext := lt_quotient_succ_mul hpos ceiling (N * 10 ^ base * factor)
  constructor
  · rintro ⟨value, hvalue, hresult⟩
    have hquarter := Nat.mul_le_mul_right factor (truncated_large hbase hvalue)
    rw [← hresult] at hnext ⊢
    have hbelow : 4 * (value.toNat * factor) < value.toNat * factor + 1 := by
      apply Nat.lt_of_mul_lt_mul_right (a := 10 ^ places)
      calc 4 * (value.toNat * factor) * 10 ^ places
          = 4 * value.toNat * 10 ^ places * factor := by ring
        _ ≤ N * 10 ^ base * factor := hquarter
        _ < (value.toNat * factor + 1) * 10 ^ places := hnext
    omega
  · intro hzero
    rw [hzero, Nat.zero_add, Nat.one_mul] at hnext
    have hsmall : N * 10 ^ base ≤ 10 ^ places :=
      (Nat.le_mul_of_pos_right _ hfactor).trans hnext.le
    refine ⟨0, truncated_large_zero hbase hsmall, ?_⟩
    rw [hzero]
    exact Nat.zero_mul _

namespace Literal

/-! Without a precision. -/

/-- `from(s)` and the constructor leave an object that denotes the number. -/
def ParsesExactly (F : Type) [DecimalDouble F] (self : SDecimal) (s : Literal) : Prop :=
  ∃ x, self.fromString F s.text (-1) false = .ok x ∧ self.ofString F s.text = .ok x ∧
    x.toRat = s.number

theorem toRat_eq_number_iff (s : Literal) (value : UInt64) :
    SDecimal.toRat ⟨value, .ofNat s.base⟩ = s.number ↔
      value.toNat * 10 ^ s.places = numeral s.digits * 10 ^ s.base := by
  have hplaces : (10 : ℚ) ^ s.places ≠ 0 := by positivity
  have hbase : (10 : ℚ) ^ s.base ≠ 0 := by positivity
  unfold SDecimal.toRat number
  rw [toNat_base, div_eq_div_iff hbase hplaces]
  exact_mod_cast Iff.rfl

theorem parsesExactly_iff_truncated (hval : ReadsExactly val) (self : SDecimal) (s : Literal) :
    ParsesExactly F self s ↔
      ∃ value, truncated (numeral s.digits / 10 ^ s.places * (calcBase F s.base).toInt) =
        .ok value ∧ value.toNat * 10 ^ s.places = numeral s.digits * 10 ^ s.base := by
  have hwhole : ¬ (0 ≤ (-1 : Int32).toInt ∧ (-1 : Int32).toInt < s.base) :=
    fun h => absurd h.1 (by decide)
  have hparse := fromString_whole hval self s hwhole false
  have hsame : self.ofString F s.text = self.fromString F s.text (-1) false := rfl
  unfold ParsesExactly
  simp only [hsame, and_self_left, hparse, exists_bind_ok, toRat_eq_number_iff]
  rfl

theorem places_of_none {s : Literal} (h : s.fraction = none) : s.places = 0 := by
  simp [places, h]

theorem base_of_some {s : Literal} {fraction : List (Fin 10)} (h : s.fraction = some fraction) :
    s.base = s.places % 2 ^ 16 := by
  simp [base, counted, places, h]

/-- A literal of more than 65535 decimals keeps only those its base counts. -/
theorem not_dvd_of_wrapped {s : Literal} (hdigits : numeral s.digits < 2 ^ 64)
    (hpositive : numeral s.digits ≠ 0) (hwrapped : s.base + 20 ≤ s.places) :
    ¬ 10 ^ s.places ∣ numeral s.digits * 10 ^ s.base := by
  intro hdvd
  have hsplit : 10 ^ s.places = 10 ^ (s.places - s.base) * 10 ^ s.base := by
    rw [← Nat.pow_add, Nat.sub_add_cancel (by omega)]
  rw [hsplit] at hdvd
  have hle := Nat.le_of_dvd (by omega) (Nat.dvd_of_mul_dvd_mul_right (Nat.pow_pos (by decide)) hdvd)
  have hlarge : 10 ^ 20 ≤ 10 ^ (s.places - s.base) := Nat.pow_le_pow_right (by decide) (by omega)
  omega

/-- A literal is parsed to its number exactly when it has a point with at most nine
decimals behind it, or none and at most nine digits that fit when scaled up. -/
theorem parses_exactly_iff (hval : ReadsExactly val) (hpower : PowersOfTen (calcBase F))
    (self : SDecimal) {s : Literal} (hdigits : numeral s.digits < 2 ^ 64) :
    ParsesExactly F self s ↔
      numeral s.digits = 0 ∨ (s.fraction.isSome ∧ s.places ≤ 9) ∨
        (s.fraction = none ∧ s.base ≤ 9 ∧ numeral s.digits * 10 ^ s.base < 2 ^ 64) := by
  rw [parsesExactly_iff_truncated hval, truncated_exact_iff hpower]
  cases hfraction : s.fraction with
  | none => simp [places_of_none hfraction]
  | some fraction =>
    have hbase := base_of_some hfraction
    simp only [Option.isSome_some, true_and, reduceCtorEq, false_and, or_false]
    refine or_congr_right' fun hpositive => ?_
    constructor
    · rintro ⟨hsmall, _, hdvd⟩
      by_contra hlarge
      exact not_dvd_of_wrapped hdigits hpositive (by omega) hdvd
    · intro hsmall
      have hequal : s.base = s.places := by omega
      rw [hequal]
      exact ⟨hsmall, Nat.mul_lt_mul_of_pos_right hdigits (Nat.pow_pos (by decide)),
        Nat.dvd_mul_left _ _⟩

/-- 12.5 -/
def twelvePointFive : Literal where
  whole := [1, 2]
  fraction := some [5]
  whole_ne_nil := by decide
  fraction_ne_nil := by decide
  length_lt := by decide

theorem parses_exactly_iff_sample : ParsesExactly ℚ .maxDecimal twelvePointFive :=
  (parses_exactly_iff readsExactly_rat powersOfTen_calcBase _ (by decide)).mpr
    (.inr (.inl (by decide)))

/-- 1000000000, without a point. -/
def tenDigits : Literal where
  whole := [1, 0, 0, 0, 0, 0, 0, 0, 0, 0]
  fraction := none
  whole_ne_nil := by decide
  fraction_ne_nil := by decide
  length_lt := by decide

/-- Ten digits without a point are scaled by 10^10, which is no `int`. -/
theorem parses_inexactly :
    numeral tenDigits.digits < 2 ^ 64 ∧
      SDecimal.zero.fromString ℚ tenDigits.text (-1) false = .error .undefined ∧
      ¬ ParsesExactly ℚ .zero tenDigits := by
  have hparse : SDecimal.zero.fromString ℚ tenDigits.text (-1) false = .error .undefined := by
    decide +kernel
  refine ⟨by decide, hparse, ?_⟩
  rintro ⟨x, hx, _⟩
  rw [hparse] at hx
  cases hx

/-! With a precision. -/

/-- The result the mode asks for, in units of `10 ^ -precise`. -/
def target (s : Literal) (precise : Nat) (ceiling : Bool) : Nat :=
  quotient ceiling (numeral s.digits * 10 ^ precise) (10 ^ s.places)

/-- The number itself when it has no more than `precise` decimals, else the multiple
of `10 ^ -precise` next to it. -/
def Denotes (s : Literal) (precise : Nat) (ceiling : Bool) (x : SDecimal) : Prop :=
  if precise < s.places then Brackets (10 ^ precise) s.number ceiling x.toRat
  else x.toRat = s.number

def ParsesRounded (F : Type) [DecimalDouble F] (self : SDecimal) (s : Literal) (precise : Int32)
    (ceiling : Bool) : Prop :=
  ∃ x, self.fromString F s.text precise ceiling = .ok x ∧
    s.Denotes precise.toInt.toNat ceiling x

theorem denotes_iff (s : Literal) (precise : Nat) (ceiling : Bool) (x : SDecimal) :
    s.Denotes precise ceiling x ↔ x.toRat * 10 ^ precise = s.target precise ceiling := by
  have hnumber : s.number * 10 ^ precise =
      (numeral s.digits * 10 ^ precise : Nat) / (10 ^ s.places : Nat) := by
    unfold number
    push_cast
    ring
  have hpow : (10 : ℚ) ^ precise ≠ 0 := by positivity
  unfold Denotes target
  split
  · exact brackets_iff (by positivity) (Nat.pow_pos (by decide)) hnumber ceiling _
  · rename_i hle
    have hdvd : 10 ^ s.places ∣ numeral s.digits * 10 ^ precise :=
      (Nat.pow_dvd_pow 10 (by omega)).mul_left _
    rw [quotient_of_dvd hdvd, Nat.cast_div hdvd (by positivity), ← hnumber, mul_left_inj' hpow]

/-- The bases of the two branches. -/
theorem toRat_mul_pow_cut {precise : Nat} {base : UInt16} (hbase : base.toNat = precise)
    (value : UInt64) : SDecimal.toRat ⟨value, base⟩ * 10 ^ precise = value.toNat := by
  have hpow : (10 : ℚ) ^ precise ≠ 0 := by positivity
  unfold SDecimal.toRat
  rw [hbase, div_mul_cancel₀ _ hpow]

theorem toRat_mul_pow_whole {s : Literal} {precise : Nat} (hle : s.base ≤ precise)
    (value : UInt64) : SDecimal.toRat ⟨value, .ofNat s.base⟩ * 10 ^ precise =
      (value.toNat * 10 ^ (precise - s.base) : Nat) := by
  have hsplit : (10 : ℚ) ^ precise = 10 ^ (precise - s.base) * 10 ^ s.base := by
    rw [← pow_add, Nat.sub_add_cancel hle]
  unfold SDecimal.toRat
  rw [toNat_base, hsplit]
  push_cast
  field_simp

theorem target_of_some {s : Literal} {fraction : List (Fin 10)} (h : s.fraction = some fraction)
    {precise : Nat} (hcut : precise < s.base) (ceiling : Bool) :
    s.target precise ceiling =
      if ceiling ∧ numeral (fraction.drop precise) ≠ 0 then
        numeral (s.whole ++ fraction.take precise) + 1
      else numeral (s.whole ++ fraction.take precise) := by
  have hbase := base_of_some h
  have hplaces : s.places = fraction.length := by simp [places, h]
  have hdigits : numeral s.digits = numeral (s.whole ++ fraction.take precise) *
      10 ^ (fraction.drop precise).length + numeral (fraction.drop precise) := by
    rw [← numeral_append, List.append_assoc, List.take_append_drop]
    simp [digits, h]
  have hpow : 10 ^ s.places = 10 ^ (fraction.drop precise).length * 10 ^ precise := by
    rw [← Nat.pow_add, List.length_drop, Nat.sub_add_cancel (by omega), hplaces]
  unfold target
  rw [hdigits, hpow, quotient_mul_right (Nat.pow_pos (by decide)),
    quotient_add_of_lt (numeral_lt _)]

theorem target_of_none {s : Literal} (h : s.fraction = none) (precise : Nat) (ceiling : Bool) :
    s.target precise ceiling = numeral s.whole * 10 ^ precise := by
  have hdigits : s.digits = s.whole := by simp [digits, h]
  unfold target
  rw [places_of_none h, hdigits, Nat.pow_zero, quotient_of_dvd (Nat.one_dvd _), Nat.div_one]

/-- The result, scaled to the base the object gets, fits 64 bits. -/
def Fits (s : Literal) (precise : Nat) (ceiling : Bool) : Prop :=
  (s.target precise ceiling / 10 ^ precise * 10 ^ min precise s.base : ℚ) < 2 ^ 64

/-- The literals that are parsed as their mode asks for. The first branch cuts the
text. Behind a point it needs a power of ten that fits an `int`, and a digit that is
dropped to round up for; without a point it cuts digits of the number itself. The
second branch reads the whole text and ignores the mode. -/
def Parseable (s : Literal) (precise : Nat) (ceiling : Bool) : Prop :=
  if precise < s.base then
    match s.fraction with
    | some fraction =>
      if ceiling then
        precise ≤ 9 ∧ numeral (fraction.drop precise) ≠ 0 ∨
          10 ≤ precise ∧ s.target precise true = 1
      else precise ≤ 9 ∨ s.target precise false = 0
    | none => if ceiling then precise = 0 ∧ numeral s.whole = 1 else numeral s.whole = 0
  else if s.base ≤ 9 then
    if ceiling then 10 ^ s.places ∣ numeral s.digits * 10 ^ s.base
    else 10 ^ (precise - s.base) ∣ s.target precise false
  else s.target precise ceiling = 0

theorem parsesRounded_cut_iff (hval : ReadsExactly val) (self : SDecimal) {s : Literal}
    {precise : Int32} (hlow : 0 ≤ precise.toInt) (hcut : precise.toInt < s.base) (ceiling : Bool) :
    ParsesRounded F self s precise ceiling ↔
      ∃ value, truncated (s.cutNumber precise.toInt.toNat *
          (calcBase F precise.toInt.toNat).toInt) = .ok value ∧
        (raised ceiling value).toNat = s.target precise.toInt.toNat ceiling := by
  have hlt : s.base < 2 ^ 16 := Nat.mod_lt _ (by decide)
  have hbase := toNat_precise hlow (by omega)
  unfold ParsesRounded
  simp only [fromString_cut hval self s hlow hcut, exists_bind_ok, denotes_iff,
    toRat_mul_pow_cut hbase, Nat.cast_inj]
  rfl

theorem parsesRounded_whole_iff (hval : ReadsExactly val) (self : SDecimal) {s : Literal}
    {precise : Int32} (hlow : 0 ≤ precise.toInt) (hwhole : ¬ precise.toInt < s.base)
    (ceiling : Bool) :
    ParsesRounded F self s precise ceiling ↔
      ∃ value, truncated (numeral s.digits / 10 ^ s.places * (calcBase F s.base).toInt) =
          .ok value ∧
        value.toNat * 10 ^ (precise.toInt.toNat - s.base) =
          s.target precise.toInt.toNat ceiling := by
  have hbranch : ¬ (0 ≤ precise.toInt ∧ precise.toInt < s.base) := fun h => hwhole h.2
  unfold ParsesRounded
  simp only [fromString_whole hval self s hbranch, exists_bind_ok, denotes_iff,
    toRat_mul_pow_whole (show s.base ≤ precise.toInt.toNat by omega), Nat.cast_inj]
  rfl

theorem fits_cut {s : Literal} {precise : Nat} (hcut : precise < s.base) {ceiling : Bool}
    (hfits : s.Fits precise ceiling) : s.target precise ceiling < 2 ^ 64 := by
  have hpow : (10 : ℚ) ^ precise ≠ 0 := by positivity
  rw [Fits, Nat.min_eq_left hcut.le, div_mul_cancel₀ _ hpow] at hfits
  exact_mod_cast hfits

theorem fits_whole {s : Literal} {precise : Nat} (hle : s.base ≤ precise) {ceiling : Bool}
    (hfits : s.Fits precise ceiling) :
    s.target precise ceiling < 2 ^ 64 * 10 ^ (precise - s.base) := by
  have hsplit : (10 : ℚ) ^ precise = 10 ^ (precise - s.base) * 10 ^ s.base := by
    rw [← pow_add, Nat.sub_add_cancel hle]
  have hpow : (10 : ℚ) ^ s.base ≠ 0 := by positivity
  have hpos : (0 : ℚ) < 10 ^ (precise - s.base) := by positivity
  rw [Fits, Nat.min_eq_right hle, hsplit, ← div_div, div_mul_cancel₀ _ hpow, div_lt_iff₀ hpos]
    at hfits
  exact_mod_cast hfits

theorem cut_some_iff (hpower : PowersOfTen (calcBase F)) {s : Literal}
    {fraction : List (Fin 10)} (hfraction : s.fraction = some fraction) {precise : Nat}
    (hcut : precise < s.base) {ceiling : Bool} (hfits : s.target precise ceiling < 2 ^ 64) :
    (∃ value, truncated (s.cutNumber precise * (calcBase F precise).toInt) = .ok value ∧
      (raised ceiling value).toNat = s.target precise ceiling) ↔ s.Parseable precise ceiling := by
  have hbase := base_of_some hfraction
  have hplaces : s.places = fraction.length := by simp [places, hfraction]
  have hlength : (fraction.take precise).length = precise := by
    rw [List.length_take]
    omega
  have htarget := target_of_some hfraction hcut
  have hcutNumber : s.cutNumber precise =
      numeral (s.whole ++ fraction.take precise) / 10 ^ precise := by
    simp [cutNumber, hfraction, hlength]
  have hlow : numeral (s.whole ++ fraction.take precise) ≤ s.target precise ceiling := by
    rw [htarget]
    split <;> omega
  have hhigh : s.target precise ceiling ≤ numeral (s.whole ++ fraction.take precise) + 1 := by
    rw [htarget]
    split <;> omega
  have hfalse : s.target precise false = numeral (s.whole ++ fraction.take precise) := by
    simp [htarget]
  have htrue : s.target precise true = numeral (s.whole ++ fraction.take precise) + 1 ↔
      numeral (fraction.drop precise) ≠ 0 := by
    rw [htarget]
    split <;> simp_all
  rw [hcutNumber, Parseable, if_pos hcut, hfraction]
  by_cases hprecise : precise ≤ 9
  · rw [raised_cut_small_iff hpower hprecise hlow hfits]
    cases ceiling with
    | false => simp [hprecise, hfalse]
    | true =>
      simp only [if_true, htrue]
      omega
  · rw [raised_cut_large_iff (by omega) hlow hhigh hfits]
    cases ceiling with
    | false => simp [hprecise]
    | true =>
      simp only [if_true]
      omega

theorem cut_none_iff (hpower : PowersOfTen (calcBase F)) {s : Literal}
    (hfraction : s.fraction = none) {precise : Nat} (hcut : precise < s.base) {ceiling : Bool}
    (hfits : s.target precise ceiling < 2 ^ 64) :
    (∃ value, truncated (s.cutNumber precise * (calcBase F precise).toInt) = .ok value ∧
      (raised ceiling value).toNat = s.target precise ceiling) ↔ s.Parseable precise ceiling := by
  have hcounted : s.counted = s.whole.length := by simp [counted, hfraction]
  have hbase : s.base ≤ s.whole.length := hcounted ▸ Nat.mod_le _ _
  have hcutNumber : s.cutNumber precise = numeral (s.whole.take precise) := by
    simp [cutNumber, hfraction]
  have hten : 10 * numeral (s.whole.take precise) ≤ numeral s.whole := by
    have hlong : 10 ^ 1 ≤ 10 ^ (s.whole.drop precise).length := by
      apply Nat.pow_le_pow_right (by decide)
      rw [List.length_drop]
      omega
    have hsplit := numeral_append (s.whole.take precise) (s.whole.drop precise)
    have hmul := Nat.mul_le_mul_left (numeral (s.whole.take precise)) hlong
    rw [List.take_append_drop] at hsplit
    omega
  have hzero : precise = 0 → numeral (s.whole.take precise) = 0 := by
    rintro rfl
    rfl
  rw [target_of_none hfraction] at hfits ⊢
  rw [hcutNumber, Parseable, if_pos hcut, hfraction]
  by_cases hprecise : precise ≤ 9
  · exact raised_leading_small_iff hpower hprecise hten hzero hfits ceiling
  · exact raised_leading_large_iff (by omega) hten hfits ceiling

theorem whole_iff (hpower : PowersOfTen (calcBase F)) {s : Literal} {precise : Nat}
    (hle : s.base ≤ precise) {ceiling : Bool}
    (hfits : s.target precise ceiling < 2 ^ 64 * 10 ^ (precise - s.base)) :
    (∃ value, truncated (numeral s.digits / 10 ^ s.places * (calcBase F s.base).toInt) =
        .ok value ∧
      value.toNat * 10 ^ (precise - s.base) = s.target precise ceiling) ↔
      s.Parseable precise ceiling := by
  have hsplit : numeral s.digits * 10 ^ precise =
      numeral s.digits * 10 ^ s.base * 10 ^ (precise - s.base) := by
    rw [Nat.mul_assoc, ← Nat.pow_add, Nat.add_sub_cancel' hle]
  have hfactor : 0 < 10 ^ (precise - s.base) := Nat.pow_pos (by decide)
  unfold Parseable
  rw [if_neg (Nat.not_lt.mpr hle)]
  unfold target at hfits ⊢
  rw [hsplit] at hfits ⊢
  by_cases hbase : s.base ≤ 9
  · rw [if_pos hbase]
    exact whole_small_iff hpower hbase hfactor ceiling hfits
  · rw [if_neg hbase]
    exact whole_large_iff (by omega) hfactor ceiling

/-- Parsing with a precision gives the result its mode asks for exactly when the
literal is `Parseable`. -/
theorem parses_rounded_iff (hval : ReadsExactly val) (hpower : PowersOfTen (calcBase F))
    (self : SDecimal) (s : Literal) {precise : Int32} (hprecise : 0 ≤ precise.toInt)
    {ceiling : Bool} (hfits : s.Fits precise.toInt.toNat ceiling) :
    ParsesRounded F self s precise ceiling ↔ s.Parseable precise.toInt.toNat ceiling := by
  by_cases hcut : precise.toInt < s.base
  · have hcut' : precise.toInt.toNat < s.base := by omega
    rw [parsesRounded_cut_iff hval self hprecise hcut]
    cases hfraction : s.fraction with
    | none => exact cut_none_iff hpower hfraction hcut' (fits_cut hcut' hfits)
    | some fraction => exact cut_some_iff hpower hfraction hcut' (fits_cut hcut' hfits)
  · have hle : s.base ≤ precise.toInt.toNat := by omega
    rw [parsesRounded_whole_iff hval self hprecise hcut]
    exact whole_iff hpower hle (fits_whole hle hfits)

/-- Texts that need no cut and have at most nine counted characters are read as they are. -/
theorem parseable_of_counted_le {s : Literal} {precise : Nat} (hprecise : s.counted ≤ precise)
    (hnine : s.counted ≤ 9) (ceiling : Bool) : s.Parseable precise ceiling := by
  have hbase : s.base = s.counted := Nat.mod_eq_of_lt (by omega)
  have hplaces : s.places ≤ s.base := by
    rw [hbase]
    cases hfraction : s.fraction <;> simp [places, counted, hfraction]
  unfold Parseable
  rw [if_neg (by omega), if_pos (by omega)]
  cases ceiling with
  | true => exact (Nat.pow_dvd_pow 10 hplaces).mul_left _
  | false =>
    have hdvd : 10 ^ s.places ∣ 10 ^ precise := Nat.pow_dvd_pow 10 (by omega)
    rw [if_neg (by decide), target, quotient_false, Nat.mul_div_assoc _ hdvd,
      Nat.pow_div (by omega) (by decide)]
    exact (Nat.pow_dvd_pow 10 (by omega)).mul_left _

theorem parses_rounded_iff_sample : ParsesRounded ℚ .zero twelvePointFive 0 true := by
  have hfits : twelvePointFive.Fits 0 true := by
    unfold Fits
    decide +kernel
  have hprecise : 0 ≤ (0 : Int32).toInt := by decide
  exact (parses_rounded_iff readsExactly_rat powersOfTen_calcBase _ twelvePointFive hprecise
    hfits).mpr (.inl ⟨by decide, by decide⟩)

/-- 1.50 -/
def onePointFifty : Literal where
  whole := [1]
  fraction := some [5, 0]
  whole_ne_nil := by decide
  fraction_ne_nil := by decide
  length_lt := by decide

/-- Rounded up to one decimal, 1.50 becomes 1.6 although the digit that is dropped is 0. -/
theorem parses_rounded_wrongly :
    onePointFifty.Fits 1 true ∧
      SDecimal.zero.fromString ℚ onePointFifty.text 1 true = .ok ⟨16, 1⟩ ∧
      ¬ ParsesRounded ℚ .zero onePointFifty 1 true := by
  have hparse : SDecimal.zero.fromString ℚ onePointFifty.text 1 true = .ok ⟨16, 1⟩ := by
    decide +kernel
  have hfits : onePointFifty.Fits 1 true := by
    unfold Fits
    decide +kernel
  refine ⟨hfits, hparse, ?_⟩
  rintro ⟨x, hx, hdenotes⟩
  cases hparse.symm.trans hx
  have hrational := (denotes_iff onePointFifty 1 true ⟨16, 1⟩).mp hdenotes
  revert hrational
  decide +kernel

end Literal

end MarketServer
