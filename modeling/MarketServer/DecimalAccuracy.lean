import MarketServer.DecimalDouble
import MarketServer.Library.BoundedLoop
import MarketServer.Library.Grid

/-! Converting a floating number, with exact rationals in place of `double`. The loop
adds one decimal place after the other, starting from the base the object has. -/
namespace MarketServer
open Library

namespace SDecimal

/-- `get_value` over exact rationals. A quotient by 0 is 0 here; in the source it is an
infinity, to which no number is close, and 0 / 0 is not a number at all. -/
def exactValue (power : Nat → Int32) (decimal : SDecimal) : ℚ :=
  decimal.value.toNat * 1 / (power decimal.base.toNat).toInt

theorem exactValue_calcBase (decimal : SDecimal) :
    decimal.exactValue (calcBase ℚ) = decimal.getValue := rfl

/-- The number of passes after which the loop gives up. -/
def limit : Nat := 100

/-- The test of the loop. -/
def farFrom (power : Nat → Int32) (v bias : ℚ) (decimal : SDecimal) : Bool :=
  |decimal.exactValue power - v| / v > bias

/-- One pass of the loop. -/
def addPlace (power : Nat → Int32) (v : ℚ) (decimal : SDecimal) : Except Failure SDecimal := do
  let base := decimal.base + 1
  let value ← truncated (v * (power base.toNat).toInt)
  return ⟨value, base⟩

/-- `from(double, double)`. The value and the base of the object are not reset, and
the constructor runs it on memory that may hold anything. -/
def fromDouble (power : Nat → Int32) (self : SDecimal) (v bias : ℚ) : Except Failure SDecimal :=
  boundedWhile (farFrom power v bias) (addPlace power v) (limit + 1) self

/-- The number of the object is within the relative error. -/
def Accurate (v bias : ℚ) (x : SDecimal) : Prop := |x.toRat - v| ≤ bias * v

instance (v bias : ℚ) (x : SDecimal) : Decidable (Accurate v bias x) :=
  inferInstanceAs (Decidable (_ ≤ _))

/-- The object reaches the accuracy whatever `int` a power of ten is converted to that
does not fit. -/
def ReachesAccuracy (self : SDecimal) (v bias : ℚ) : Prop :=
  ∀ power, PowersOfTen power →
    ∃ x, self.fromDouble power v bias = .ok x ∧ Accurate v bias x

/-- The number is there already, or nine places are enough for it and still to come. -/
def InReach (v bias : ℚ) (decimal : SDecimal) : Prop :=
  Accurate v bias decimal ∨
    decimal.base.toNat ≤ 8 ∧ |cutTo (10 ^ 9) v - v| ≤ bias * v

/-- Which objects can be given the number. Up to nine places the powers of ten are
right; 65535 is the only larger base from which the next one is, as it wraps to 0. -/
def Convertible (self : SDecimal) (v bias : ℚ) : Prop :=
  if self.base.toNat ≤ 9 then InReach v bias self
  else
    self.base.toNat = 65535 ∧ |cutTo (10 ^ 9) v - v| ≤ bias * v ∧
      ∀ factor : Int32, |self.value.toNat / factor.toInt - v| ≤ bias * v → Accurate v bias self

/-- `v` with the places a base has. -/
def cut (v : ℚ) (places : Nat) : SDecimal := ⟨.ofNat ⌊v * 10 ^ places⌋₊, .ofNat places⟩

variable {power : Nat → Int32} {v bias : ℚ}

theorem farFrom_eq_false_iff (hv : 0 < v) (decimal : SDecimal) :
    farFrom power v bias decimal = false ↔ |decimal.exactValue power - v| ≤ bias * v := by
  unfold farFrom
  rw [decide_eq_false_iff_not, gt_iff_lt, not_lt, div_le_iff₀ hv]

theorem exactValue_of_le (hpower : PowersOfTen power) {decimal : SDecimal}
    (hbase : decimal.base.toNat ≤ 9) : decimal.exactValue power = decimal.toRat := by
  unfold exactValue toRat
  rw [hpower _ hbase, mul_one]
  push_cast
  rfl

theorem farFrom_iff_of_le (hpower : PowersOfTen power) (hv : 0 < v) {decimal : SDecimal}
    (hbase : decimal.base.toNat ≤ 9) :
    farFrom power v bias decimal = false ↔ Accurate v bias decimal := by
  rw [farFrom_eq_false_iff hv, exactValue_of_le hpower hbase]
  rfl

theorem scaled_lt (hv : 0 < v) (hmax : v ≤ 10 ^ 9) {places : Nat} (hplaces : places ≤ 9) :
    ⌊v * 10 ^ places⌋₊ < 2 ^ 64 := by
  have hpow : (10 : ℚ) ^ places ≤ 10 ^ 9 := pow_le_pow_right₀ (by norm_num) hplaces
  have hle : v * 10 ^ places ≤ 10 ^ 9 * 10 ^ 9 := mul_le_mul hmax hpow (by positivity) (by norm_num)
  have hfloor : (⌊v * 10 ^ places⌋₊ : ℚ) ≤ v * 10 ^ places := Nat.floor_le (by positivity)
  have hlt : (⌊v * 10 ^ places⌋₊ : ℚ) < 2 ^ 64 := by
    apply (hfloor.trans hle).trans_lt
    norm_num
  exact_mod_cast hlt

theorem base_cut {places : Nat} (hplaces : places ≤ 9) : (cut v places).base.toNat = places :=
  UInt16.toNat_ofNat_of_lt' (hplaces.trans_lt (by decide))

theorem toRat_cut (hv : 0 < v) (hmax : v ≤ 10 ^ 9) {places : Nat} (hplaces : places ≤ 9) :
    (cut v places).toRat = cutTo (10 ^ places) v := by
  unfold toRat cutTo
  rw [base_cut hplaces, cut, toNat_ofNat (scaled_lt hv hmax hplaces)]

/-- A pass to a base of at most nine places cuts the number there. -/
theorem addPlace_eq_cut (hpower : PowersOfTen power) (hv : 0 < v) (hmax : v ≤ 10 ^ 9)
    {decimal : SDecimal} {places : Nat} (hnext : (decimal.base + 1).toNat = places)
    (hplaces : places ≤ 9) : addPlace power v decimal = .ok (cut v places) := by
  have hbase : decimal.base + 1 = .ofNat places := by
    rw [← hnext, UInt16.ofNat_toNat]
  have hnonneg : 0 ≤ v * 10 ^ places := by positivity
  have hfloor := Nat.lt_of_floor_lt (scaled_lt hv hmax hplaces)
  have hrange : -1 < v * 10 ^ places ∧ v * 10 ^ places < 2 ^ 64 := by
    refine ⟨by linarith, ?_⟩
    exact_mod_cast hfloor
  have htruncated : truncated (v * (power (decimal.base + 1).toNat).toInt) =
      .ok (.ofNat ⌊v * 10 ^ places⌋₊) := by
    rw [hnext, hpower _ hplaces, truncated]
    push_cast
    rw [if_pos hrange]
  unfold addPlace cut
  simp only [htruncated]
  rw [← hbase]
  rfl

/-- More places keep an accurate number accurate. -/
theorem accurate_nine_of_cut (hv : 0 < v) (hmax : v ≤ 10 ^ 9) {places : Nat}
    (hplaces : places ≤ 9) (h : Accurate v bias (cut v places)) :
    |cutTo (10 ^ 9) v - v| ≤ bias * v := by
  have hsplit : (10 : ℚ) ^ 9 = 10 ^ places * (10 ^ (9 - places) : Nat) := by
    push_cast
    rw [← pow_add, Nat.add_sub_cancel' hplaces]
  have hmono : cutTo (10 ^ places) v ≤ cutTo (10 ^ 9) v := by
    rw [hsplit]
    exact cutTo_le_cutTo_mul hv.le (by positivity) (Nat.pow_pos (by decide))
  have hcoarse : cutTo (10 ^ places) v ≤ v := cutTo_le hv.le (by positivity)
  have hfine : cutTo (10 ^ 9) v ≤ v := cutTo_le hv.le (by positivity)
  rw [Accurate, toRat_cut hv hmax hplaces, abs_of_nonpos (by linarith)] at h
  rw [abs_of_nonpos (by linarith)]
  linarith

theorem accurate_cut_nine_iff (hv : 0 < v) (hmax : v ≤ 10 ^ 9) :
    Accurate v bias (cut v 9) ↔ |cutTo (10 ^ 9) v - v| ≤ bias * v := by
  rw [Accurate, toRat_cut hv hmax le_rfl]

theorem addPlace_inReach (hpower : PowersOfTen power) (hv : 0 < v) (hmax : v ≤ 10 ^ 9)
    {decimal : SDecimal} (hbase : decimal.base.toNat ≤ 9) (h : InReach v bias decimal)
    (hfar : farFrom power v bias decimal = true) :
    ∃ next, addPlace power v decimal = .ok next ∧
      (next.base.toNat ≤ 9 ∧ InReach v bias next) ∧
      9 - next.base.toNat < 9 - decimal.base.toNat := by
  have hnot : ¬ Accurate v bias decimal := by
    rw [← farFrom_iff_of_le hpower hv hbase, hfar]
    decide
  obtain ⟨hroom, hnine⟩ := h.resolve_left hnot
  have hnext : (decimal.base + 1).toNat = decimal.base.toNat + 1 := by
    rw [UInt16.toNat_add]
    exact Nat.mod_eq_of_lt (by simp; omega)
  have hcut := base_cut (v := v) (show decimal.base.toNat + 1 ≤ 9 by omega)
  refine ⟨_, addPlace_eq_cut hpower hv hmax hnext (by omega), ⟨by omega, ?_⟩, by omega⟩
  by_cases hlast : decimal.base.toNat = 8
  · rw [hlast]
    exact .inl ((accurate_cut_nine_iff hv hmax).mpr hnine)
  · exact .inr ⟨by omega, hnine⟩

/-- From a base of at most nine places the loop gets there if nine places do, for any
`CALC_BASE`. -/
theorem reaches_of_inReach (hpower : PowersOfTen power) (hv : 0 < v) (hmax : v ≤ 10 ^ 9)
    {decimal : SDecimal} (hbase : decimal.base.toNat ≤ 9) (h : InReach v bias decimal)
    {passes : Nat} (hpasses : 9 ≤ passes) :
    ∃ x, boundedWhile (farFrom power v bias) (addPlace power v) passes decimal = .ok x ∧
      Accurate v bias x := by
  have hbody : ∀ {decimal : SDecimal}, decimal.base.toNat ≤ 9 ∧ InReach v bias decimal →
      farFrom power v bias decimal = true → ∃ next, addPlace power v decimal = .ok next ∧
        (next.base.toNat ≤ 9 ∧ InReach v bias next) ∧
        9 - next.base.toNat < 9 - decimal.base.toNat :=
    fun hinvariant hfar => addPlace_inReach hpower hv hmax hinvariant.1 hinvariant.2 hfar
  have hroom : 9 - decimal.base.toNat ≤ passes := by omega
  obtain ⟨x, hx, ⟨hle, -⟩, hnear⟩ := boundedWhile_terminates _ _ hbody ⟨hbase, h⟩ hroom
  exact ⟨x, hx, (farFrom_iff_of_le hpower hv hle).mp hnear⟩

/-! From ten places on `CALC_BASE` may be negative, as it is where a number that does
not fit becomes the smallest `int`. Then nothing but zeros comes out of the loop. -/

theorem calcBase_of_ge {exponent : Nat} (h : 10 ≤ exponent) :
    (calcBase ℚ exponent).toInt = -2 ^ 31 := by
  have hlarge : ((10 ^ 10 : Nat) : Int) ≤ (10 ^ exponent : Nat) := by
    exact_mod_cast Nat.pow_le_pow_right (by decide) h
  have hpow : (10 ^ exponent : ℚ) = ((10 ^ exponent : Nat) : ℚ) := by push_cast; rfl
  have hmax : Int32.maxValue.toInt = 2 ^ 31 - 1 := rfl
  have hout : ¬ (10 ^ exponent : Nat) ≤ Int32.maxValue.toInt := by
    rw [hmax]
    omega
  change (Double.toInt (10 ^ exponent : ℚ)).toInt = _
  rw [hpow]
  simp only [Double.toInt, Rat.num_natCast, Rat.den_natCast, Int.tdiv_one, Nat.cast_one, hout,
    and_false, if_false]
  rfl

theorem truncated_negative (hv : 0 < v) {value : UInt64}
    (h : truncated (v * (-2 ^ 31 : Int)) = .ok value) : value = 0 ∧ v * 2 ^ 31 < 1 := by
  have hnegative : v * (-2 ^ 31 : Int) = -(v * 2 ^ 31) := by
    push_cast
    ring
  have hpositive : 0 < v * 2 ^ 31 := by positivity
  rw [hnegative, truncated, Nat.floor_of_nonpos (by linarith)] at h
  split at h
  · rename_i hrange
    cases h
    exact ⟨rfl, by linarith [hrange.1]⟩
  · cases h

theorem addPlace_of_ge (hv : 0 < v) {decimal next : SDecimal}
    (hbase : 10 ≤ (decimal.base + 1).toNat)
    (hnext : addPlace (calcBase ℚ) v decimal = .ok next) :
    next.value = 0 ∧ v * 2 ^ 31 < 1 := by
  simp only [addPlace, calcBase_of_ge hbase] at hnext
  cases hvalue : truncated (v * (-2 ^ 31 : Int)) with
  | error failure =>
    rw [hvalue] at hnext
    cases hnext
  | ok value =>
    rw [hvalue] at hnext
    cases hnext
    exact truncated_negative hv hvalue

/-- The number is out of reach: nine places are not enough for it or behind already, or
only zeros are to come. -/
def Stuck (v bias : ℚ) (decimal : SDecimal) : Prop :=
  decimal.base.toNat ≤ 9 ∧ ¬ InReach v bias decimal ∨ decimal.value = 0 ∧ v * 2 ^ 31 < 1

theorem Stuck.not_accurate (hv : 0 < v) (hbias : bias < 1) {decimal : SDecimal}
    (h : Stuck v bias decimal) : ¬ Accurate v bias decimal := by
  rcases h with ⟨-, hreach⟩ | ⟨hzero, -⟩
  · exact fun haccurate => hreach (.inl haccurate)
  · have hless : bias * v < v := by nlinarith
    have hrat : decimal.toRat = 0 := by simp [toRat, hzero]
    rw [Accurate, hrat, zero_sub, abs_neg, abs_of_pos hv]
    exact not_le.mpr hless

theorem not_inReach_cut (hv : 0 < v) (hmax : v ≤ 10 ^ 9) {places : Nat} (hplaces : places ≤ 9)
    (h : ¬ |cutTo (10 ^ 9) v - v| ≤ bias * v) : ¬ InReach v bias (cut v places) := by
  rintro (haccurate | ⟨-, hnine⟩)
  · exact h (accurate_nine_of_cut hv hmax hplaces haccurate)
  · exact h hnine

theorem Stuck.of_addPlace (hv : 0 < v) (hmax : v ≤ 10 ^ 9) {decimal next : SDecimal}
    (h : Stuck v bias decimal) (hnext : addPlace (calcBase ℚ) v decimal = .ok next) :
    Stuck v bias next := by
  by_cases hlarge : 10 ≤ (decimal.base + 1).toNat
  · exact .inr (addPlace_of_ge hv hlarge hnext)
  · have hplaces : (decimal.base + 1).toNat ≤ 9 := by omega
    have hcut : addPlace (calcBase ℚ) v decimal =
        .ok (cut v (decimal.base + 1).toNat) :=
      addPlace_eq_cut powersOfTen_calcBase hv hmax rfl hplaces
    cases hcut.symm.trans hnext
    rcases h with ⟨hbase, hreach⟩ | ⟨-, hsmall⟩
    · have hroom : decimal.base.toNat ≤ 8 := by
        rw [UInt16.toNat_add] at hplaces
        simp at hplaces
        omega
      have hnine : ¬ |cutTo (10 ^ 9) v - v| ≤ bias * v := fun hnine => hreach (.inr ⟨hroom, hnine⟩)
      exact .inl ⟨(base_cut hplaces).trans_le hplaces, not_inReach_cut hv hmax hplaces hnine⟩
    · refine .inr ⟨?_, hsmall⟩
      have hpow : (10 : ℚ) ^ (decimal.base + 1).toNat ≤ 10 ^ 9 :=
        pow_le_pow_right₀ (by norm_num) hplaces
      have hfloor : ⌊v * 10 ^ (decimal.base + 1).toNat⌋₊ = 0 := by
        rw [Nat.floor_eq_zero]
        nlinarith
      rw [cut, hfloor]
      rfl

theorem not_reaches_of_stuck (hv : 0 < v) (hmax : v ≤ 10 ^ 9) (hbias : bias < 1)
    {decimal x : SDecimal} (h : Stuck v bias decimal) {passes : Nat}
    (hx : boundedWhile (farFrom (calcBase ℚ) v bias) (addPlace (calcBase ℚ) v) passes
      decimal = .ok x) : ¬ Accurate v bias x := by
  have hbody : ∀ {state next : SDecimal}, Stuck v bias state →
      farFrom (calcBase ℚ) v bias state = true →
      addPlace (calcBase ℚ) v state = .ok next → Stuck v bias next :=
    fun hstuck _ hnext => hstuck.of_addPlace hv hmax hnext
  exact (boundedWhile_invariant _ hbody h hx).not_accurate hv hbias

/-- A negative `CALC_BASE` makes the test of the loop fail to end it. -/
theorem farFrom_of_ge (hv : 0 < v) (hbias : bias < 1) {decimal : SDecimal}
    (hbase : 10 ≤ decimal.base.toNat) : farFrom (calcBase ℚ) v bias decimal = true := by
  have hnonpos : decimal.exactValue (calcBase ℚ) ≤ 0 := by
    unfold exactValue
    rw [calcBase_of_ge hbase]
    apply div_nonpos_of_nonneg_of_nonpos (by positivity)
    norm_num
  by_contra hnear
  rw [Bool.not_eq_true, farFrom_eq_false_iff hv, abs_of_nonpos (by linarith)] at hnear
  nlinarith

/-- With a base of ten places or more the first pass decides. -/
theorem stuck_of_addPlace (hv : 0 < v) (hmax : v ≤ 10 ^ 9) {decimal next : SDecimal}
    (hbase : 10 ≤ decimal.base.toNat)
    (hwrap : ¬ (decimal.base.toNat = 65535 ∧ |cutTo (10 ^ 9) v - v| ≤ bias * v))
    (hnext : addPlace (calcBase ℚ) v decimal = .ok next) : Stuck v bias next := by
  have hbound := decimal.base.toNat_lt
  have hsucc : (decimal.base + 1).toNat = (decimal.base.toNat + 1) % 2 ^ 16 :=
    UInt16.toNat_add decimal.base 1
  by_cases hlast : decimal.base.toNat = 65535
  · have hzero : (decimal.base + 1).toNat = 0 := by omega
    have hcut := addPlace_eq_cut powersOfTen_calcBase hv hmax hzero (by decide)
    cases hcut.symm.trans hnext
    have hfirst : (cut v 0).base.toNat ≤ 9 := by simp [base_cut]
    exact .inl ⟨hfirst, not_inReach_cut hv hmax (by decide) fun hnine => hwrap ⟨hlast, hnine⟩⟩
  · exact .inr (addPlace_of_ge hv (by omega) hnext)

/-- Whatever the old value is divided by at base 65535, the loop ends there with it or
goes on from 0. -/
theorem reaches_of_wrap (hpower : PowersOfTen power) (hv : 0 < v) (hmax : v ≤ 10 ^ 9)
    {self : SDecimal} (hbase : self.base.toNat = 65535)
    (hnine : |cutTo (10 ^ 9) v - v| ≤ bias * v)
    (hold : ∀ factor : Int32, |self.value.toNat / factor.toInt - v| ≤ bias * v →
      Accurate v bias self) :
    ∃ x, self.fromDouble power v bias = .ok x ∧ Accurate v bias x := by
  unfold fromDouble
  cases hfar : farFrom power v bias self with
  | false =>
    have hnear := (farFrom_eq_false_iff hv self).mp hfar
    rw [exactValue, mul_one] at hnear
    exact ⟨self, boundedWhile_done hfar _, hold _ hnear⟩
  | true =>
    have hzero : (self.base + 1).toNat = 0 := by
      rw [UInt16.toNat_add, hbase]
      rfl
    have hcut := addPlace_eq_cut hpower hv hmax hzero (by decide)
    have hfirst : (cut v 0).base.toNat = 0 := base_cut (by decide)
    rw [boundedWhile_pass hfar, hcut]
    exact reaches_of_inReach hpower hv hmax (by omega) (.inr ⟨by omega, hnine⟩) (by decide)

theorem not_reaches_of_ge (hv : 0 < v) (hmax : v ≤ 10 ^ 9) (hbias : bias < 1)
    {self x : SDecimal} (hbase : 10 ≤ self.base.toNat)
    (hwrap : ¬ (self.base.toNat = 65535 ∧ |cutTo (10 ^ 9) v - v| ≤ bias * v))
    (hx : self.fromDouble (calcBase ℚ) v bias = .ok x) : ¬ Accurate v bias x := by
  rw [fromDouble, boundedWhile_pass (farFrom_of_ge hv hbias hbase)] at hx
  cases hnext : addPlace (calcBase ℚ) v self with
  | error failure =>
    rw [hnext] at hx
    cases hx
  | ok next =>
    rw [hnext] at hx
    exact not_reaches_of_stuck hv hmax hbias (stuck_of_addPlace hv hmax hbase hwrap hnext) hx

/-- If some `int` makes the old value pass the test at base 65535, the loop may end with
that value. -/
theorem ReachesAccuracy.of_near (hv : 0 < v) {self : SDecimal} (h : ReachesAccuracy self v bias)
    (hbase : self.base.toNat = 65535) {factor : Int32}
    (hnear : |self.value.toNat / factor.toInt - v| ≤ bias * v) : Accurate v bias self := by
  obtain ⟨x, hx, haccurate⟩ :=
    h _ (powersOfTen_update (show 10 ≤ 65535 by decide) factor)
  have hvalue : self.exactValue (Function.update (calcBase ℚ) 65535 factor) =
      self.value.toNat / factor.toInt := by
    rw [exactValue, hbase, Function.update_self, mul_one]
  have hfar : farFrom (Function.update (calcBase ℚ) 65535 factor) v bias self = false := by
    rw [farFrom_eq_false_iff hv, hvalue]
    exact hnear
  cases (boundedWhile_done hfar _).symm.trans hx
  exact haccurate

/-- The loop reaches the accuracy exactly from the objects that are `Convertible`. -/
theorem reaches_accuracy_iff (hv : 0 < v) (hmax : v ≤ 10 ^ 9) (hbias : bias < 1)
    (self : SDecimal) : ReachesAccuracy self v bias ↔ Convertible self v bias := by
  unfold Convertible
  by_cases hbase : self.base.toNat ≤ 9
  · rw [if_pos hbase]
    constructor
    · intro h
      obtain ⟨x, hx, haccurate⟩ := h (calcBase ℚ) powersOfTen_calcBase
      by_contra hreach
      exact not_reaches_of_stuck hv hmax hbias (.inl ⟨hbase, hreach⟩) hx haccurate
    · intro h power hpower
      exact reaches_of_inReach hpower hv hmax hbase h (by decide)
  · rw [if_neg hbase]
    constructor
    · intro h
      obtain ⟨x, hx, haccurate⟩ := h (calcBase ℚ) powersOfTen_calcBase
      have hwrap : self.base.toNat = 65535 ∧ |cutTo (10 ^ 9) v - v| ≤ bias * v := by
        by_contra hwrap
        exact not_reaches_of_ge hv hmax hbias (by omega) hwrap hx haccurate
      exact ⟨hwrap.1, hwrap.2, fun factor hnear => h.of_near hv hwrap.1 hnear⟩
    · rintro ⟨hlast, hnine, hold⟩ power hpower
      exact reaches_of_wrap hpower hv hmax hlast hnine hold

/-- The default bias of the method. -/
def defaultBias : ℚ := 1 / 10 ^ 7

theorem reaches_accuracy_iff_sample : ReachesAccuracy .zero (3 / 2) defaultBias := by
  have hnine : |cutTo (10 ^ 9) (3 / 2 : ℚ) - 3 / 2| ≤ defaultBias * (3 / 2) := by decide +kernel
  refine (reaches_accuracy_iff (by norm_num) (by norm_num) (by decide +kernel) _).mpr ?_
  rw [Convertible, if_pos (by decide)]
  exact .inr ⟨by decide, hnine⟩

/-- 10^-10 is 0 in every base whose power of ten fits an `int`, and stays 0 in the others. -/
theorem accuracy_missed :
    SDecimal.zero.fromDouble (calcBase ℚ) (1 / 10 ^ 10) defaultBias = .ok ⟨0, 101⟩ ∧
      ¬ Accurate (1 / 10 ^ 10) defaultBias ⟨0, 101⟩ ∧
      ¬ ReachesAccuracy .zero (1 / 10 ^ 10) defaultBias := by
  have hresult : SDecimal.zero.fromDouble (calcBase ℚ) (1 / 10 ^ 10) defaultBias =
      .ok ⟨0, 101⟩ := by
    decide +kernel
  have hnot : ¬ Accurate (1 / 10 ^ 10) defaultBias ⟨0, 101⟩ := by decide +kernel
  refine ⟨hresult, hnot, fun h => ?_⟩
  obtain ⟨x, hx, haccurate⟩ := h _ powersOfTen_calcBase
  cases hresult.symm.trans hx
  exact hnot haccurate

end SDecimal

end MarketServer
