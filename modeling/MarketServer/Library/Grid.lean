import Mathlib.Data.Rat.Floor
import Mathlib.Order.Bounds.Basic
import Mathlib.Tactic.FieldSimp

/-! Rounding to a grid: the nearest multiples of `1 / scale` below and above a
number, found by scaling, `⌊·⌋` and `⌈·⌉`. -/
namespace Library

variable {K : Type*} [Field K] [LinearOrder K] [IsStrictOrderedRing K] [FloorRing K]

def multiples (scale : K) : Set K := {number | ∃ k : ℤ, number = k / scale}

variable {scale : K} (number : K)

theorem isGreatest_floor (hscale : 0 < scale) :
    IsGreatest {q ∈ multiples scale | q ≤ number} (⌊number * scale⌋ / scale) := by
  constructor
  · exact ⟨⟨_, rfl⟩, (div_le_iff₀ hscale).mpr (Int.floor_le _)⟩
  · rintro _ ⟨⟨k, rfl⟩, hle⟩
    have hk : k ≤ ⌊number * scale⌋ := Int.le_floor.mpr ((div_le_iff₀ hscale).mp hle)
    exact (div_le_div_iff_of_pos_right hscale).mpr (by exact_mod_cast hk)

theorem isLeast_ceil (hscale : 0 < scale) :
    IsLeast {q ∈ multiples scale | number ≤ q} (⌈number * scale⌉ / scale) := by
  constructor
  · exact ⟨⟨_, rfl⟩, (le_div_iff₀ hscale).mpr (Int.le_ceil _)⟩
  · rintro _ ⟨⟨k, rfl⟩, hle⟩
    have hk : ⌈number * scale⌉ ≤ k := Int.ceil_le.mpr ((le_div_iff₀ hscale).mp hle)
    exact (div_le_div_iff_of_pos_right hscale).mpr (by exact_mod_cast hk)

theorem isGreatest_iff_floor (hscale : 0 < scale) {q : K} :
    IsGreatest {q ∈ multiples scale | q ≤ number} q ↔ q * scale = ⌊number * scale⌋ := by
  rw [← eq_div_iff hscale.ne']
  constructor
  · intro h
    exact h.unique (isGreatest_floor number hscale)
  · rintro rfl
    exact isGreatest_floor number hscale

theorem isLeast_iff_ceil (hscale : 0 < scale) {q : K} :
    IsLeast {q ∈ multiples scale | number ≤ q} q ↔ q * scale = ⌈number * scale⌉ := by
  rw [← eq_div_iff hscale.ne']
  constructor
  · intro h
    exact h.unique (isLeast_ceil number hscale)
  · rintro rfl
    exact isLeast_ceil number hscale

/-! Numbers cut to a grid. -/

/-- The number without what is below the multiples of `1 / scale`. -/
def cutTo (scale number : K) : K := ⌊number * scale⌋₊ / scale

theorem cutTo_le {number : K} (hnumber : 0 ≤ number) (hscale : 0 < scale) :
    cutTo scale number ≤ number :=
  (div_le_iff₀ hscale).mpr (Nat.floor_le (mul_nonneg hnumber hscale.le))

/-- A finer grid keeps more of the number. -/
theorem cutTo_le_cutTo_mul {number : K} (hnumber : 0 ≤ number) (hscale : 0 < scale)
    {factor : Nat} (hfactor : 0 < factor) :
    cutTo scale number ≤ cutTo (scale * factor) number := by
  have hcast : (0 : K) < factor := by exact_mod_cast hfactor
  have hfloor := Nat.floor_le (mul_nonneg hnumber hscale.le)
  have hle : ⌊number * scale⌋₊ * factor ≤ ⌊number * (scale * factor)⌋₊ := by
    apply Nat.le_floor
    rw [Nat.cast_mul, ← mul_assoc]
    exact mul_le_mul_of_nonneg_right hfloor hcast.le
  have hcancel : (⌊number * scale⌋₊ / scale : K) * (scale * factor) =
      ⌊number * scale⌋₊ * factor := by
    rw [← mul_assoc, div_mul_cancel₀ _ hscale.ne']
  unfold cutTo
  rw [le_div_iff₀ (mul_pos hscale hcast), hcancel]
  exact_mod_cast hle

/-! Quotients of whole numbers. -/

/-- `x` is the multiple of `1 / scale` next to the number, on the side the mode asks for. -/
def Brackets (scale number : ℚ) (ceiling : Bool) (x : ℚ) : Prop :=
  if ceiling then IsLeast {q ∈ multiples scale | number ≤ q} x
  else IsGreatest {q ∈ multiples scale | q ≤ number} x

/-- A quotient rounded down or up. -/
def quotient (ceiling : Bool) (value power : Nat) : Nat :=
  if ceiling ∧ ¬ power ∣ value then value / power + 1 else value / power

theorem ceil_natCast_div {value power : Nat} (hpower : 0 < power) :
    ⌈(value / power : ℚ)⌉ = quotient true value power := by
  have hpos : (0 : ℚ) < power := by exact_mod_cast hpower
  have hdiv : (value : ℚ) = power * (value / power : Nat) + (value % power : Nat) := by
    exact_mod_cast (Nat.div_add_mod value power).symm
  rw [Int.ceil_eq_iff, lt_div_iff₀ hpos, div_le_iff₀ hpos, hdiv]
  unfold quotient
  by_cases hdvd : power ∣ value
  · have hrest : ((value % power : Nat) : ℚ) = 0 := by
      exact_mod_cast Nat.dvd_iff_mod_eq_zero.mp hdvd
    rw [if_neg (by simp [hdvd]), hrest, Int.cast_natCast]
    constructor <;> linarith
  · have hlow : (0 : ℚ) < (value % power : Nat) := by
      exact_mod_cast Nat.pos_of_ne_zero (mt Nat.dvd_iff_mod_eq_zero.mpr hdvd)
    have hhigh : ((value % power : Nat) : ℚ) < power := by
      exact_mod_cast Nat.mod_lt value hpower
    rw [if_pos ⟨rfl, hdvd⟩, Int.cast_natCast, Nat.cast_add, Nat.cast_one]
    constructor <;> linarith

@[simp] theorem quotient_false (value power : Nat) :
    quotient false value power = value / power := by
  simp [quotient]

theorem quotient_of_dvd {ceiling : Bool} {value power : Nat} (hdvd : power ∣ value) :
    quotient ceiling value power = value / power := by
  simp [quotient, hdvd]

theorem lt_quotient_succ_mul {power : Nat} (hpower : 0 < power) (ceiling : Bool) (value : Nat) :
    value < (quotient ceiling value power + 1) * power := by
  have hle : value / power ≤ quotient ceiling value power := by
    unfold quotient
    split <;> omega
  exact Nat.lt_mul_of_div_lt (Nat.lt_succ_of_le hle) hpower

theorem quotient_mul_right {factor : Nat} (hfactor : 0 < factor) (ceiling : Bool)
    (value power : Nat) :
    quotient ceiling (value * factor) (power * factor) = quotient ceiling value power := by
  simp only [quotient, Nat.mul_div_mul_right _ _ hfactor, Nat.mul_dvd_mul_iff_right hfactor]

theorem quotient_add_of_lt {rest power : Nat} (hrest : rest < power) (ceiling : Bool)
    (whole : Nat) :
    quotient ceiling (whole * power + rest) power =
      if ceiling ∧ rest ≠ 0 then whole + 1 else whole := by
  have hdiv : (whole * power + rest) / power = whole := by
    rw [Nat.mul_comm, Nat.mul_add_div (by omega), Nat.div_eq_of_lt hrest, Nat.add_zero]
  have hdvd : power ∣ whole * power + rest ↔ rest = 0 := by
    rw [Nat.dvd_add_right (Nat.dvd_mul_left _ _)]
    constructor
    · intro h
      exact Nat.eq_zero_of_dvd_of_lt h hrest
    · rintro rfl
      exact Nat.dvd_zero _
  simp only [quotient, hdiv, hdvd]

theorem quotient_true_le_iff (value : Nat) {power : Nat} (hpower : 0 < power) (bound : Nat) :
    quotient true value power ≤ bound ↔ value ≤ bound * power := by
  unfold quotient
  by_cases hdvd : power ∣ value
  · rw [if_neg (by simp [hdvd])]
    obtain ⟨factor, rfl⟩ := hdvd
    rw [Nat.mul_div_cancel_left _ hpower, Nat.mul_comm bound]
    exact (Nat.mul_le_mul_left_iff hpower).symm
  · have hne : value ≠ bound * power := fun heq => hdvd (heq ▸ Nat.dvd_mul_left power bound)
    rw [if_pos ⟨rfl, hdvd⟩, Nat.succ_le_iff, Nat.div_lt_iff_lt_mul hpower]
    omega

theorem quotient_le_self {power : Nat} (hpower : 0 < power) (ceiling : Bool) (value : Nat) :
    quotient ceiling value power ≤ value := by
  cases ceiling with
  | false =>
    rw [quotient_false]
    exact Nat.div_le_self value power
  | true => exact (quotient_true_le_iff value hpower value).mpr (Nat.le_mul_of_pos_right value hpower)

theorem brackets_iff {scale : ℚ} {value power : Nat} (hscale : 0 < scale) (hpower : 0 < power)
    {number : ℚ} (hnumber : number * scale = value / power) (ceiling : Bool) (x : ℚ) :
    Brackets scale number ceiling x ↔ x * scale = quotient ceiling value power := by
  cases ceiling with
  | false =>
    have hfloor : ⌊(value / power : ℚ)⌋ = ((value / power : Nat) : Int) := by
      rw [Rat.floor_natCast_div_natCast]
      rfl
    simp only [Brackets, Bool.false_eq_true, if_false, isGreatest_iff_floor number hscale, hnumber,
      hfloor, quotient_false]
    rfl
  | true =>
    simp only [Brackets, if_true, isLeast_iff_ceil number hscale, hnumber, ceil_natCast_div hpower]
    rfl

end Library
