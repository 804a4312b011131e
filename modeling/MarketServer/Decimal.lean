import MarketServer.HubStruct
import MarketServer.Library.Numeral
import MarketServer.Library.Wrapping
import Mathlib.Data.Rat.Cast.Order

/-! The operations of `SDecimal`. Comparison, arithmetic and rounding take `CALC_BASE` as
a parameter `power`; parsing and rounding go through `double`. -/
namespace MarketServer
open Library

/-- What the decimals need of `double` beyond its arithmetic. The conversion to
`unsigned long` has no defined result out of range. -/
class DecimalDouble (F : Type) extends Double F where
  atof : Bytes → F
  ceil : F → F
  floor : F → F
  toUnsigned : F → Except Failure UInt64

/-- An `int` as an operand of 64-bit unsigned arithmetic. -/
def signExtended (factor : Int32) : UInt64 := factor.toInt64.toUInt64

/-- `value * CALC_BASE(exponent)` -/
def scaled (power : Nat → Int32) (value : UInt64) (exponent : Nat) : UInt64 :=
  value * signExtended (power exponent)

/-- `value / CALC_BASE(exponent)` -/
def divided (power : Nat → Int32) (value : UInt64) (exponent : Nat) : Except Failure UInt64 :=
  if signExtended (power exponent) = 0 then .error .undefined
  else .ok (value / signExtended (power exponent))

/-- `std::string::npos` -/
def npos : UInt64 := -1

/-- `std::string::find` of one character. -/
def Bytes.find (text : Bytes) (character : UInt8) : UInt64 :=
  if character ∈ text then .ofNat (text.idxOf character) else npos

/-- `substr(0, count)` -/
def Bytes.substr (text : Bytes) (count : UInt64) : Bytes := text.take count.toNat

instance neZeroTen : NeZero 10 := ⟨by decide⟩

/-- The character of a decimal digit. -/
def digitByte (digit : Fin 10) : UInt8 := .ofNat (48 + digit.val)

/-- What `sprintf` prints for `%0<width>lld`: the sign comes before the padding. -/
def sprintfPadded (width : Nat) (number : Int) : Bytes :=
  let sign : Bytes := if number < 0 then [45] else []
  let digits := (spell 10 number.natAbs).map digitByte
  sign ++ List.replicate (width - sign.length - digits.length) (digitByte 0) ++ digits

namespace SDecimal

def maxDecimal : SDecimal := ⟨-1, 0⟩

def minDecimal : SDecimal := .zero

section Operators

variable (power : Nat → Int32)

/-- The body of the comparison operators: the operand of smaller base is scaled up. -/
def compareBy (relation : UInt64 → UInt64 → Bool) (self d : SDecimal) : Bool :=
  if self.base > d.base then
    relation self.value (scaled power d.value (self.base.toNat - d.base.toNat))
  else
    relation (scaled power self.value (d.base.toNat - self.base.toNat)) d.value

def lt : SDecimal → SDecimal → Bool := compareBy power fun left right => left < right

def gt : SDecimal → SDecimal → Bool := compareBy power fun left right => left > right

def eq : SDecimal → SDecimal → Bool := compareBy power fun left right => left == right

def le : SDecimal → SDecimal → Bool := compareBy power fun left right => left ≤ right

def ge : SDecimal → SDecimal → Bool := compareBy power fun left right => left ≥ right

/-- The body of the arithmetic operators. -/
def combineBy (operation : UInt64 → UInt64 → UInt64) (self d : SDecimal) : SDecimal :=
  if self.base > d.base then
    ⟨operation self.value (scaled power d.value (self.base.toNat - d.base.toNat)), self.base⟩
  else
    ⟨operation (scaled power self.value (d.base.toNat - self.base.toNat)) d.value, d.base⟩

def add : SDecimal → SDecimal → SDecimal := combineBy power fun left right => left + right

def sub : SDecimal → SDecimal → SDecimal := combineBy power fun left right => left - right

end Operators

section Conversions

variable (F : Type) [DecimalDouble F]

/-- `from(const SDecimal&, int, bool)`. The quotient is truncated before it is
rounded. -/
def fromDecimal (power : Nat → Int32) (self data : SDecimal) (precise : Int32)
    (ceiling : Bool) : Except Failure SDecimal :=
  if precise = -1 ∨ (data.base.toNat : Int) ≤ precise.toInt then
    .ok { self with value := data.value, base := data.base }
  else do
    let quotient ← divided power data.value (data.base.toNat - precise.toInt).toNat
    let rounded : F := if ceiling then DecimalDouble.ceil (Double.ofUnsigned quotient)
      else DecimalDouble.floor (Double.ofUnsigned quotient)
    let value ← DecimalDouble.toUnsigned rounded
    return { self with value, base := precise.toUInt32.toUInt16 }

/-- `value = atof(text.c_str()) * CALC_BASE(base)` -/
def parsed (text : Bytes) (base : UInt16) : Except Failure UInt64 :=
  DecimalDouble.toUnsigned
    ((DecimalDouble.atof text : F) * Double.ofInt (calcBase F base.toNat))

/-- `from(const string&, int, bool)`. A text without a point has its whole length
for a base, as `npos + 1` is 0. -/
def fromString (self : SDecimal) (data : Bytes) (precise : Int32) (ceiling : Bool) :
    Except Failure SDecimal := do
  let pos := data.find 46
  let self := { self with base := (UInt64.ofNat data.length - pos - 1).toUInt16 }
  if 0 ≤ precise.toInt ∧ precise.toInt < self.base.toNat then
    let self := { self with base := precise.toUInt32.toUInt16 }
    let newData := data.substr (pos + 1 + signExtended precise)
    let value ← parsed F newData self.base
    return { self with value := if ceiling then value + 1 else value }
  else
    let value ← parsed F data self.base
    return { self with value }

/-- `SDecimal(const string&)`, run on memory that may hold anything. -/
def ofString (memory : SDecimal) (data : Bytes) : Except Failure SDecimal :=
  memory.fromString F data (-1) false

end Conversions

/-- `get_str_value`. The format takes a signed number, and `holder` has room for
1024 characters with the terminator. -/
def getStrValue (self : SDecimal) : Except Failure Bytes :=
  let text := sprintfPadded (self.base.toNat + 1) self.value.toInt64.toInt
  if 1024 < text.length + 1 then .error .undefined
  else .ok (text.insertIdx (text.length - self.base.toNat) 46)

/-- The number a decimal stands for. -/
def toRat (decimal : SDecimal) : ℚ := decimal.value.toNat / 10 ^ decimal.base.toNat

/-! The operators scale the operand of smaller base up to the other one. -/

def finer (a b : SDecimal) : SDecimal := if a.base > b.base then a else b

def coarser (a b : SDecimal) : SDecimal := if a.base > b.base then b else a

def gap (a b : SDecimal) : Nat := (finer a b).base.toNat - (coarser a b).base.toNat

/-- The value of the coarser operand at the base of the finer one. -/
def aligned (a b : SDecimal) : Nat := (coarser a b).value.toNat * 10 ^ gap a b

theorem base_coarser_le (a b : SDecimal) : (coarser a b).base.toNat ≤ (finer a b).base.toNat := by
  unfold coarser finer
  split
  · rename_i h
    exact Nat.le_of_lt (UInt16.lt_iff_toNat_lt.mp h)
  · rename_i h
    exact UInt16.le_iff_toNat_le.mp (UInt16.not_lt.mp h)

theorem toRat_coarser (a b : SDecimal) :
    (coarser a b).toRat = (aligned a b : ℚ) / 10 ^ (finer a b).base.toNat := by
  have hpow : (10 : ℚ) ^ (finer a b).base.toNat =
      10 ^ (coarser a b).base.toNat * 10 ^ gap a b := by
    rw [← pow_add, gap, Nat.add_sub_cancel' (base_coarser_le a b)]
  unfold toRat aligned
  rw [hpow]
  push_cast
  exact (mul_div_mul_right _ _ (by positivity)).symm

/-- The coarser operand as the operators scale it. -/
def rescaled (power : Nat → Int32) (a b : SDecimal) : UInt64 :=
  scaled power (coarser a b).value (gap a b)

/-- The two words an operator works on. -/
def operands (power : Nat → Int32) (a b : SDecimal) : UInt64 × UInt64 :=
  if a.base > b.base then ((finer a b).value, rescaled power a b)
  else (rescaled power a b, (finer a b).value)

theorem compareBy_eq (power : Nat → Int32) (relation : UInt64 → UInt64 → Bool) (a b : SDecimal) :
    compareBy power relation a b = relation (operands power a b).1 (operands power a b).2 := by
  unfold compareBy operands rescaled gap finer coarser
  split <;> rfl

theorem combineBy_eq (power : Nat → Int32) (operation : UInt64 → UInt64 → UInt64)
    (a b : SDecimal) :
    combineBy power operation a b =
      ⟨operation (operands power a b).1 (operands power a b).2, (finer a b).base⟩ := by
  unfold combineBy operands rescaled gap finer coarser
  split <;> rfl

/-- Either operand can be the finer one. -/
theorem operands_cases (power : Nat → Int32) (a b : SDecimal) :
    a = finer a b ∧ b = coarser a b ∧
        operands power a b = ((finer a b).value, rescaled power a b) ∨
      a = coarser a b ∧ b = finer a b ∧
        operands power a b = (rescaled power a b, (finer a b).value) := by
  by_cases h : a.base > b.base
  · simp [operands, finer, coarser, h]
  · simp [operands, finer, coarser, h]

end SDecimal

/-- `CALC_BASE` is right wherever the power of ten fits an `int`. -/
def PowersOfTen (power : Nat → Int32) : Prop :=
  ∀ exponent ≤ 9, (power exponent).toInt = 10 ^ exponent

theorem toNat_ofNat {number : Nat} (h : number < 2 ^ 64) : (UInt64.ofNat number).toNat = number :=
  UInt64.toNat_ofNat_of_lt' h

theorem toNat_signExtended (factor : Int32) :
    ((signExtended factor).toNat : Int) = factor.toInt % 2 ^ 64 := by
  unfold signExtended
  rw [← UInt64.toNat_toBitVec]
  change ((factor.toInt64.toBitVec.toNat : Nat) : Int) = _
  rw [← Int32.toInt_toInt64 factor, ← Int64.toInt_toBitVec, BitVec.toInt_eq_toNat_bmod]
  exact ((Int.bmod_emod).trans (Int.emod_eq_of_lt (Int.natCast_nonneg _) (by omega))).symm

theorem toNat_scaled (power : Nat → Int32) (value : UInt64) (exponent : Nat) :
    ((scaled power value exponent).toNat : Int) =
      value.toNat * (power exponent).toInt % 2 ^ 64 := by
  unfold scaled
  rw [UInt64.toNat_mul, Int.natCast_mod, Int.natCast_mul, toNat_signExtended]
  push_cast
  rw [Int.mul_emod, Int.emod_emod, ← Int.mul_emod]

/-- `base = precise` -/
theorem toNat_precise {precise : Int32} (hlow : 0 ≤ precise.toInt)
    (hhigh : precise.toInt < 2 ^ 16) : precise.toUInt32.toUInt16.toNat = precise.toInt.toNat := by
  have hnonneg : 0 ≤ precise := Int32.le_iff_toInt_le.mpr hlow
  rw [UInt32.toNat_toUInt16, Int32.toNat_toUInt32_of_le hnonneg, ← Int32.toNat_toInt]
  omega

namespace SDecimal

variable {power : Nat → Int32}

theorem scaled_zero (hone : power 0 = 1) (value : UInt64) : scaled power value 0 = value := by
  have hfactor : signExtended 1 = 1 := by decide
  unfold scaled
  rw [hone, hfactor, UInt64.mul_one]

theorem base_cases (a b : SDecimal) :
    (b.base > a.base ∧ ¬ a.base > b.base) ∨ a.base = b.base ∨
      (a.base > b.base ∧ ¬ b.base > a.base) := by
  simp only [gt_iff_lt, UInt16.lt_iff_toNat_lt, ← UInt16.toNat_inj]
  omega

/-- Swapping the operands swaps the branch and the side that is scaled. -/
theorem operands_swap (hone : power 0 = 1) (a b : SDecimal) :
    operands power b a = (operands power a b).swap := by
  unfold operands rescaled gap finer coarser
  rcases base_cases a b with ⟨hba, hab⟩ | heq | ⟨hab, hba⟩
  · simp [hba, hab]
  · simp [heq, scaled_zero hone]
  · simp [hba, hab]

theorem base_finer_comm (a b : SDecimal) : (finer b a).base = (finer a b).base := by
  unfold finer
  rcases base_cases a b with ⟨hba, hab⟩ | heq | ⟨hab, hba⟩
  · simp [hba, hab]
  · simp [heq]
  · simp [hba, hab]

theorem toNat_scaled_eq_iff (hpower : PowersOfTen power) (value : UInt64) (exponent : Nat) :
    (scaled power value exponent).toNat = value.toNat * 10 ^ exponent ↔
      value = 0 ∨ exponent ≤ 9 ∧ value.toNat * 10 ^ exponent < 2 ^ 64 := by
  have hscaled := toNat_scaled power value exponent
  constructor
  · intro heq
    have hfits : value.toNat * 10 ^ exponent < 2 ^ 64 := by
      rw [← heq]
      exact UInt64.toNat_lt _
    by_contra hnot
    rw [not_or] at hnot
    have hpositive : 0 < value.toNat := Nat.pos_of_ne_zero fun h => hnot.1 (UInt64.toNat_inj.mp h)
    have hfactor := (power exponent).toInt_lt
    refine no_substitute_factor hpositive ⟨(power exponent).le_toInt, hfactor⟩ (by omega) hfits ?_
    rw [← hscaled, heq]
    push_cast
    rfl
  · rintro (rfl | ⟨hexponent, hfits⟩)
    · simp [scaled]
    · rw [hpower exponent hexponent] at hscaled
      have hmod : (value.toNat * 10 ^ exponent : Int) % 2 ^ 64 = value.toNat * 10 ^ exponent :=
        Int.emod_eq_of_lt (by positivity) (by exact_mod_cast hfits)
      rw [hmod] at hscaled
      exact_mod_cast hscaled

end SDecimal

end MarketServer
