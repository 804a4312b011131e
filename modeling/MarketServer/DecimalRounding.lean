import MarketServer.DecimalDouble
import MarketServer.Library.Grid

/-! Rounding a decimal to fewer places. The quotient is truncated before `ceil` and
`floor` see it and passes through a `double`, so both modes compute the same. -/
namespace MarketServer
open Library

variable {F : Type} [DecimalDouble F] {power : Nat → Int32}

namespace SDecimal

/-- `CALC_BASE(exponent)` as the divisor of a 64-bit number. -/
def divisor (power : Nat → Int32) (exponent : Nat) : Nat := (signExtended (power exponent)).toNat

theorem divided_eq (power : Nat → Int32) (value : UInt64) (exponent : Nat) :
    divided power value exponent =
      if divisor power exponent = 0 then .error .undefined
      else .ok (value / signExtended (power exponent)) := by
  have hzero : signExtended (power exponent) = 0 ↔ divisor power exponent = 0 :=
    UInt64.toNat_inj.symm
  unfold divided
  simp only [hzero]

/-- `ceil` and `floor` are given a whole number, so they change nothing. -/
theorem val_rounded {val : F → ℚ} (hval : RoundsToEven val) (quotient : UInt64)
    (ceiling : Bool) :
    val (if ceiling then DecimalDouble.ceil (Double.ofUnsigned quotient)
      else DecimalDouble.floor (Double.ofUnsigned quotient)) =
      (roundEven 53 quotient.toNat : Nat) := by
  cases ceiling with
  | false => simp [hval.val_floor, hval.val_ofUnsigned]
  | true => simp [hval.val_ceil, hval.val_ofUnsigned]

theorem fromDecimal_eq {val : F → ℚ} (hval : RoundsToEven val) (power : Nat → Int32)
    (self data : SDecimal) {precise : Int32}
    (hprecise : ¬ (precise = -1 ∨ (data.base.toNat : Int) ≤ precise.toInt))
    (ceiling : Bool) :
    let factor := divisor power (data.base.toNat - precise.toInt).toNat
    let rounded := roundEven 53 (data.value.toNat / factor)
    fromDecimal F power self data precise ceiling =
      if factor = 0 ∨ ¬ rounded < 2 ^ 64 then .error .undefined
      else .ok ⟨.ofNat rounded, precise.toUInt32.toUInt16⟩ := by
  intro factor rounded
  unfold fromDecimal
  rw [if_neg hprecise, divided_eq]
  by_cases hfactor : factor = 0
  · rw [if_pos hfactor, if_pos (.inl hfactor)]
    rfl
  · have hrounded := truncated_natCast rounded
    rw [if_neg hfactor]
    change (DecimalDouble.toUnsigned _ >>= _) = _
    rw [hval.toUnsigned_eq, val_rounded hval, UInt64.toNat_div]
    change (truncated rounded >>= _) = _
    rw [hrounded]
    by_cases hfits : rounded < 2 ^ 64
    · rw [if_pos hfits, if_neg (not_or.mpr ⟨hfactor, not_not.mpr hfits⟩)]
      rfl
    · rw [if_neg hfits, if_pos (.inr hfits)]
      rfl

theorem toRat_mul_pow {data : SDecimal} {precise : Nat} (hprecise : precise ≤ data.base.toNat) :
    data.toRat * 10 ^ precise = data.value.toNat / (10 ^ (data.base.toNat - precise) : Nat) := by
  have hpow : (10 : ℚ) ^ data.base.toNat =
      10 ^ (data.base.toNat - precise) * 10 ^ precise := by
    rw [← pow_add, Nat.sub_add_cancel hprecise]
  unfold toRat
  rw [hpow]
  push_cast
  field_simp

/-- What is asked of `x.from(data, precise, ceiling)`. -/
def RoundsInto (data : SDecimal) (precise : Int32) (ceiling : Bool) (x : SDecimal) : Prop :=
  if precise = -1 ∨ (data.base.toNat : Int) ≤ precise.toInt then x = data
  else (x.base.toNat : Int) = precise.toInt ∧
    Brackets (10 ^ precise.toInt.toNat) data.toRat ceiling x.toRat

/-- The object the method leaves is as asked, whatever `int` a power of ten is converted to
that does not fit one. -/
def RoundsCorrectly (F : Type) [DecimalDouble F] (self data : SDecimal) (precise : Int32)
    (ceiling : Bool) : Prop :=
  ∀ power, PowersOfTen power → ∃ x, fromDecimal F power self data precise ceiling = .ok x ∧
    RoundsInto data precise ceiling x

/-- Which values of `gap` digits more are rounded right: the power of ten fits an `int`,
and the quotient, or the number after it, survives the `double`. -/
def Roundable (value gap : Nat) : Bool → Prop
  | false => gap ≤ 9 ∧ spacing 53 (value / 10 ^ gap) ∣ value / 10 ^ gap
  | true =>
    gap ≤ 9 ∧ (10 ^ gap ∣ value ∧ spacing 53 (value / 10 ^ gap) ∣ value / 10 ^ gap ∨
      ¬ 10 ^ gap ∣ value ∧ 2 ≤ spacing 53 (value / 10 ^ gap) ∧
        spacing 53 (value / 10 ^ gap) ∣ value / 10 ^ gap + 1 ∧ 4 ∣ value / 10 ^ gap + 1)

theorem Roundable.gap_le {value gap : Nat} {ceiling : Bool} (h : Roundable value gap ceiling) :
    gap ≤ 9 := by
  cases ceiling <;> exact h.1

theorem divisor_of_le (hpower : PowersOfTen power) {gap : Nat} (hgap : gap ≤ 9) :
    divisor power gap = 10 ^ gap := by
  have hle : 10 ^ gap ≤ 10 ^ 9 := Nat.pow_le_pow_right (by decide) hgap
  have heq := toNat_signExtended (power gap)
  rw [hpower gap hgap, Int.emod_eq_of_lt (by positivity) (by exact_mod_cast (by omega))] at heq
  exact_mod_cast heq

theorem rounded_eq_quotient_iff (hpower : PowersOfTen power) (value : Nat) {gap : Nat}
    (hgap : gap ≤ 9) (ceiling : Bool) :
    divisor power gap ≠ 0 ∧
        roundEven 53 (value / divisor power gap) = quotient ceiling value (10 ^ gap) ↔
      Roundable value gap ceiling := by
  have hself := roundEven_eq_self_iff 53 (value / 10 ^ gap)
  have hsucc := roundEven_eq_succ_iff 53 (value / 10 ^ gap)
  rw [divisor_of_le hpower hgap]
  cases ceiling with
  | false => simp [Roundable, quotient, hgap, hself]
  | true =>
    by_cases hdvd : 10 ^ gap ∣ value
    · simp [Roundable, quotient, hgap, hdvd, hself]
    · simp [Roundable, quotient, hgap, hdvd, hsucc]

/-- The multiple of `10 ^ -precise` a value stands for. -/
theorem brackets_toRat_iff (data x : SDecimal) (hbase : x.base.toNat ≤ data.base.toNat)
    (ceiling : Bool) :
    Brackets (10 ^ x.base.toNat) data.toRat ceiling x.toRat ↔
      x.value.toNat = quotient ceiling data.value.toNat (10 ^ (data.base.toNat - x.base.toNat)) := by
  have hpow : (10 : ℚ) ^ x.base.toNat ≠ 0 := by positivity
  have hx : x.toRat * 10 ^ x.base.toNat = x.value.toNat := div_mul_cancel₀ _ hpow
  rw [brackets_iff (by positivity) (Nat.pow_pos (by decide)) (toRat_mul_pow hbase), hx]
  exact_mod_cast Iff.rfl

theorem roundsCorrectly_of_copied (self : SDecimal) {data : SDecimal} {precise : Int32}
    (hcopy : precise = -1 ∨ (data.base.toNat : Int) ≤ precise.toInt) (ceiling : Bool) :
    RoundsCorrectly F self data precise ceiling := by
  intro power _
  have hcopied : fromDecimal F power self data precise ceiling = .ok data := by
    rw [fromDecimal, if_pos hcopy]
  have hinto : RoundsInto data precise ceiling data := by rw [RoundsInto, if_pos hcopy]
  exact ⟨data, hcopied, hinto⟩

theorem rounds_iff_rounded {val : F → ℚ} (hval : RoundsToEven val) (power : Nat → Int32)
    (self data : SDecimal) {precise : Int32} {gap : Nat} (hlow : 0 ≤ precise.toInt)
    (hcut : precise.toInt < data.base.toNat)
    (hgap : data.base.toNat - precise.toInt.toNat = gap) (ceiling : Bool) :
    (∃ x, fromDecimal F power self data precise ceiling = .ok x ∧
        RoundsInto data precise ceiling x) ↔
      divisor power gap ≠ 0 ∧ roundEven 53 (data.value.toNat / divisor power gap) =
        quotient ceiling data.value.toNat (10 ^ gap) := by
  have hcopy : ¬ (precise = -1 ∨ (data.base.toNat : Int) ≤ precise.toInt) := by
    rintro (rfl | hle)
    · exact absurd hlow (by decide)
    · omega
  have hbound := data.base.toNat_lt
  have hbase : precise.toUInt32.toUInt16.toNat = precise.toInt.toNat :=
    toNat_precise hlow (by omega)
  have hdropped : ((data.base.toNat : Int) - precise.toInt).toNat = gap := by omega
  have hpositive : 0 < 10 ^ gap := Nat.pow_pos (by decide)
  have hfits := (quotient_le_self hpositive ceiling data.value.toNat).trans_lt data.value.toNat_lt
  have hresult := fromDecimal_eq hval power self data hcopy ceiling
  have hbrackets := fun value => brackets_toRat_iff data ⟨value, precise.toUInt32.toUInt16⟩
    (by rw [hbase]; omega) ceiling
  simp only [hbase, hgap] at hbrackets
  rw [hdropped] at hresult
  unfold RoundsInto
  simp only [if_neg hcopy]
  constructor
  · rintro ⟨x, hx, _, hbracket⟩
    rw [hresult] at hx
    split at hx
    · cases hx
    · rename_i hdefined
      cases hx
      rw [not_or, not_not] at hdefined
      rw [hbrackets, toNat_ofNat hdefined.2] at hbracket
      exact ⟨hdefined.1, hbracket⟩
  · rintro ⟨hfactor, hrounded⟩
    rw [← hrounded] at hfits
    refine ⟨_, hresult.trans (if_neg (not_or.mpr ⟨hfactor, not_not.mpr hfits⟩)), ?_, ?_⟩
    · rw [hbase]
      omega
    · rw [hbrackets, toNat_ofNat hfits]
      exact hrounded

/-- From ten digits on the divisor can be 0. -/
theorem not_rounds_of_large {val : F → ℚ} (hval : RoundsToEven val) (self data : SDecimal)
    {precise : Int32} (hlow : 0 ≤ precise.toInt)
    (hlarge : 10 ≤ data.base.toNat - precise.toInt.toNat) (ceiling : Bool) :
    ¬ RoundsCorrectly F self data precise ceiling := by
  intro h
  have hzero : divisor
      (Function.update (calcBase ℚ) (data.base.toNat - precise.toInt.toNat) 0)
      (data.base.toNat - precise.toInt.toNat) = 0 := by
    rw [divisor, Function.update_self]
    rfl
  have hrounds := h _ (powersOfTen_update hlarge 0)
  exact ((rounds_iff_rounded hval _ self data hlow (by omega) rfl ceiling).mp hrounds).1 hzero

theorem rounds_correctly_iff {val : F → ℚ} (hval : RoundsToEven val) (self data : SDecimal)
    {precise : Int32} (hprecise : -1 ≤ precise.toInt) (ceiling : Bool) :
    RoundsCorrectly F self data precise ceiling ↔
      precise = -1 ∨ (data.base.toNat : Int) ≤ precise.toInt ∨
        Roundable data.value.toNat (data.base.toNat - precise.toInt.toNat) ceiling := by
  rw [← or_assoc]
  by_cases hcopy : precise = -1 ∨ (data.base.toNat : Int) ≤ precise.toInt
  · exact iff_of_true (roundsCorrectly_of_copied self hcopy ceiling) (.inl hcopy)
  · have hminus : precise.toInt ≠ -1 := fun h => hcopy (.inl (Int32.toInt_inj.mp h))
    have hlow : 0 ≤ precise.toInt := by omega
    have hcut : precise.toInt < data.base.toNat := by omega
    rw [or_iff_right hcopy]
    by_cases hgap : data.base.toNat - precise.toInt.toNat ≤ 9
    · have hiff : ∀ power, PowersOfTen power → ((∃ x,
          fromDecimal F power self data precise ceiling = .ok x ∧
            RoundsInto data precise ceiling x) ↔
          Roundable data.value.toNat (data.base.toNat - precise.toInt.toNat) ceiling) :=
        fun power hpower => (rounds_iff_rounded hval power self data hlow hcut rfl ceiling).trans
          (rounded_eq_quotient_iff hpower data.value.toNat hgap ceiling)
      exact ⟨fun h => (hiff _ powersOfTen_calcBase).mp (h _ powersOfTen_calcBase),
        fun h power hpower => (hiff power hpower).mpr h⟩
    · exact iff_of_false (not_rounds_of_large hval self data hlow (by omega) ceiling)
        fun h => hgap h.gap_le

theorem rounds_correctly_iff_sample : RoundsCorrectly Binary64 .zero ⟨125, 2⟩ 1 false := by
  refine (rounds_correctly_iff roundsToEven_binary64 _ _ (by decide) false).mpr
    (.inr (.inr ⟨by decide, ?_⟩))
  decide +kernel

/-- 1.5 rounded up to a whole number is 1: the quotient has lost its fraction before
`ceil` is applied. -/
theorem rounds_wrongly :
    fromDecimal Binary64 (calcBase Binary64) .zero ⟨15, 1⟩ 0 true = .ok ⟨1, 0⟩ ∧
      ¬ RoundsCorrectly Binary64 .zero ⟨15, 1⟩ 0 true := by
  have hresult : fromDecimal Binary64 (calcBase Binary64) .zero ⟨15, 1⟩ 0 true = .ok ⟨1, 0⟩ := by
    decide +kernel
  refine ⟨hresult, fun h => ?_⟩
  obtain ⟨x, hx, hinto⟩ := h _ powersOfTen_binary64
  cases hresult.symm.trans hx
  have hbracket : Brackets _ (toRat ⟨15, 1⟩) true (toRat ⟨1, 0⟩) := hinto.2
  have hle : toRat ⟨15, 1⟩ ≤ toRat ⟨1, 0⟩ := hbracket.1.2
  revert hle
  decide +kernel

end SDecimal

end MarketServer
