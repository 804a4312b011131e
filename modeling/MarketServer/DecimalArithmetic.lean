import MarketServer.DecimalOrder

/-! Sums and differences of decimals: what holds whether or not the words wrap, and
when the result is the number it stands for. -/
namespace MarketServer.SDecimal

variable {power : Nat → Int32}

theorem add_comm (hone : power 0 = 1) (a b : SDecimal) : add power a b = add power b a := by
  unfold add
  rw [combineBy_eq, combineBy_eq, operands_swap hone a b, base_finer_comm a b]
  congr 1
  exact UInt64.add_comm _ _

/-- The sum has the larger base, so `b` is scaled, or left as it is, the same way
twice and cancels; what remains is `a` at that base. -/
theorem eq_sub_add (hone : power 0 = 1) (a b : SDecimal) :
    eq power (sub power (add power a b) b) a = true := by
  unfold add sub eq combineBy compareBy
  rcases base_cases a b with ⟨hba, hab⟩ | heq | ⟨hab, hba⟩
  · simp [hba, hab, scaled_zero hone]
  · simp [heq, scaled_zero hone]
  · simp [hab, scaled_zero hone]

/-- For any `CALC_BASE` that is 1 at 0, addition commutes and subtraction undoes it,
in wrapping arithmetic. -/
theorem add_comm_and_sub_cancel (power : Nat → Int32) (hone : power 0 = 1) (a b : SDecimal) :
    add power a b = add power b a ∧ eq power (sub power (add power a b) b) a = true :=
  ⟨add_comm hone a b, eq_sub_add hone a b⟩

theorem add_comm_and_sub_cancel_sample :
    add (calcBase ℚ) maxDecimal ⟨7, 20⟩ = add (calcBase ℚ) ⟨7, 20⟩ maxDecimal ∧
      eq (calcBase ℚ) (sub (calcBase ℚ) (add (calcBase ℚ) maxDecimal ⟨7, 20⟩) ⟨7, 20⟩)
        maxDecimal = true :=
  add_comm_and_sub_cancel (calcBase ℚ) calcBase_zero maxDecimal ⟨7, 20⟩

/-! Sums and differences of the numbers. -/

/-- The sum is the sum of the numbers, and so is the difference where it is not
negative. -/
structure CombinesExactly (power : Nat → Int32) (a b : SDecimal) : Prop where
  add : (add power a b).toRat = a.toRat + b.toRat
  sub : b.toRat ≤ a.toRat → (sub power a b).toRat = a.toRat - b.toRat

theorem toRat_add_eq_iff {a b : SDecimal} {left right : Nat}
    (ha : a.toRat = left / 10 ^ (finer a b).base.toNat)
    (hb : b.toRat = right / 10 ^ (finer a b).base.toNat) :
    (SDecimal.add power a b).toRat = a.toRat + b.toRat ↔
      ((operands power a b).1 + (operands power a b).2).toNat = left + right := by
  have hpow : (10 : ℚ) ^ (finer a b).base.toNat ≠ 0 := by positivity
  rw [SDecimal.add, combineBy_eq, ha, hb, ← add_div]
  unfold toRat
  rw [div_left_inj' hpow]
  exact_mod_cast Iff.rfl

/-- When the words are the numbers, so is a difference that is not negative. -/
theorem toRat_sub {a b : SDecimal}
    (ha : a.toRat = (operands power a b).1.toNat / 10 ^ (finer a b).base.toNat)
    (hb : b.toRat = (operands power a b).2.toNat / 10 ^ (finer a b).base.toNat)
    (hle : b.toRat ≤ a.toRat) : (SDecimal.sub power a b).toRat = a.toRat - b.toRat := by
  have hpos : (0 : ℚ) < 10 ^ (finer a b).base.toNat := by positivity
  rw [ha, hb, div_le_div_iff_of_pos_right hpos, Nat.cast_le] at hle
  rw [SDecimal.sub, combineBy_eq, ha, hb, ← sub_div, ← Nat.cast_sub hle]
  unfold toRat
  rw [UInt64.toNat_sub_of_le _ _ (UInt64.le_iff_toNat_le.mpr hle)]

theorem combinesExactly_of_words {a b : SDecimal}
    (ha : a.toRat = (operands power a b).1.toNat / 10 ^ (finer a b).base.toNat)
    (hb : b.toRat = (operands power a b).2.toNat / 10 ^ (finer a b).base.toNat)
    (hfits : (operands power a b).1.toNat + (operands power a b).2.toNat < 2 ^ 64) :
    CombinesExactly power a b where
  add := by
    rw [toRat_add_eq_iff ha hb, UInt64.toNat_add]
    exact Nat.mod_eq_of_lt hfits
  sub := toRat_sub ha hb

/-- The words of the operators beside the numbers they stand for. -/
theorem exists_numbers (power : Nat → Int32) (a b : SDecimal) :
    ∃ left right : Nat,
      a.toRat = left / 10 ^ (finer a b).base.toNat ∧
      b.toRat = right / 10 ^ (finer a b).base.toNat ∧
      left + right = (finer a b).value.toNat + aligned a b ∧
      (operands power a b).1.toNat + (operands power a b).2.toNat =
        (finer a b).value.toNat + (rescaled power a b).toNat ∧
      ((rescaled power a b).toNat = aligned a b →
        (operands power a b).1.toNat = left ∧ (operands power a b).2.toNat = right) := by
  have hcoarser := toRat_coarser a b
  have hfiner : (finer a b).toRat =
      ((finer a b).value.toNat : ℚ) / 10 ^ (finer a b).base.toNat := rfl
  rcases operands_cases power a b with ⟨ha, hb, hwords⟩ | ⟨ha, hb, hwords⟩
  · refine ⟨_, _, (congrArg toRat ha).trans hfiner, (congrArg toRat hb).trans hcoarser, rfl, ?_⟩
    rw [hwords]
    exact ⟨rfl, fun hexact => ⟨rfl, hexact⟩⟩
  · refine ⟨_, _, (congrArg toRat ha).trans hcoarser, (congrArg toRat hb).trans hfiner,
      Nat.add_comm _ _, ?_⟩
    rw [hwords]
    exact ⟨Nat.add_comm _ _, fun hexact => ⟨hexact, rfl⟩⟩

/-- Sum and difference are exact exactly when no larger power of ten than an `int`
holds is needed and the sum fits 64 bits. -/
theorem combines_exactly_iff (hpower : PowersOfTen power) (a b : SDecimal) :
    CombinesExactly power a b ↔
      ((coarser a b).value = 0 ∨ gap a b ≤ 9) ∧
        (finer a b).value.toNat + aligned a b < 2 ^ 64 := by
  have hscaled : (rescaled power a b).toNat = aligned a b ↔
      (coarser a b).value = 0 ∨ gap a b ≤ 9 ∧ aligned a b < 2 ^ 64 :=
    toNat_scaled_eq_iff hpower ..
  obtain ⟨left, right, ha, hb, hsum, hwords, hexactWords⟩ := exists_numbers power a b
  constructor
  · intro h
    have hadd := (toRat_add_eq_iff ha hb).mp h.add
    have hrescaled := (rescaled power a b).toNat_lt
    rw [UInt64.toNat_add, hwords, hsum] at hadd
    have hcases := hscaled.mp (by omega)
    exact ⟨hcases.imp_right And.left, by omega⟩
  · rintro ⟨hcases, hfits⟩
    have hexact := hscaled.mpr (hcases.imp_right fun hgap => ⟨hgap, by omega⟩)
    obtain ⟨rfl, rfl⟩ := hexactWords hexact
    exact combinesExactly_of_words ha hb (by omega)

/-- One unit and ten decimal places below it. -/
def tenPlaces : SDecimal := ⟨1, 10⟩

def one : SDecimal := ⟨1, 0⟩

theorem combines_exactly_iff_sample : CombinesExactly (calcBase ℚ) ⟨15, 1⟩ one :=
  (combines_exactly_iff powersOfTen_calcBase _ _).mpr (by decide)

/-- The sum 1.0000000001 would fit easily, but 10^10 is no `int`. -/
theorem combines_wrongly :
    ((finer tenPlaces one).value.toNat + aligned tenPlaces one < 2 ^ 64) ∧
      (SDecimal.add (calcBase ℚ) tenPlaces one).toRat ≠ tenPlaces.toRat + one.toRat ∧
      ¬ CombinesExactly (calcBase ℚ) tenPlaces one := by
  have hne : (SDecimal.add (calcBase ℚ) tenPlaces one).toRat ≠ tenPlaces.toRat + one.toRat := by
    decide +kernel
  exact ⟨by decide, hne, fun h => hne h.add⟩

end MarketServer.SDecimal
