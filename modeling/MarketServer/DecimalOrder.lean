import MarketServer.DecimalDouble

/-! The order of decimals. The five operators always agree with each other; with
the order of the numbers they agree as long as the scaled operand keeps its place. -/
namespace MarketServer.SDecimal

variable {power : Nat → Int32}

/-- For any `CALC_BASE` that is 1 at 0 and any wrapping, the operators describe one
linear preorder. -/
theorem comparisons_consistent (power : Nat → Int32) (hone : power 0 = 1) (a b : SDecimal) :
    (lt power a b ∧ ¬ eq power a b ∧ ¬ lt power b a ∨
      ¬ lt power a b ∧ eq power a b ∧ ¬ lt power b a ∨
      ¬ lt power a b ∧ ¬ eq power a b ∧ lt power b a) ∧
      (gt power a b ↔ lt power b a) ∧ (le power a b ↔ ¬ gt power a b) ∧
      (ge power a b ↔ ¬ lt power a b) ∧ (eq power a b ↔ eq power b a) := by
  unfold lt gt le ge eq
  simp only [compareBy_eq, operands_swap hone a b, Prod.fst_swap, Prod.snd_swap]
  generalize operands power a b = words
  simp only [decide_eq_true_eq, beq_iff_eq, gt_iff_lt, ge_iff_le, UInt64.lt_iff_toNat_lt,
    UInt64.le_iff_toNat_le, ← UInt64.toNat_inj]
  refine ⟨?_, trivial, ?_, ?_, ?_⟩ <;> omega

theorem comparisons_consistent_sample :
    ge (calcBase ℚ) maxDecimal ⟨1, 1⟩ ↔ ¬ lt (calcBase ℚ) maxDecimal ⟨1, 1⟩ :=
  (comparisons_consistent (calcBase ℚ) calcBase_zero maxDecimal ⟨1, 1⟩).2.2.2.1

/-! The order of the numbers. -/

/-- Every operator returns what the order of the numbers says. -/
@[mk_iff]
structure ComparesNumerically (power : Nat → Int32) (a b : SDecimal) : Prop where
  lt : lt power a b ↔ a.toRat < b.toRat
  gt : gt power a b ↔ a.toRat > b.toRat
  eq : eq power a b ↔ a.toRat = b.toRat
  le : le power a b ↔ a.toRat ≤ b.toRat
  ge : ge power a b ↔ a.toRat ≥ b.toRat

/-- The operators are right when the words are ordered as the numbers are, given at a
common base. -/
theorem comparesNumerically_iff_words {a b : SDecimal} {left right base : Nat}
    (ha : a.toRat = left / 10 ^ base) (hb : b.toRat = right / 10 ^ base) :
    ComparesNumerically power a b ↔
      ((operands power a b).1.toNat < (operands power a b).2.toNat ↔ left < right) ∧
        ((operands power a b).2.toNat < (operands power a b).1.toNat ↔ right < left) := by
  have hpos : (0 : ℚ) < 10 ^ base := by positivity
  rw [comparesNumerically_iff, ha, hb]
  unfold SDecimal.lt SDecimal.gt SDecimal.eq SDecimal.le SDecimal.ge
  simp only [compareBy_eq, decide_eq_true_eq, beq_iff_eq, gt_iff_lt, ge_iff_le,
    UInt64.lt_iff_toNat_lt, UInt64.le_iff_toNat_le, ← UInt64.toNat_inj,
    div_lt_div_iff_of_pos_right hpos, div_le_div_iff_of_pos_right hpos,
    div_left_inj' hpos.ne', Nat.cast_lt, Nat.cast_le, Nat.cast_inj]
  omega

/-- The scaled operand lies on the side of the other one where its number does. -/
def KeepsOrder (power : Nat → Int32) (a b : SDecimal) : Prop :=
  ((finer a b).value.toNat < (rescaled power a b).toNat ↔
      (finer a b).value.toNat < aligned a b) ∧
    ((rescaled power a b).toNat < (finer a b).value.toNat ↔
      aligned a b < (finer a b).value.toNat)

theorem comparesNumerically_iff_keepsOrder (a b : SDecimal) :
    ComparesNumerically power a b ↔ KeepsOrder power a b := by
  have hcoarser := toRat_coarser a b
  have hfiner : (finer a b).toRat =
      ((finer a b).value.toNat : ℚ) / 10 ^ (finer a b).base.toNat := rfl
  rcases operands_cases power a b with ⟨ha, hb, hwords⟩ | ⟨ha, hb, hwords⟩
  · have hleft := (congrArg toRat ha).trans hfiner
    have hright := (congrArg toRat hb).trans hcoarser
    rw [comparesNumerically_iff_words hleft hright, hwords, KeepsOrder]
  · have hleft := (congrArg toRat ha).trans hcoarser
    have hright := (congrArg toRat hb).trans hfiner
    rw [comparesNumerically_iff_words hleft hright, hwords, KeepsOrder]
    exact and_comm

/-- The operators are right whatever `int` a power of ten is converted to that does not
fit one. -/
def ComparesByNumber (a b : SDecimal) : Prop :=
  ∀ power, PowersOfTen power → ComparesNumerically power a b

/-- Which decimals are compared right. While the power of ten fits an `int`, the scaled
value must not wrap, or stay above the finer value when it does. With a larger gap the
factor can be any `int`: the finer value must be the larger one, and larger than the
product with -1 as well, the largest that a coarser value as small can have. -/
def Comparable (a b : SDecimal) : Prop :=
  if gap a b ≤ 9 then
    aligned a b < 2 ^ 64 ∨ (finer a b).value.toNat < aligned a b % 2 ^ 64
  else
    (coarser a b).value = 0 ∨
      (aligned a b < (finer a b).value.toNat ∧
        2 ^ 64 < (finer a b).value.toNat + (coarser a b).value.toNat)

theorem toNat_rescaled (hpower : PowersOfTen power) {a b : SDecimal} (hgap : gap a b ≤ 9) :
    (rescaled power a b).toNat = aligned a b % 2 ^ 64 := by
  have hscaled := toNat_scaled power (coarser a b).value (gap a b)
  rw [hpower _ hgap] at hscaled
  exact_mod_cast hscaled

theorem keepsOrder_iff_of_le (hpower : PowersOfTen power) {a b : SDecimal}
    (hgap : gap a b ≤ 9) :
    KeepsOrder power a b ↔
      aligned a b < 2 ^ 64 ∨ (finer a b).value.toNat < aligned a b % 2 ^ 64 := by
  have hfiner := (finer a b).value.toNat_lt
  rw [KeepsOrder, toNat_rescaled hpower hgap]
  omega

/-- Ten places and more make the aligned value larger than any product with an `int` that
does not wrap. -/
theorem mul_le_aligned {a b : SDecimal} (hgap : ¬ gap a b ≤ 9) :
    (coarser a b).value.toNat * 10 ^ 10 ≤ aligned a b :=
  Nat.mul_le_mul_left _ (Nat.pow_le_pow_right (by decide) (by omega))

/-- No `int` takes the scaled operand to the other side. -/
theorem keepsOrder_of_above {a b : SDecimal} (hgap : ¬ gap a b ≤ 9)
    (habove : aligned a b < (finer a b).value.toNat)
    (hwrapped : 2 ^ 64 < (finer a b).value.toNat + (coarser a b).value.toNat) :
    KeepsOrder power a b := by
  have haligned := mul_le_aligned hgap
  have hfiner := (finer a b).value.toNat_lt
  have hproduct := toNat_scaled power (coarser a b).value (gap a b)
  have hlow := (power (gap a b)).le_toInt
  have hhigh := (power (gap a b)).toInt_lt
  generalize (power (gap a b)).toInt = factor at hproduct hlow hhigh
  have hless : (rescaled power a b).toNat < (finer a b).value.toNat := by
    unfold rescaled
    rcases lt_or_ge factor 0 with hnegative | hnonnegative
    · have hmost : ((coarser a b).value.toNat : Int) * factor ≤ (coarser a b).value.toNat * -1 :=
        mul_le_mul_of_nonneg_left (by omega) (by omega)
      have hleast :
          ((coarser a b).value.toNat : Int) * -2 ^ 31 ≤ (coarser a b).value.toNat * factor :=
        mul_le_mul_of_nonneg_left hlow (by omega)
      omega
    · have hmost :
          ((coarser a b).value.toNat : Int) * factor ≤ (coarser a b).value.toNat * 2 ^ 31 :=
        mul_le_mul_of_nonneg_left hhigh.le (by omega)
      have hleast : 0 ≤ ((coarser a b).value.toNat : Int) * factor :=
        mul_nonneg (by omega) hnonnegative
      omega
  unfold KeepsOrder
  omega

theorem keepsOrder_of_zero {a b : SDecimal} (hzero : (coarser a b).value = 0) :
    KeepsOrder power a b := by
  simp [KeepsOrder, rescaled, scaled, aligned, hzero]

/-- The scaled operand where `CALC_BASE` yields a chosen `int`. -/
theorem toNat_rescaled_update (a b : SDecimal) (factor : Int32) :
    ((rescaled (Function.update (calcBase ℚ) (gap a b) factor) a b).toNat : Int) =
      (coarser a b).value.toNat * factor.toInt % 2 ^ 64 := by
  have hproduct := toNat_scaled (Function.update (calcBase ℚ) (gap a b) factor)
    (coarser a b).value (gap a b)
  rwa [Function.update_self] at hproduct

/-- The factors 0 and -1 leave only finer values that are large. -/
theorem above_of_keepsOrder {a b : SDecimal} (hgap : ¬ gap a b ≤ 9)
    (hkeeps : ∀ factor, KeepsOrder (Function.update (calcBase ℚ) (gap a b) factor) a b)
    (hvalue : (coarser a b).value ≠ 0) :
    aligned a b < (finer a b).value.toNat ∧
      2 ^ 64 < (finer a b).value.toNat + (coarser a b).value.toNat := by
  have haligned := mul_le_aligned hgap
  have hpositive : 0 < (coarser a b).value.toNat :=
    Nat.pos_of_ne_zero fun h => hvalue (UInt64.toNat_inj.mp h)
  have hcoarser := (coarser a b).value.toNat_lt
  have hzero := toNat_rescaled_update a b 0
  have hminus := toNat_rescaled_update a b (-1)
  rw [show (0 : Int32).toInt = 0 from rfl] at hzero
  rw [show (-1 : Int32).toInt = -1 from rfl] at hminus
  obtain ⟨hbelow, habove⟩ := hkeeps 0
  obtain ⟨_, hwrapped⟩ := hkeeps (-1)
  omega

theorem compares_numerically_iff (a b : SDecimal) : ComparesByNumber a b ↔ Comparable a b := by
  unfold ComparesByNumber Comparable
  simp only [comparesNumerically_iff_keepsOrder]
  by_cases hgap : gap a b ≤ 9
  · rw [if_pos hgap]
    exact ⟨fun h => (keepsOrder_iff_of_le powersOfTen_calcBase hgap).mp (h _ powersOfTen_calcBase),
      fun h _ hpower => (keepsOrder_iff_of_le hpower hgap).mpr h⟩
  · rw [if_neg hgap]
    constructor
    · intro h
      have hkeeps := fun factor =>
        h _ (powersOfTen_update (show 10 ≤ gap a b by omega) factor)
      exact or_iff_not_imp_left.mpr (above_of_keepsOrder hgap hkeeps)
    · rintro (hzero | ⟨habove, hwrapped⟩) power -
      · exact keepsOrder_of_zero hzero
      · exact keepsOrder_of_above hgap habove hwrapped

/-- The largest decimal with one decimal place more is a tenth of the largest one. -/
def tenthOfMax : SDecimal := ⟨-1, 1⟩

theorem compares_numerically_iff_sample : ComparesByNumber ⟨15, 1⟩ ⟨2, 0⟩ :=
  (compares_numerically_iff _ _).mpr (.inl (by decide))

/-- The product with 10 wraps: the largest decimal compares below a tenth of itself. -/
theorem compares_wrongly :
    lt (calcBase ℚ) maxDecimal tenthOfMax = true ∧ ¬ maxDecimal.toRat < tenthOfMax.toRat ∧
      ¬ ComparesByNumber maxDecimal tenthOfMax := by
  have hlt : lt (calcBase ℚ) maxDecimal tenthOfMax = true := by decide +kernel
  have hnot : ¬ maxDecimal.toRat < tenthOfMax.toRat := by decide +kernel
  exact ⟨hlt, hnot, fun h => hnot ((h _ powersOfTen_calcBase).lt.mp hlt)⟩

end MarketServer.SDecimal
