import MarketServer.DecimalDouble
import MarketServer.Library.Grid

/-! Parsing decimal literals: which part of the text the method reads and to which
base it scales the number. -/
namespace MarketServer
open Library

/-- One or more digits, and possibly a point with one or more digits behind it. A
`std::string` has room for fewer than 2^64 characters. -/
structure Literal where
  whole : List (Fin 10)
  fraction : Option (List (Fin 10))
  whole_ne_nil : whole ≠ []
  fraction_ne_nil : ∀ digits ∈ fraction, digits ≠ []
  length_lt : whole.length + 1 + (fraction.getD []).length < 2 ^ 64

namespace Literal

def text (s : Literal) : Bytes :=
  match s.fraction with
  | none => s.whole.map digitByte
  | some fraction => s.whole.map digitByte ++ 46 :: fraction.map digitByte

/-- The digits with the point removed. -/
def digits (s : Literal) : List (Fin 10) := s.whole ++ s.fraction.getD []

/-- The number of fraction digits. -/
def places (s : Literal) : Nat := (s.fraction.getD []).length

/-- The number the literal denotes. -/
def number (s : Literal) : ℚ := numeral s.digits / 10 ^ s.places

/-- What the method takes for the number of decimals: the characters behind the
point, and the whole length when there is none. -/
def counted (s : Literal) : Nat :=
  match s.fraction with
  | none => s.whole.length
  | some fraction => fraction.length

/-- The base `length - pos - 1` is stored as 16 bits. -/
def base (s : Literal) : Nat := s.counted % 2 ^ 16

/-- The number in the text that is left when `precise` decimals are kept. -/
def cutNumber (s : Literal) (precise : Nat) : ℚ :=
  match s.fraction with
  | none => numeral (s.whole.take precise)
  | some fraction =>
    numeral (s.whole ++ fraction.take precise) / 10 ^ (fraction.take precise).length

theorem digitByte_ne_point (digit : Fin 10) : digitByte digit ≠ 46 := by
  revert digit
  decide

theorem point_not_mem (digits : List (Fin 10)) : 46 ∉ digits.map digitByte := by
  intro hmem
  obtain ⟨digit, _, heq⟩ := List.mem_map.mp hmem
  exact digitByte_ne_point digit heq

theorem find_text (s : Literal) :
    s.text.find 46 = if s.fraction.isSome then .ofNat s.whole.length else npos := by
  unfold text Bytes.find
  cases s.fraction with
  | none => simp [point_not_mem]
  | some fraction => simp [List.idxOf_append_of_notMem, point_not_mem]

theorem length_text (s : Literal) :
    s.text.length = match s.fraction with
      | none => s.whole.length
      | some fraction => s.whole.length + (fraction.length + 1) := by
  unfold text
  cases s.fraction with
  | none => simp
  | some fraction => simp

theorem counted_eq (s : Literal) :
    UInt64.ofNat s.text.length - s.text.find 46 - 1 = .ofNat s.counted := by
  rw [find_text, length_text]
  unfold counted
  cases s.fraction with
  | none =>
    have hnpos : npos = -1 := rfl
    simp only [Option.isSome_none, Bool.false_eq_true, if_false, hnpos]
    grind
  | some fraction =>
    simp only [Option.isSome_some, if_true, UInt64.ofNat_add]
    grind

theorem toUInt16_counted (s : Literal) :
    (UInt64.ofNat s.counted).toUInt16 = .ofNat s.base := by
  apply UInt16.toNat_inj.mp
  rw [UInt64.toNat_toUInt16, UInt64.toNat_ofNat', UInt16.toNat_ofNat']
  unfold base
  omega

theorem signExtended_of_nonneg {precise : Int32} (hlow : 0 ≤ precise.toInt) :
    signExtended precise = .ofNat precise.toInt.toNat := by
  have hword := toNat_signExtended precise
  have hhigh := precise.toInt_lt
  apply UInt64.toNat_inj.mp
  rw [UInt64.toNat_ofNat']
  omega

/-- What is left of the text; without a point `npos + 1` is 0 and the cut counts from
the front. -/
def cutText (s : Literal) (precise : Nat) : Bytes :=
  match s.fraction with
  | none => (s.whole.take precise).map digitByte
  | some fraction => s.whole.map digitByte ++ 46 :: (fraction.take precise).map digitByte

theorem substr_text {s : Literal} {precise : Int32} (hlow : 0 ≤ precise.toInt)
    (hcut : precise.toInt < s.base) :
    s.text.substr (s.text.find 46 + 1 + signExtended precise) = s.cutText precise.toInt.toNat := by
  have hbase : s.base ≤ s.counted := Nat.mod_le _ _
  have hlength := s.length_lt
  have hhigh := precise.toInt_lt
  rw [signExtended_of_nonneg hlow, find_text]
  generalize hprecise : precise.toInt.toNat = kept
  unfold text cutText counted Bytes.substr at *
  cases hfraction : s.fraction with
  | none =>
    have hstart : npos + 1 + UInt64.ofNat kept = .ofNat kept := by
      have hnpos : npos = -1 := rfl
      rw [hnpos]
      grind
    have hkept : kept < 2 ^ 64 := by omega
    simp only [Option.isSome_none, Bool.false_eq_true, if_false, hstart, List.map_take]
    rw [toNat_ofNat hkept]
  | some fraction =>
    simp only [hfraction, Option.getD_some] at hbase hlength
    have hstart : UInt64.ofNat s.whole.length + 1 + .ofNat kept =
        .ofNat ((s.whole.map digitByte).length + (kept + 1)) := by
      rw [List.length_map, UInt64.ofNat_add, UInt64.ofNat_add]
      grind
    have hend : (s.whole.map digitByte).length + (kept + 1) < 2 ^ 64 := by
      rw [List.length_map]
      omega
    simp only [Option.isSome_some, if_true, hstart, List.map_take]
    rw [toNat_ofNat hend, List.take_length_add_append, List.take_succ_cons]

theorem number_eq (s : Literal) : s.number = match s.fraction with
    | none => (numeral s.whole : ℚ)
    | some fraction => numeral (s.whole ++ fraction) / 10 ^ fraction.length := by
  unfold number digits places
  cases s.fraction with
  | none => simp
  | some fraction => rfl

variable {F : Type} [DecimalDouble F] {val : F → ℚ}

theorem atof_text (hval : ReadsExactly val) (s : Literal) :
    val (DecimalDouble.atof s.text) = s.number := by
  rw [number_eq]
  unfold text
  cases s.fraction with
  | none => exact hval.val_atof _
  | some fraction => exact hval.val_atof_point _ _

theorem atof_cutText (hval : ReadsExactly val) (s : Literal) (precise : Nat) :
    val (DecimalDouble.atof (s.cutText precise)) = s.cutNumber precise := by
  unfold cutText cutNumber
  cases s.fraction with
  | none => exact hval.val_atof _
  | some fraction => exact hval.val_atof_point _ _

theorem parsed_eq (hval : ReadsExactly val) (text : Bytes) (base : UInt16) :
    SDecimal.parsed F text base = truncated
      (val (DecimalDouble.atof text) * (calcBase F base.toNat).toInt) := by
  rw [SDecimal.parsed, hval.toUnsigned_eq, hval.val_mul, hval.val_ofInt]

theorem toNat_base (s : Literal) : (UInt16.ofNat s.base).toNat = s.base := by
  rw [UInt16.toNat_ofNat']
  exact Nat.mod_mod _ _

theorem fromString_cut (hval : ReadsExactly val) (self : SDecimal) (s : Literal) {precise : Int32}
    (hlow : 0 ≤ precise.toInt) (hcut : precise.toInt < s.base) (ceiling : Bool) :
    self.fromString F s.text precise ceiling = do
      let value ← truncated (s.cutNumber precise.toInt.toNat *
        (calcBase F precise.toInt.toNat).toInt)
      return ⟨if ceiling then value + 1 else value, precise.toUInt32.toUInt16⟩ := by
  have hlt : s.base < 2 ^ 16 := Nat.mod_lt _ (by decide)
  have hbase := toNat_precise hlow (by omega)
  unfold SDecimal.fromString
  simp only [counted_eq, toUInt16_counted, toNat_base]
  rw [if_pos ⟨hlow, hcut⟩, parsed_eq hval, substr_text hlow hcut, atof_cutText hval, hbase]

theorem fromString_whole (hval : ReadsExactly val) (self : SDecimal) (s : Literal)
    {precise : Int32} (hwhole : ¬ (0 ≤ precise.toInt ∧ precise.toInt < s.base)) (ceiling : Bool) :
    self.fromString F s.text precise ceiling = do
      let value ← truncated (s.number * (calcBase F s.base).toInt)
      return ⟨value, .ofNat s.base⟩ := by
  unfold SDecimal.fromString
  simp only [counted_eq, toUInt16_counted, toNat_base]
  rw [if_neg hwhole, parsed_eq hval, atof_text hval, toNat_base]

end Literal

end MarketServer
