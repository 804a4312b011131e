import Mathlib.Data.List.Lex

/-! Character strings as the server handles them: raw bytes, compared byte by
byte, with no promise about their encoding. -/
namespace MarketServer

/-- `std::string`. -/
abbrev Bytes := List UInt8

/-- Bytes compare as unsigned characters, so `List.instLinearOrder` is the order
of `std::string` and of every `std::set` and `std::map` keyed by it. -/
instance linearOrderUInt8 : LinearOrder UInt8 where
  le_refl := UInt8.le_refl
  le_trans _ _ _ := UInt8.le_trans
  lt_iff_le_not_ge _ _ := by
    rw [UInt8.lt_iff_toNat_lt, UInt8.le_iff_toNat_le, UInt8.le_iff_toNat_le]
    omega
  le_antisymm _ _ := UInt8.le_antisymm
  le_total := UInt8.le_total
  toDecidableLE := inferInstance
  toDecidableEq := inferInstance
  toDecidableLT := inferInstance
  compare_eq_compareOfLessAndEq _ _ := rfl

namespace Bytes

/-- The bytes of a string literal of the source. -/
def ofLiteral (literal : String) : Bytes := literal.toUTF8.data.toList

def ValidUtf8 (text : Bytes) : Prop := (ByteArray.mk text.toArray).IsValidUTF8

instance (text : Bytes) : Decidable text.ValidUtf8 :=
  inferInstanceAs (Decidable (ByteArray.IsValidUTF8 _))

theorem validUtf8_ofLiteral (literal : String) : (ofLiteral literal).ValidUtf8 := by
  unfold ValidUtf8 ofLiteral
  rw [Array.toArray_toList]
  exact literal.isValidUTF8

/-- What a freed place of memory holds: its old characters while nothing has
written there, or whatever was put in their place. -/
abbrev Freed := Option (Nat → UInt8)

/-- A string copied by `memcpy` has the length of its original and points to the
characters of its original, which are freed with it. -/
def readFrom (text : Bytes) : Freed → Bytes
  | none => text
  | some memory => (List.range text.length).map memory

end Bytes

end MarketServer
