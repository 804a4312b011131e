import MarketServer.Json
import Mathlib.Algebra.Group.Defs

/-! The records of the hub: decimals, depth levels and depth updates. -/
namespace MarketServer

/-- The arithmetic of `double` the server relies on, left open: rounding,
infinities and the result of a conversion out of range are the instance's. -/
class Double (F : Type) extends Zero F, One F, Add F, Mul F, Div F where
  ofUnsigned : UInt64 → F
  ofInt : Int32 → F
  pow10 : Nat → F
  toInt : F → Int32

/-- `CALC_BASE(x)`: a power of ten computed in `double`, then converted to `int`. -/
def calcBase (F : Type) [Double F] (exponent : Nat) : Int32 :=
  Double.toInt (Double.pow10 exponent : F)

structure SDecimal where
  value : UInt64
  base : UInt16
  deriving DecidableEq

def SDecimal.zero : SDecimal := ⟨0, 0⟩

def SDecimal.getValue {F : Type} [Double F] (decimal : SDecimal) : F :=
  Double.ofUnsigned decimal.value * 1 / Double.ofInt (calcBase F decimal.base.toNat)

/-- `DEPCH_LEVEL_COUNT` -/
def depchLevelCount : Nat := 100

/-- An array of one entry for each level. The length a record declares is kept
beside its arrays and is not checked against this size. -/
abbrev Levels (α : Type) := Vector α depchLevelCount

namespace Levels

variable {α : Type}

def read (levels : Levels α) (index : Nat) : Except Failure α :=
  if h : index < depchLevelCount then .ok levels[index] else .error .undefined

def write (levels : Levels α) (index : Nat) (value : α) : Except Failure (Levels α) :=
  if h : index < depchLevelCount then .ok (levels.set index value) else .error .undefined

/-- The entry at an index, for stating what `read` returns inside the array. -/
def entry (fallback : α) (levels : Levels α) (index : Nat) : α :=
  if h : index < depchLevelCount then levels[index] else fallback

theorem read_of_lt (fallback : α) (levels : Levels α) {index : Nat}
    (h : index < depchLevelCount) : levels.read index = .ok (entry fallback levels index) := by
  simp [read, entry, h]

theorem read_of_le (levels : Levels α) {index : Nat} (h : depchLevelCount ≤ index) :
    levels.read index = .error .undefined := by
  simp [read, Nat.not_lt.mpr h]

theorem write_of_lt (levels : Levels α) {index : Nat} (value : α)
    (h : index < depchLevelCount) : levels.write index value = .ok (levels.set index value) := by
  simp [write, h]

theorem entry_set (fallback : α) (levels : Levels α) {index : Nat} (value : α)
    (h : index < depchLevelCount) (other : Nat) :
    entry fallback (levels.set index value) other =
      if index = other then value else entry fallback levels other := by
  unfold entry
  by_cases hother : other < depchLevelCount
  · simp only [hother, dite_true, Vector.getElem_set]
  · have hne : index ≠ other := fun heq => hother (heq ▸ h)
    simp [hother, hne]

end Levels

structure SDepthLevelData (F : Type) where
  price : SDecimal
  volume : F

/-- The level the constructor leaves. -/
def SDepthLevelData.empty {F : Type} [Double F] : SDepthLevelData F := ⟨.zero, 0⟩

structure SDepthData (F : Type) where
  symbol : Bytes
  exchange : Bytes
  tick : UInt64
  seqno : UInt64
  asks : Levels (SDepthLevelData F)
  askLength : UInt16
  bids : Levels (SDepthLevelData F)
  bidLength : UInt16

/-- What is found where the strings of a destroyed update were, by each place of the
server that reads a string of a package made of it: the lookup in `depth_data_`, the
new key there, the announcement, and the two strings an encoder writes. -/
structure Reads where
  found : Bytes.Freed
  stored : Bytes.Freed
  announced : Bytes.Freed
  symbol : Bytes.Freed
  exchange : Bytes.Freed

/-- Nothing was written where the strings were. -/
def Reads.untouched : Reads := ⟨none, none, none, none, none⟩

namespace SDepthData

variable {F : Type}

/-- The update as an encoder reads it out of a package. -/
def readFrom (depth : SDepthData F) (reads : Reads) : SDepthData F :=
  { depth with
    symbol := depth.symbol.readFrom reads.symbol
    exchange := depth.exchange.readFrom reads.exchange }

/-- The declared lengths stay within the arrays. -/
def InBounds (depth : SDepthData F) : Prop :=
  depth.askLength.toNat ≤ depchLevelCount ∧ depth.bidLength.toNat ≤ depchLevelCount

instance (depth : SDepthData F) : Decidable depth.InBounds :=
  inferInstanceAs (Decidable (_ ∧ _))

def ValidTexts (depth : SDepthData F) : Prop :=
  depth.symbol.ValidUtf8 ∧ depth.exchange.ValidUtf8

instance (depth : SDepthData F) : Decidable depth.ValidTexts :=
  inferInstanceAs (Decidable (_ ∧ _))

end SDepthData

end MarketServer
