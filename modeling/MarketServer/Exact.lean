import MarketServer.Invariants
import Mathlib.Algebra.Field.Rat

/-! One instance of the open parts: exact rationals for `double`, and texts that
are the documents they spell. It serves the runs on concrete inputs. -/
namespace MarketServer

/-- A number outside the range of `int` converts to the smallest `int`, which is
what the conversion instruction of x86-64 returns. -/
instance : Double ℚ where
  ofUnsigned value := value.toNat
  ofInt value := value.toInt
  pow10 exponent := 10 ^ exponent
  toInt value :=
    let whole := value.num.tdiv value.den
    if Int32.minValue.toInt ≤ whole ∧ whole ≤ Int32.maxValue.toInt then Int32.ofInt whole
    else Int32.minValue

instance : Component ℚ where
  Text := { json : Json ℚ // json.ValidUtf8 }
  dump json := if h : json.ValidUtf8 then some ⟨json, h⟩ else none
  parse text := some text.val
  dump_isSome json _ := by
    split <;> simp_all
  parse_dump := by
    intro json text h _ _
    split at h
    · cases h
      rfl
    · cases h
  RtnDepth := Unit
  convertUTData _ := ⟨.null, by intro scalar h; cases List.mem_singleton.mp h; trivial⟩

def emptyLevels : Levels (SDepthLevelData ℚ) := Vector.replicate depchLevelCount .empty

/-- An update without levels. -/
def emptyDepth (symbol exchange : Bytes) : SDepthData ℚ :=
  ⟨symbol, exchange, 0, 0, emptyLevels, 0, emptyLevels, 0⟩

/-- Memory that happens to hold zeros. -/
def zeroMemory : EnhancedDepthData ℚ :=
  ⟨Vector.replicate depchLevelCount 0, Vector.replicate depchLevelCount 0, emptyDepth [] []⟩

def btcDepth : SDepthData ℚ := emptyDepth (.ofLiteral "BTC") (.ofLiteral "X")

/-- A connection opens, one update of a new symbol passes through the server,
then a full list does. -/
def sampleRun : List (Event ℚ) :=
  [.onOpen, .onDepth btcDepth, .receive, .process zeroMemory, .front, .front,
    .requestAllSymbol, .process zeroMemory, .front]

theorem sampleRun_valid : ∀ event ∈ sampleRun, event.ValidTexts := by
  have hbtc : btcDepth.ValidTexts := by decide
  simp [sampleRun, Event.ValidTexts, hbtc]

theorem still_valid {events : List (Event ℚ)} (h : ∀ event ∈ events, event.ValidTexts) :
    ∀ turn ∈ still events, turn.event.ValidTexts := List.forall_mem_map.mpr h

theorem sampleRun_reaches : ∃ world, run (World.initial ℚ) sampleRun = some world :=
  Option.isSome_iff_exists.mp (by decide +kernel)

/-- Memory in which a text was written since. -/
def overwritten (literal : String) : Bytes.Freed := some fun i => (Bytes.ofLiteral literal).getD i 0

/-- The symbol a client reads in the text of an update. -/
def symbolWritten (text : Text ℚ) : Option Bytes :=
  (Component.parse text).bind fun json =>
    match json.member "symbol" with
    | some (.string symbol) => some symbol
    | _ => none

end MarketServer
