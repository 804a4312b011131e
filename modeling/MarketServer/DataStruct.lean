import MarketServer.HubStruct

/-! What the packages of the server carry: a depth update with its accumulated
volumes, and a set of symbols. Both know how to encode themselves. -/
namespace MarketServer
open Library

variable {F : Type} [Double F]

/-- The document of a depth update. The encoders of the server write the same
members and differ in how they render level `i` of a side. -/
def depthJson (depth : SDepthData F) (ask bid : Nat → Except Failure (Json F)) :
    Except Failure (Json F) := do
  let json ← Json.null.setKey "symbol" (.string depth.symbol)
  let json ← json.setKey "exchange" (.string depth.exchange)
  let json ← json.setKey "tick" (.unsigned depth.tick)
  let json ← json.setKey "seqno" (.unsigned depth.seqno)
  let json ← json.setKey "ask_length" (.unsigned depth.askLength.toUInt64)
  let json ← json.setKey "bid_length" (.unsigned depth.bidLength.toUInt64)
  let asks ← Json.fill (List.range depth.askLength.toNat) ask
  let json ← json.setKey "asks" asks
  let bids ← Json.fill (List.range depth.bidLength.toNat) bid
  json.setKey "bids" bids

structure EnhancedDepthData (F : Type) where
  askAccumulatedVolume : Levels F
  bidAccumulatedVolume : Levels F
  depthData : SDepthData F

namespace EnhancedDepthData

/-- One pass of the loops of `init`: the first entry is the volume itself, every
other entry adds the volume to the entry before it. -/
def accumulateLevel (levels : Levels (SDepthLevelData F)) (accumulated : Levels F) (i : Nat) :
    Except Failure (Levels F) := do
  let level ← levels.read i
  if i = 0 then
    accumulated.write i level.volume
  else
    let previous ← accumulated.read (i - 1)
    accumulated.write i (level.volume + previous)

def accumulate (levels : Levels (SDepthLevelData F)) (length : UInt16) (accumulated : Levels F) :
    Except Failure (Levels F) :=
  (List.range length.toNat).foldlM (accumulateLevel levels) accumulated

/-- `init` overwrites an object whose arrays may hold anything. The update is copied by
`memcpy`, its strings with it. -/
def init (self : EnhancedDepthData F) (depth : SDepthData F) :
    Except Failure (EnhancedDepthData F) := do
  let ask ← accumulate depth.asks depth.askLength self.askAccumulatedVolume
  let bid ← accumulate depth.bids depth.bidLength self.bidAccumulatedVolume
  return ⟨ask, bid, depth⟩

/-- The object as an encoder reads it out of a package. -/
def readFrom (self : EnhancedDepthData F) (reads : Reads) : EnhancedDepthData F :=
  { self with depthData := self.depthData.readFrom reads }

omit [Double F] in
@[simp] theorem readFrom_untouched (self : EnhancedDepthData F) :
    self.readFrom .untouched = self := rfl

/-- `depth_level_atom` of level `i`. -/
def levelAtom (levels : Levels (SDepthLevelData F)) (accumulated : Levels F) (i : Nat) :
    Except Failure (Json F) := do
  let level ← levels.read i
  let atom ← Json.null.setIndex 0 (.float level.price.getValue)
  let atom ← atom.setIndex 1 (.float level.volume)
  let volume ← accumulated.read i
  atom.setIndex 2 (.float volume)

/-- The document `set_json_str` builds before it is dumped. -/
def toJson (self : EnhancedDepthData F) : Except Failure (Json F) :=
  depthJson self.depthData (levelAtom self.depthData.asks self.askAccumulatedVolume)
    (levelAtom self.depthData.bids self.bidAccumulatedVolume)

def getJsonStr [Component F] (self : EnhancedDepthData F) : Except Failure (Text F) :=
  self.toJson >>= Json.dump

end EnhancedDepthData

structure SymbolData where
  symbols : OrderedSet Bytes

namespace SymbolData

/-- The document `set_json_str` builds before it is dumped. -/
def toJson (F : Type) (self : SymbolData) : Except Failure (Json F) := do
  let symbols ← Json.fill self.symbols.toList fun symbol => .ok (.string symbol)
  Json.null.setKey "symbols" symbols

def getJsonStr (F : Type) [Component F] (self : SymbolData) : Except Failure (Text F) :=
  self.toJson F >>= Json.dump

end SymbolData

end MarketServer
