import MarketServer.World

/-! The helpers of `util/tools`: new packages and two more encoders. -/
namespace MarketServer
open Library

variable {F : Type} [Component F]

/-- `copy_sdepthdata` is a `memcpy`: the strings of the package point into an update
that is destroyed with its task, and are read through `Reads` from then on. -/
def getNewSDepthDataPackage (depth : SDepthData F) (packageId : Int32) :
    Handler F (Package F) := do
  let package := ⟨.handleDepthData, packageId, .sDepthData depth⟩
  record (.created package)
  return package

/-- The new object occupies memory that may hold anything. No statement in the
`try` block of the source throws an exception. -/
def getNewEnhancedDepthDataPackage [Double F] (memory : EnhancedDepthData F)
    (depth : SDepthData F) (packageId : Int32) : Handler F (Package F) := do
  let data ← memory.init depth
  let package := ⟨.processSdepthPackage, packageId, .enhancedDepthData data⟩
  record (.created package)
  return package

def getNewSymbolDataPackage (creator : Creator) (symbols : OrderedSet Bytes) (packageId : Int32) :
    Handler F (Package F) := do
  let package := ⟨creator, packageId, .symbolData ⟨symbols⟩⟩
  record (.created package)
  return package

/-- `depth_level_atom` of the plain encoder. -/
def plainAtom [Double F] (levels : Levels (SDepthLevelData F)) (i : Nat) :
    Except Failure (Json F) := do
  let level ← levels.read i
  let atom ← Json.null.setIndex 0 (.float level.price.getValue)
  atom.setIndex 1 (.float level.volume)

def sDepthDataToJsonStr [Double F] (depth : SDepthData F) : Except Failure (Text F) :=
  depthJson depth (plainAtom depth.asks) (plainAtom depth.bids) >>= Json.dump

def symbolsToJsonStr (F : Type) [Component F] (symbols : OrderedSet Bytes) :
    Except Failure (Text F) := do
  let items ← Json.fill symbols.toList fun symbol => .ok (.string symbol)
  let json ← Json.null.setKey "symbol" items
  json.dump

theorem symbolsToJsonStr_eq (F : Type) [Component F] (symbols : OrderedSet Bytes) :
    symbolsToJsonStr F symbols = (listDocument F "symbol" symbols).dump := by
  unfold symbolsToJsonStr
  rw [fill_symbols]
  rfl

theorem SymbolData.getJsonStr_eq (F : Type) [Component F] (data : SymbolData) :
    data.getJsonStr F = (listDocument F "symbols" data.symbols).dump := by
  unfold SymbolData.getJsonStr
  rw [SymbolData.toJson_eq]
  rfl

end MarketServer
