import MarketServer.Tools

/-! The last station and its WebSocket server. -/
namespace MarketServer
open Library

variable {F : Type} [Component F]

namespace WBServer

def send (client : Client) (message : Message F) : Handler F Unit :=
  record (.sent client message)

def broadcast (message : Message F) : Handler F Unit := do
  record (.broadcast message)
  (← get).wssConSet.toList.forM fun client => send client message

def onClose (client : Client) : Handler F Unit := do
  record (.closed client)
  modify fun world =>
    if client ∈ world.wssConSet then
      { world with wssConSet := world.wssConSet.erase client }
    else world

end WBServer

namespace FrontServer

def getSymbolsStr : Handler F (Text F) := do
  let world ← get
  symbolsToJsonStr F world.symbols

def processSdepthPackage [Double F] (reads : Reads) (package : Package F) (depth : SDepthData F) :
    Handler F Unit := do
  let text ← sDepthDataToJsonStr (depth.readFrom reads)
  WBServer.broadcast ⟨some package, text⟩

def processRtnDepthPackage (package : Package F) (depth : Component.RtnDepth F) :
    Handler F Unit :=
  WBServer.broadcast ⟨some package, Component.convertUTData depth⟩

/-- `symbols_.merge(p_symbol_data->get_symbols())`: what `symbols_` lacked leaves
the package. -/
def mergeSymbols (data : SymbolData) : Handler F SymbolData := do
  let world ← get
  let (symbols, rest) := world.symbols.merge data.symbols
  set { world with symbols }
  return ⟨rest⟩

/-- The second `get_json_str()` encodes the package as the merge left it. -/
def broadcastSymbols (package : Package F) (data : SymbolData) : Handler F Unit := do
  let text ← data.getJsonStr F
  WBServer.broadcast ⟨some package, text⟩

def processSymbolsPackage (package : Package F) (data : SymbolData) : Handler F Unit := do
  let _updatedSymbolsStr ← data.getJsonStr F
  let rest ← mergeSymbols data
  broadcastSymbols package rest

def processEnhanceddataPackage [Double F] (reads : Reads) (package : Package F)
    (data : EnhancedDepthData F) : Handler F Unit := do
  let text ← (data.readFrom reads).getJsonStr
  WBServer.broadcast ⟨some package, text⟩

def handleResponseMessage [Double F] (reads : Reads) (package : Package F) : Handler F Unit := do
  record (.handled package)
  match package.field with
  | .rtnDepth depth => processRtnDepthPackage package depth
  | .sDepthData depth => processSdepthPackage reads package depth
  | .symbolData data => processSymbolsPackage package data
  | .enhancedDepthData data => processEnhanceddataPackage reads package data

def requestAllSymbol : Handler F Unit := do
  let requestId ← getId
  record (.requestAllSymbol requestId)
  DataProcess.requestMessage ⟨.symbolData, requestId⟩

end FrontServer

namespace WBServer

/-- The connection is registered before its snapshot is made and sent. -/
def register (client : Client) : Handler F Unit := do
  record (.opened client)
  modify fun world => { world with wssConSet := world.wssConSet.emplace client }

def sendSnapshot (client : Client) : Handler F Unit := do
  let text ← FrontServer.getSymbolsStr
  send client ⟨none, text⟩

def onOpen (client : Client) : Handler F Unit := do
  register client
  sendSnapshot client

end WBServer

end MarketServer
