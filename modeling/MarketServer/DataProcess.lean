import MarketServer.Tools

/-! The middle station: it remembers every symbol it has seen, announces new
ones and turns raw updates into enhanced ones. -/
namespace MarketServer.DataProcess
open Library

variable {F : Type} [Component F]

/-- `deliver_response`: `FrontServer` was constructed with this station as its next. -/
def deliverResponse (package : Package F) : Handler F Unit :=
  FrontServer.responseMessage package

@[simp] theorem run_deliverResponse (package : Package F) (world : World F) :
    (deliverResponse package).run world =
      .ok () { world with frontService := world.frontService ++ [package] } := rfl

def deliverRequest (request : Request) : Handler F Unit :=
  DataReceive.requestMessage request

def processNewSymbol (symbol : Bytes) : Handler F Unit := do
  let id ← getId
  let packageNew ← getNewSymbolDataPackage .processNewSymbol (.singleton symbol) (narrow id)
  deliverResponse packageNew

/-- The answer to a request carries the constant id 0. -/
def requestSymbolData : Handler F Unit := do
  let world ← get
  let symbols := OrderedSet.ofList (world.depthData.entries.map Prod.fst)
  let packageNew ← getNewSymbolDataPackage .requestSymbolData symbols 0
  deliverResponse packageNew

def handleRequestMessage (request : Request) : Handler F Unit :=
  match request.tid with
  | .symbolData => do
    record (.served request.requestId (← get).depthData.keys)
    requestSymbolData
  | _ => deliverRequest request

variable [Double F]

/-- `GET_NON_CONST_FIELD(package, EnhancedDepthData)`, dereferenced. -/
def enhancedDepthDataOf (package : Package F) : Handler F (EnhancedDepthData F) :=
  match package.field with
  | .enhancedDepthData data => pure data
  | _ => throw .undefined

/-- The symbol is read three times, each time from where the string points. -/
def processSdepthPackage (reads : Reads) (memory : EnhancedDepthData F) (package : Package F) :
    Handler F Unit :=
  catching do
    match package.field with
    | .sDepthData depth =>
      let packageNew ← getNewEnhancedDepthDataPackage memory depth package.packageId
      let data ← enhancedDepthDataOf packageNew
      let symbol := data.depthData.symbol
      if ((← get).depthData.find (symbol.readFrom reads.found)).isNone then
        modify fun world =>
          { world with depthData := world.depthData.assign (symbol.readFrom reads.stored) data }
        processNewSymbol (symbol.readFrom reads.announced)
      deliverResponse packageNew
    | _ => pure ()

def handleResponseMessage (reads : Reads) (memory : EnhancedDepthData F) (package : Package F) :
    Handler F Unit :=
  match package.field with
  | .sDepthData _ => processSdepthPackage reads memory package
  | _ => deliverResponse package

end MarketServer.DataProcess
