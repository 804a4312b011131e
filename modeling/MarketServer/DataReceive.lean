import MarketServer.Tools

/-! The first station: the hub calls it back with every depth update. -/
namespace MarketServer.DataReceive

variable {F : Type} [Component F]

/-- `deliver_response`: `DataProcess` was constructed with this station as its next. -/
def deliverResponse (package : Package F) : Handler F Unit :=
  DataProcess.responseMessage package

/-- The update is copied into the posted task. The two names the hub passes
beside it are never read. -/
def onDepth (depth : SDepthData F) : Handler F Unit := do
  record (.onDepth depth)
  modify fun world =>
    { world with receiveService := world.receiveService ++ [.handleDepthData depth] }

/-- The last use of the update: its task is destroyed when this returns, the package
made of it is not. -/
def handleDepthData (depth : SDepthData F) : Handler F Unit := do
  let id ← getId
  let package ← getNewSDepthDataPackage depth (narrow id)
  deliverResponse package

def handleRequestMessage (_request : Request) : Handler F Unit := pure ()

end MarketServer.DataReceive
