import MarketServer.Encoding

/-! The state the three stations share through packages: their queues, their
stores, the connections and the id counter, and beside it the log of what an
observer of the whole server has seen. -/
namespace MarketServer
open Library

inductive Fid where
  | rtnDepth
  | sDepthData
  | klineData
  | enhancedDepthData
  | symbolData
  deriving DecidableEq

/-- The function that created a package. No code reads it; the log and the
queues carry it so that statements can tell packages of one kind apart. -/
inductive Creator where
  | testMain
  | handleDepthData
  | processSdepthPackage
  | processNewSymbol
  | requestSymbolData
  deriving DecidableEq

section

variable (F : Type) [Component F]

/-- The field a response package was given; its `Tid()` is the field's `Fid`. -/
inductive Field where
  | rtnDepth (depth : Component.RtnDepth F)
  | sDepthData (depth : SDepthData F)
  | enhancedDepthData (data : EnhancedDepthData F)
  | symbolData (data : SymbolData)

structure Package where
  creator : Creator
  packageId : Int32
  field : Field F

/-- A request package carries no field. -/
structure Request where
  tid : Fid
  requestId : UInt64

/-- A connection. Connections are numbered in the order they are opened, and no
number is used twice. -/
abbrev Client := Nat

/-- What a WebSocket is given to send: a broadcast names the package that caused
it, a snapshot has no cause. -/
structure Message where
  cause : Option (Package F)
  text : Text F

inductive Observation where
  | onDepth (depth : SDepthData F)
  | requestAllSymbol (requestId : UInt64)
  | created (package : Package F)
  /-- `DataProcess` answers a request while `depth_data_` has these keys. -/
  | served (requestId : UInt64) (keys : OrderedSet Bytes)
  /-- `FrontServer` starts to handle a package. -/
  | handled (package : Package F)
  | broadcast (message : Message F)
  | sent (client : Client) (message : Message F)
  /-- An exception left a handler. -/
  | escaped
  | opened (client : Client)
  | closed (client : Client)

/-- What is posted to the `io_service` of a station. -/
inductive ReceiveTask where
  | handleDepthData (depth : SDepthData F)
  | handleRequestMessage (request : Request)

inductive ProcessTask where
  | handleResponseMessage (package : Package F)
  | handleRequestMessage (request : Request)

structure World where
  receiveService : List (ReceiveTask F)
  processService : List (ProcessTask F)
  frontService : List (Package F)
  depthData : OrderedMap Bytes (EnhancedDepthData F)
  symbols : OrderedSet Bytes
  wssConSet : OrderedSet Client
  nextId : UInt64
  nextClient : Client
  log : List (Observation F)

def World.initial : World F := ⟨[], [], [], ∅, ∅, ∅, 0, 0, []⟩

/-- Code of the server: it changes the world, and the changes made before an
exception remain. -/
abbrev Handler := EStateM Failure (World F)

end

variable {F : Type} [Component F]

instance : MonadLift (Except Failure) (Handler F) where
  monadLift
    | .ok value => pure value
    | .error failure => throw failure

@[simp] theorem run_lift_ok {α : Type} (value : α) (world : World F) :
    (liftM (Except.ok value : Except Failure α) : Handler F α).run world = .ok value world := rfl

@[simp] theorem run_lift_error {α : Type} (failure : Failure) (world : World F) :
    (liftM (Except.error failure : Except Failure α) : Handler F α).run world =
      .error failure world := rfl

/-- `catch (const std::exception&)` around a body. -/
def catching (body : Handler F Unit) : Handler F Unit :=
  tryCatch body fun
    | .typeError _ => pure ()
    | .undefined => throw .undefined

theorem run_catching_ok {body : Handler F Unit} {world next : World F}
    (h : body.run world = .ok () next) : (catching body).run world = .ok () next := by
  unfold EStateM.run at h ⊢
  simp only [catching, tryCatch, tryCatchThe, MonadExceptOf.tryCatch, EStateM.tryCatch, h]

theorem run_catching_undefined {body : Handler F Unit} {world next : World F}
    (h : body.run world = .error .undefined next) :
    (catching body).run world = .error .undefined next := by
  unfold EStateM.run at h ⊢
  simp only [catching, tryCatch, tryCatchThe, MonadExceptOf.tryCatch, EStateM.tryCatch, h]
  rfl

def record (observation : Observation F) : Handler F Unit :=
  modify fun world => { world with log := world.log ++ [observation] }

@[simp] theorem run_record (observation : Observation F) (world : World F) :
    (record observation).run world =
      .ok () { world with log := world.log ++ [observation] } := rfl

/-- However the code ends, the world it leaves has the property. -/
def Handler.Keeps (P : World F → Prop) {α : Type} (handler : Handler F α) : Prop :=
  ∀ world, P world → match handler.run world with
    | .ok _ next => P next
    | .error _ next => P next

section

variable {P : World F → Prop} {α β : Type}

theorem keeps_pure (value : α) : Handler.Keeps P (pure value : Handler F α) := fun _ h => h

theorem keeps_throw (failure : Failure) : Handler.Keeps P (throw failure : Handler F α) :=
  fun _ h => h

theorem keeps_get : Handler.Keeps P (get : Handler F (World F)) := fun _ h => h

theorem keeps_modify {change : World F → World F} (h : ∀ world, P world → P (change world)) :
    Handler.Keeps P (modify change : Handler F Unit) := h

theorem keeps_lift (result : Except Failure α) :
    Handler.Keeps P (liftM result : Handler F α) := by
  intro world h
  cases result <;> exact h

theorem keeps_bind {first : Handler F α} {rest : α → Handler F β}
    (hfirst : Handler.Keeps P first) (hrest : ∀ value, Handler.Keeps P (rest value)) :
    Handler.Keeps P (first >>= rest) := by
  intro world h
  have hnext := hfirst world h
  rw [EStateM.run_bind]
  cases hrun : first.run world with
  | ok value next =>
    rw [hrun] at hnext
    exact hrest value next hnext
  | error failure next =>
    rw [hrun] at hnext
    exact hnext

theorem keeps_catching {body : Handler F Unit} (h : Handler.Keeps P body) :
    Handler.Keeps P (catching body) := by
  intro world hworld
  have hnext := h world hworld
  unfold EStateM.run at hnext ⊢
  simp only [catching, tryCatch, tryCatchThe, MonadExceptOf.tryCatch, EStateM.tryCatch]
  cases hrun : body world with
  | ok value next =>
    rw [hrun] at hnext
    exact hnext
  | error failure next =>
    rw [hrun] at hnext
    cases failure <;> exact hnext

end

/-- `ID::get_id`: the counter before it is incremented. -/
def getId : Handler F UInt64 :=
  modifyGet fun world => (world.nextId, { world with nextId := world.nextId + 1 })

@[simp] theorem run_getId (world : World F) :
    (getId (F := F)).run world = .ok world.nextId { world with nextId := world.nextId + 1 } := rfl

/-- A `long long` handed to an `int` parameter keeps its low 32 bits. -/
def narrow (id : UInt64) : Int32 := id.toUInt32.toInt32

/-- Each station posts what it is given to its own single-threaded `io_service`.
The station before `DataProcess` in the chain hands it responses, the one after
it hands it requests. -/
def DataReceive.requestMessage (request : Request) : Handler F Unit :=
  modify fun world =>
    { world with receiveService := world.receiveService ++ [.handleRequestMessage request] }

def DataProcess.requestMessage (request : Request) : Handler F Unit :=
  modify fun world =>
    { world with processService := world.processService ++ [.handleRequestMessage request] }

def DataProcess.responseMessage (package : Package F) : Handler F Unit :=
  modify fun world =>
    { world with processService := world.processService ++ [.handleResponseMessage package] }

def FrontServer.responseMessage (package : Package F) : Handler F Unit :=
  modify fun world => { world with frontService := world.frontService ++ [package] }

end MarketServer
