import MarketServer.FrontServer
import MarketServer.DataProcess
import MarketServer.DataReceive
import MarketServer.Library.Transition

/-! The server as one system. A run is any sequence of hub callbacks, requests
for the full list, connections opening and closing, and stations handling the
head of their own queue. Packages outlive the updates they were made of, and what
is left of the strings of an update is given with each turn. -/
namespace MarketServer
open Library

variable {F : Type} [Component F] [Double F]

inductive Event (F : Type) where
  | onDepth (depth : SDepthData F)
  | requestAllSymbol
  | receive
  /-- The memory a new `EnhancedDepthData` is built in is not the server's choice. -/
  | process (memory : EnhancedDepthData F)
  | front
  | onOpen
  | onClose (client : Client)

/-- An exception that leaves a handler is observed, and the next task finds the
state the handler left. Undefined behaviour has no successor. -/
def dispatch (handler : Handler F Unit) (world : World F) : Option (World F) :=
  match handler.run world with
  | .ok _ next => some next
  | .error (.typeError _) next => some { next with log := next.log ++ [.escaped] }
  | .error .undefined _ => none

def ReceiveTask.handler : ReceiveTask F → Handler F Unit
  | .handleDepthData depth => DataReceive.handleDepthData depth
  | .handleRequestMessage request => DataReceive.handleRequestMessage request

def ProcessTask.handler (reads : Reads) (memory : EnhancedDepthData F) :
    ProcessTask F → Handler F Unit
  | .handleResponseMessage package => DataProcess.handleResponseMessage reads memory package
  | .handleRequestMessage request => DataProcess.handleRequestMessage request

/-- A connection is opened once, under the next free number, and only an opened
connection closes. -/
def stepReading (reads : Reads) (world : World F) : Event F → Option (World F)
  | .onDepth depth => dispatch (DataReceive.onDepth depth) world
  | .requestAllSymbol => dispatch FrontServer.requestAllSymbol world
  | .receive =>
    match world.receiveService with
    | [] => none
    | task :: rest => dispatch task.handler { world with receiveService := rest }
  | .process memory =>
    match world.processService with
    | [] => none
    | task :: rest => dispatch (task.handler reads memory) { world with processService := rest }
  | .front =>
    match world.frontService with
    | [] => none
    | package :: rest =>
      dispatch (FrontServer.handleResponseMessage reads package) { world with frontService := rest }
  | .onOpen =>
    dispatch (WBServer.onOpen world.nextClient) { world with nextClient := world.nextClient + 1 }
  | .onClose client =>
    if client < world.nextClient then dispatch (WBServer.onClose client) world else none

/-- An event, with what the server finds of the strings it reads then. -/
structure Turn (F : Type) where
  reads : Reads
  event : Event F

def runTurns (world : World F) (turns : List (Turn F)) : Option (World F) :=
  Transition.run (fun world turn => stepReading turn.reads world turn.event) world turns

/-! The server while no memory is reused before the packages that point into it are
handled. -/

def step (world : World F) (event : Event F) : Option (World F) :=
  stepReading .untouched world event

def run (world : World F) (events : List (Event F)) : Option (World F) :=
  Transition.run step world events

/-- No string is read after other characters were written in its place. -/
def Untouched (turns : List (Turn F)) : Prop := ∀ turn ∈ turns, turn.reads = .untouched

theorem runTurns_untouched {turns : List (Turn F)} (h : Untouched turns) (world : World F) :
    runTurns world turns = run world (turns.map Turn.event) := by
  induction turns generalizing world with
  | nil => rfl
  | cons turn rest ih =>
    obtain ⟨reads, event⟩ := turn
    obtain ⟨rfl, hrest⟩ : reads = .untouched ∧ Untouched rest := List.forall_mem_cons.mp h
    exact Option.bind_congr fun next _ => ih hrest next

/-- Turns that find every string in place. -/
def still (events : List (Event F)) : List (Turn F) := events.map (Turn.mk .untouched)

omit [Component F] [Double F] in
theorem still_untouched (events : List (Event F)) : Untouched (still events) :=
  List.forall_mem_map.mpr fun _ _ => rfl

omit [Component F] [Double F] in
theorem map_event_still (events : List (Event F)) : (still events).map Turn.event = events := by
  rw [still, List.map_map]
  exact List.map_id' events

theorem runTurns_still (world : World F) (events : List (Event F)) :
    runTurns world (still events) = run world events := by
  rw [runTurns_untouched (still_untouched events), map_event_still]

/-- No station has anything left to handle. -/
def World.Quiescent (world : World F) : Prop :=
  world.receiveService = [] ∧ world.processService = [] ∧ world.frontService = []

instance (world : World F) : Decidable world.Quiescent :=
  decidable_of_iff (world.receiveService.isEmpty ∧ world.processService.isEmpty ∧
    world.frontService.isEmpty) (by simp only [World.Quiescent, List.isEmpty_iff])

end MarketServer
