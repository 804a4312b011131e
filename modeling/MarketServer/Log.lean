import MarketServer.World

/-! What can be read off the log and off the queues. Every reading is a
`filterMap`, so it distributes over the pieces that single steps append. -/
namespace MarketServer
open Library

variable {F : Type} [Component F]

namespace Package

/-- The update an `EnhancedDepthData` package carries. -/
def depth? (package : Package F) : Option (SDepthData F) :=
  match package.field with
  | .enhancedDepthData data => some data.depthData
  | _ => none

def symbolData? (package : Package F) : Option SymbolData :=
  match package.field with
  | .symbolData data => some data
  | _ => none

/-- The symbols a `process_new_symbol` package carries. -/
def announced (package : Package F) : List Bytes :=
  match package.creator, package.field with
  | .processNewSymbol, .symbolData data => data.symbols.toList
  | _, _ => []

/-- The keys an answer to `request_all_symbol` lists. -/
def answered? (package : Package F) : Option (OrderedSet Bytes) :=
  match package.creator, package.field with
  | .requestSymbolData, .symbolData data => some data.symbols
  | _, _ => none

def ValidTexts (package : Package F) : Prop :=
  match package.field with
  | .rtnDepth _ => True
  | .sDepthData depth => depth.ValidTexts
  | .enhancedDepthData data => data.depthData.ValidTexts
  | .symbolData data => ∀ symbol ∈ data.symbols, symbol.ValidUtf8

theorem depth?_eq_none {package : Package F} {data : SymbolData}
    (hdata : package.symbolData? = some data) : package.depth? = none := by
  unfold symbolData? at hdata
  unfold depth?
  split <;> simp_all

end Package

namespace Message

def depth? (message : Message F) : Option (SDepthData F) := message.cause.bind Package.depth?

/-- The keys of the answer that caused a message, and the text that was sent for it. -/
def answer? (message : Message F) : Option (OrderedSet Bytes × Text F) :=
  (message.cause.bind Package.answered?).map fun keys => (keys, message.text)

end Message

@[simp] def ReceiveTask.depth? : ReceiveTask F → Option (SDepthData F)
  | .handleDepthData depth => some depth
  | .handleRequestMessage _ => none

def ProcessTask.depth? : ProcessTask F → Option (SDepthData F)
  | .handleResponseMessage ⟨_, _, .sDepthData depth⟩ => some depth
  | _ => none

@[simp] def ProcessTask.request? : ProcessTask F → Option UInt64
  | .handleRequestMessage request => some request.requestId
  | .handleResponseMessage _ => none

theorem filterMap_cons_toList {α β : Type} (f : α → Option β) (a : α) (list : List α) :
    (a :: list).filterMap f = (f a).toList ++ list.filterMap f := by
  rw [List.filterMap_cons]
  cases f a <;> rfl

namespace World

def receiveDepths (world : World F) : List (SDepthData F) :=
  world.receiveService.filterMap ReceiveTask.depth?

def processDepths (world : World F) : List (SDepthData F) :=
  world.processService.filterMap ProcessTask.depth?

def frontDepths (world : World F) : List (SDepthData F) :=
  world.frontService.filterMap Package.depth?

end World

namespace Observation

@[simp] def call? : Observation F → Option (SDepthData F)
  | .onDepth depth => some depth
  | _ => none

@[simp] def requested? : Observation F → Option UInt64
  | .requestAllSymbol requestId => some requestId
  | _ => none

@[simp] def served? : Observation F → Option (UInt64 × OrderedSet Bytes)
  | .served requestId keys => some (requestId, keys)
  | _ => none

@[simp] def created? : Observation F → Option (Package F)
  | .created package => some package
  | _ => none

@[simp] def handled? : Observation F → Option (Package F)
  | .handled package => some package
  | _ => none

@[simp] def broadcast? : Observation F → Option (Message F)
  | .broadcast message => some message
  | _ => none

@[simp] def message? (client : Client) : Observation F → Option (Message F)
  | .sent other message => if other = client then some message else none
  | _ => none

end Observation

abbrev Log (F : Type) [Component F] := List (Observation F)

namespace Log

def calls (log : Log F) : List (SDepthData F) := log.filterMap Observation.call?

def requested (log : Log F) : List UInt64 := log.filterMap Observation.requested?

def served (log : Log F) : List (UInt64 × OrderedSet Bytes) :=
  log.filterMap Observation.served?

def created (log : Log F) : List (Package F) := log.filterMap Observation.created?

def handled (log : Log F) : List (Package F) := log.filterMap Observation.handled?

def broadcasts (log : Log F) : List (Message F) := log.filterMap Observation.broadcast?

/-- All that was ever sent to a connection, oldest first. -/
def messages (client : Client) (log : Log F) : List (Message F) :=
  log.filterMap (Observation.message? client)

/-- The updates `FrontServer` has taken from its queue. -/
def handledDepths (log : Log F) : List (SDepthData F) := (handled log).filterMap Package.depth?

/-- The updates that were broadcast. -/
def published (log : Log F) : List (SDepthData F) := (broadcasts log).filterMap Message.depth?

/-! Each reading of a log is read one observation, or one piece, at a time. -/
section Pieces

variable (observation : Observation F) (first second : Log F)

@[simp] theorem calls_cons :
    calls (observation :: second) = observation.call?.toList ++ calls second :=
  filterMap_cons_toList _ observation second

@[simp] theorem requested_cons :
    requested (observation :: second) = observation.requested?.toList ++ requested second :=
  filterMap_cons_toList _ observation second

@[simp] theorem served_cons :
    served (observation :: second) = observation.served?.toList ++ served second :=
  filterMap_cons_toList _ observation second

@[simp] theorem created_cons :
    created (observation :: second) = observation.created?.toList ++ created second :=
  filterMap_cons_toList _ observation second

@[simp] theorem handled_cons :
    handled (observation :: second) = observation.handled?.toList ++ handled second :=
  filterMap_cons_toList _ observation second

@[simp] theorem broadcasts_cons :
    broadcasts (observation :: second) = observation.broadcast?.toList ++ broadcasts second :=
  filterMap_cons_toList _ observation second

@[simp] theorem messages_cons (client : Client) :
    messages client (observation :: second) =
      (observation.message? client).toList ++ messages client second :=
  filterMap_cons_toList _ observation second

@[simp] theorem handledDepths_cons :
    handledDepths (observation :: second) =
      (observation.handled?.bind Package.depth?).toList ++ handledDepths second := by
  unfold handledDepths
  rw [handled_cons]
  cases observation.handled? <;> simp [filterMap_cons_toList]

@[simp] theorem published_cons :
    published (observation :: second) =
      (observation.broadcast?.bind Message.depth?).toList ++ published second := by
  unfold published
  rw [broadcasts_cons]
  cases observation.broadcast? <;> simp [filterMap_cons_toList]

@[simp] theorem calls_append : calls (first ++ second) = calls first ++ calls second :=
  List.filterMap_append

@[simp] theorem requested_append :
    requested (first ++ second) = requested first ++ requested second :=
  List.filterMap_append

@[simp] theorem served_append : served (first ++ second) = served first ++ served second :=
  List.filterMap_append

@[simp] theorem created_append : created (first ++ second) = created first ++ created second :=
  List.filterMap_append

@[simp] theorem handled_append : handled (first ++ second) = handled first ++ handled second :=
  List.filterMap_append

@[simp] theorem broadcasts_append :
    broadcasts (first ++ second) = broadcasts first ++ broadcasts second :=
  List.filterMap_append

@[simp] theorem messages_append (client : Client) :
    messages client (first ++ second) = messages client first ++ messages client second :=
  List.filterMap_append

@[simp] theorem handledDepths_append :
    handledDepths (first ++ second) = handledDepths first ++ handledDepths second := by
  simp [handledDepths]

@[simp] theorem published_append :
    published (first ++ second) = published first ++ published second := by
  simp [published]

end Pieces

@[simp] theorem calls_nil : calls ([] : Log F) = [] := rfl

@[simp] theorem requested_nil : requested ([] : Log F) = [] := rfl

@[simp] theorem served_nil : served ([] : Log F) = [] := rfl

@[simp] theorem created_nil : created ([] : Log F) = [] := rfl

@[simp] theorem handled_nil : handled ([] : Log F) = [] := rfl

@[simp] theorem broadcasts_nil : broadcasts ([] : Log F) = [] := rfl

@[simp] theorem messages_nil (client : Client) : messages client ([] : Log F) = [] := rfl

@[simp] theorem handledDepths_nil : handledDepths ([] : Log F) = [] := rfl

@[simp] theorem published_nil : published ([] : Log F) = [] := rfl

end Log

/-- What a broadcast leaves in the log. -/
def broadcastLog (message : Message F) (clients : OrderedSet Client) : Log F :=
  .broadcast message :: clients.toList.map (.sent · message)

namespace Log

variable (message : Message F) (clients : OrderedSet Client)

/-- Sends alone show only in what the connections received. -/
theorem filterMap_sent {β : Type} {f : Observation F → Option β}
    (hf : ∀ client, f (.sent client message) = none) :
    (clients.toList.map (.sent · message)).filterMap f = [] := by
  rw [List.filterMap_map, List.filterMap_eq_nil_iff]
  intro client _
  exact hf client

@[simp] theorem calls_broadcastLog : calls (broadcastLog message clients) = [] :=
  filterMap_sent message clients fun _ => rfl

@[simp] theorem requested_broadcastLog : requested (broadcastLog message clients) = [] :=
  filterMap_sent message clients fun _ => rfl

@[simp] theorem served_broadcastLog : served (broadcastLog message clients) = [] :=
  filterMap_sent message clients fun _ => rfl

@[simp] theorem created_broadcastLog : created (broadcastLog message clients) = [] :=
  filterMap_sent message clients fun _ => rfl

@[simp] theorem handled_broadcastLog : handled (broadcastLog message clients) = [] :=
  filterMap_sent message clients fun _ => rfl

@[simp] theorem broadcasts_broadcastLog :
    broadcasts (broadcastLog message clients) = [message] := by
  change message :: _ = _
  rw [filterMap_sent message clients fun _ => rfl]

@[simp] theorem handledDepths_broadcastLog : handledDepths (broadcastLog message clients) = [] := by
  simp [handledDepths]

@[simp] theorem published_broadcastLog :
    published (broadcastLog message clients) = message.depth?.toList := by
  simp [published, filterMap_cons_toList]

/-- A broadcast reaches each registered connection once and nobody else. -/
@[simp] theorem messages_broadcastLog (client : Client) :
    messages client (broadcastLog message clients) =
      if client ∈ clients then [message] else [] := by
  unfold messages broadcastLog
  rw [List.filterMap_cons, List.filterMap_map]
  exact clients.filterMap_ite client message

end Log

end MarketServer
