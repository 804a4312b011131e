import MarketServer.Pipeline
import MarketServer.Log

/-! What a step can do, said once. `Shaped` is what the queues hold in every
run, and under it `Outcome` lists the effects a step can have. Everything later
argues about `Outcome` and never unfolds a handler. -/
namespace MarketServer
open Library

variable {F : Type} [Component F]

/-- The packages the stations create. -/
def depthPackage (packageId : Int32) (depth : SDepthData F) : Package F :=
  ⟨.handleDepthData, packageId, .sDepthData depth⟩

def enhancedPackage (packageId : Int32) (data : EnhancedDepthData F) : Package F :=
  ⟨.processSdepthPackage, packageId, .enhancedDepthData data⟩

def announcement (F : Type) [Component F] (packageId : Int32) (symbol : Bytes) : Package F :=
  ⟨.processNewSymbol, packageId, .symbolData ⟨.singleton symbol⟩⟩

def answer (F : Type) [Component F] (keys : OrderedSet Bytes) : Package F :=
  ⟨.requestSymbolData, 0, .symbolData ⟨keys⟩⟩

@[simp] theorem depth?_response (packageId : Int32) (depth : SDepthData F) :
    ProcessTask.depth? (.handleResponseMessage (depthPackage packageId depth)) = some depth := rfl

@[simp] theorem depth?_request (request : Request) :
    ProcessTask.depth? (F := F) (.handleRequestMessage request) = none := rfl

@[simp] theorem depth?_enhancedPackage (packageId : Int32) (data : EnhancedDepthData F) :
    (enhancedPackage packageId data).depth? = some data.depthData := rfl

@[simp] theorem depth?_announcement (packageId : Int32) (symbol : Bytes) :
    (announcement F packageId symbol).depth? = none := rfl

@[simp] theorem depth?_answer (keys : OrderedSet Bytes) : (answer F keys).depth? = none := rfl

@[simp] theorem symbolData?_enhancedPackage (packageId : Int32) (data : EnhancedDepthData F) :
    (enhancedPackage packageId data).symbolData? = none := rfl

@[simp] theorem symbolData?_announcement (packageId : Int32) (symbol : Bytes) :
    (announcement F packageId symbol).symbolData? = some ⟨.singleton symbol⟩ := rfl

@[simp] theorem symbolData?_answer (keys : OrderedSet Bytes) :
    (answer F keys).symbolData? = some ⟨keys⟩ := rfl

variable [Double F]

inductive FrontPackage : Package F → Prop where
  | enhanced (packageId : Int32) {data : EnhancedDepthData F} {depth : SDepthData F}
      (hdata : data.Holds depth) : FrontPackage (enhancedPackage packageId data)
  | announcement (packageId : Int32) (symbol : Bytes) :
      FrontPackage (announcement F packageId symbol)
  | answer (keys : OrderedSet Bytes) : FrontPackage (answer F keys)

theorem FrontPackage.eq_enhanced {package : Package F} {depth : SDepthData F}
    (h : FrontPackage package) (hdepth : package.depth? = some depth) :
    ∃ packageId data, package = enhancedPackage packageId data ∧ data.Holds depth := by
  cases h with
  | enhanced packageId hdata =>
    cases hdepth
    rw [← hdata.stored] at hdata
    exact ⟨packageId, _, rfl, hdata⟩
  | announcement => cases hdepth
  | answer => cases hdepth

theorem FrontPackage.symbols_cases {package : Package F} {data : SymbolData}
    (h : FrontPackage package) (hdata : package.symbolData? = some data) :
    (∃ packageId symbol, package = MarketServer.announcement F packageId symbol ∧
        data = ⟨.singleton symbol⟩) ∨
      ∃ keys, package = MarketServer.answer F keys ∧ data = ⟨keys⟩ := by
  cases h with
  | enhanced => cases hdata
  | announcement packageId symbol =>
    cases hdata
    exact .inl ⟨packageId, symbol, rfl, rfl⟩
  | answer keys =>
    cases hdata
    exact .inr ⟨keys, rfl, rfl⟩

inductive ProcessShape : ProcessTask F → Prop where
  | response (packageId : Int32) (depth : SDepthData F) :
      ProcessShape (.handleResponseMessage (depthPackage packageId depth))
  | request (requestId : UInt64) : ProcessShape (.handleRequestMessage ⟨.symbolData, requestId⟩)

inductive ReceiveShape : ReceiveTask F → Prop where
  | depth (depth : SDepthData F) : ReceiveShape (.handleDepthData depth)

structure Shaped (world : World F) : Prop where
  receive : ∀ task ∈ world.receiveService, ReceiveShape task
  process : ∀ task ∈ world.processService, ProcessShape task
  front : ∀ package ∈ world.frontService, FrontPackage package

theorem shaped_initial : Shaped (World.initial F) :=
  ⟨fun _ h => absurd h List.not_mem_nil, fun _ h => absurd h List.not_mem_nil,
    fun _ h => absurd h List.not_mem_nil⟩

inductive Outcome (world : World F) : Event F → World F → Prop where
  | onDepth (depth : SDepthData F) :
      Outcome world (.onDepth depth)
        { world with
          receiveService := world.receiveService ++ [.handleDepthData depth]
          log := world.log ++ [.onDepth depth] }
  | requestAllSymbol :
      Outcome world .requestAllSymbol
        { world with
          nextId := world.nextId + 1
          processService :=
            world.processService ++ [.handleRequestMessage ⟨.symbolData, world.nextId⟩]
          log := world.log ++ [.requestAllSymbol world.nextId] }
  | receive {depth : SDepthData F} {rest : List (ReceiveTask F)}
      (hqueue : world.receiveService = .handleDepthData depth :: rest) :
      Outcome world .receive
        { world with
          receiveService := rest
          nextId := world.nextId + 1
          processService := world.processService ++
            [.handleResponseMessage (depthPackage (narrow world.nextId) depth)]
          log := world.log ++ [.created (depthPackage (narrow world.nextId) depth)] }
  /-- The symbol of the update is known: nothing is stored. -/
  | known {memory : EnhancedDepthData F} {packageId : Int32} {depth : SDepthData F}
      {rest : List (ProcessTask F)} {data : EnhancedDepthData F}
      (hqueue : world.processService =
        .handleResponseMessage (depthPackage packageId depth) :: rest)
      (hdata : data.Holds depth) (hknown : depth.symbol ∈ world.depthData.keys) :
      Outcome world (.process memory)
        { world with
          processService := rest
          frontService := world.frontService ++ [enhancedPackage packageId data]
          log := world.log ++ [.created (enhancedPackage packageId data)] }
  /-- The symbol of the update is new: it is stored and announced first. -/
  | new {memory : EnhancedDepthData F} {packageId : Int32} {depth : SDepthData F}
      {rest : List (ProcessTask F)} {data : EnhancedDepthData F}
      (hqueue : world.processService =
        .handleResponseMessage (depthPackage packageId depth) :: rest)
      (hdata : data.Holds depth) (hnew : depth.symbol ∉ world.depthData.keys) :
      Outcome world (.process memory)
        { world with
          processService := rest
          depthData := world.depthData.assign depth.symbol data
          nextId := world.nextId + 1
          frontService := world.frontService ++
            [announcement F (narrow world.nextId) depth.symbol, enhancedPackage packageId data]
          log := world.log ++ [.created (enhancedPackage packageId data),
            .created (announcement F (narrow world.nextId) depth.symbol)] }
  | serve {memory : EnhancedDepthData F} {requestId : UInt64} {rest : List (ProcessTask F)}
      (hqueue : world.processService =
        .handleRequestMessage ⟨.symbolData, requestId⟩ :: rest) :
      Outcome world (.process memory)
        { world with
          processService := rest
          frontService := world.frontService ++ [answer F world.depthData.keys]
          log := world.log ++ [.served requestId world.depthData.keys,
            .created (answer F world.depthData.keys)] }
  | publish {package : Package F} {rest : List (Package F)} {depth : SDepthData F} {text : Text F}
      (hqueue : world.frontService = package :: rest) (hdepth : package.depth? = some depth)
      (hpackage : FrontPackage package) (htext : EnhancedDepthData.encode depth = .ok text) :
      Outcome world .front
        { world with
          frontService := rest
          log := world.log ++
            .handled package :: broadcastLog ⟨some package, text⟩ world.wssConSet }
  /-- The message lists what the merge left in the package. -/
  | merge {package : Package F} {rest : List (Package F)} {data : SymbolData} {text : Text F}
      (hqueue : world.frontService = package :: rest) (hdata : package.symbolData? = some data)
      (hpackage : FrontPackage package) (hvalid : package.ValidTexts)
      (htext : (listDocument F "symbols" (world.symbols.merge data.symbols).2).dump = .ok text) :
      Outcome world .front
        { world with
          frontService := rest
          symbols := (world.symbols.merge data.symbols).1
          log := world.log ++
            .handled package :: broadcastLog ⟨some package, text⟩ world.wssConSet }
  | fail {package : Package F} {rest : List (Package F)}
      (hqueue : world.frontService = package :: rest) (hpackage : FrontPackage package)
      (hinvalid : ¬ package.ValidTexts) :
      Outcome world .front
        { world with
          frontService := rest
          log := world.log ++ [.handled package, .escaped] }
  | onOpen {text : Text F} (htext : (listDocument F "symbol" world.symbols).dump = .ok text) :
      Outcome world .onOpen
        { world with
          nextClient := world.nextClient + 1
          wssConSet := world.wssConSet.emplace world.nextClient
          log := world.log ++ [.opened world.nextClient,
            .sent world.nextClient ⟨none, text⟩] }
  | failOpen (hinvalid : ¬ ∀ symbol ∈ world.symbols, symbol.ValidUtf8) :
      Outcome world .onOpen
        { world with
          nextClient := world.nextClient + 1
          wssConSet := world.wssConSet.emplace world.nextClient
          log := world.log ++ [.opened world.nextClient, .escaped] }
  | onClose {client : Client} (hclient : client < world.nextClient) :
      Outcome world (.onClose client)
        { world with
          wssConSet := world.wssConSet.erase client
          log := world.log ++ [.closed client] }

/-! One lemma for each handler. -/

omit [Double F] in
@[simp] theorem run_send (client : Client) (message : Message F) (world : World F) :
    (WBServer.send client message).run world =
      .ok () { world with log := world.log ++ [.sent client message] } := rfl

omit [Double F] in
theorem run_sends (message : Message F) (clients : List Client) (world : World F) :
    (forM clients fun client => WBServer.send client message : Handler F Unit).run world =
      .ok () { world with log := world.log ++ clients.map (.sent · message) } := by
  induction clients generalizing world with
  | nil => simp
  | cons client rest ih => simp [ih]

omit [Double F] in
theorem run_broadcast (message : Message F) (world : World F) :
    (WBServer.broadcast message).run world =
      .ok () { world with log := world.log ++ broadcastLog message world.wssConSet } := by
  simp [WBServer.broadcast, run_sends, broadcastLog]

omit [Double F] in
/-- The encoders of `FrontServer` run before the broadcast; nothing is sent when
one of them fails. -/
theorem run_encode_broadcast (encoded : Except Failure (Text F)) (package : Package F)
    (world : World F) :
    (do let text ← encoded; WBServer.broadcast ⟨some package, text⟩ : Handler F Unit).run world =
      match encoded with
      | .ok text => .ok () { world with
          log := world.log ++ broadcastLog ⟨some package, text⟩ world.wssConSet }
      | .error failure => .error failure world := by
  cases encoded with
  | ok text => simp [run_broadcast]
  | error failure => simp

omit [Double F] in
theorem run_mergeSymbols (data : SymbolData) (world : World F) :
    (FrontServer.mergeSymbols data).run world =
      .ok ⟨(world.symbols.merge data.symbols).2⟩
        { world with symbols := (world.symbols.merge data.symbols).1 } := rfl

omit [Double F] in
theorem run_broadcastSymbols (package : Package F) {data : SymbolData} {text : Text F}
    (htext : (listDocument F "symbols" data.symbols).dump = .ok text) (world : World F) :
    (FrontServer.broadcastSymbols package data).run world =
      .ok () { world with
        log := world.log ++ broadcastLog ⟨some package, text⟩ world.wssConSet } := by
  have hencoded : data.getJsonStr F = .ok text := by rw [SymbolData.getJsonStr_eq, htext]
  have hrun := run_encode_broadcast (data.getJsonStr F) package world
  rw [hencoded] at hrun
  unfold FrontServer.broadcastSymbols
  rw [hencoded]
  exact hrun

omit [Double F] in
/-- The first encoding already fails on a bad symbol, before anything changed. -/
theorem run_processSymbolsPackage_invalid (package : Package F) {data : SymbolData}
    (hinvalid : ¬ ∀ symbol ∈ data.symbols, symbol.ValidUtf8) (world : World F) :
    (FrontServer.processSymbolsPackage package data).run world =
      .error (.typeError 316) world := by
  unfold FrontServer.processSymbolsPackage
  rw [SymbolData.getJsonStr_eq, listDocument_dump_error hinvalid]
  simp

omit [Double F] in
/-- What is left after the merge is part of what the first encoding accepted. -/
theorem run_processSymbolsPackage_valid (package : Package F) {data : SymbolData}
    (hvalid : ∀ symbol ∈ data.symbols, symbol.ValidUtf8) (world : World F) :
    ∃ text, (listDocument F "symbols" (world.symbols.merge data.symbols).2).dump = .ok text ∧
      (FrontServer.processSymbolsPackage package data).run world =
        .ok () { world with
          symbols := (world.symbols.merge data.symbols).1
          log := world.log ++ broadcastLog ⟨some package, text⟩ world.wssConSet } := by
  obtain ⟨first, hfirst⟩ := listDocument_dump_ok (F := F) "symbols" hvalid
  have hrest : ∀ symbol ∈ (world.symbols.merge data.symbols).2, symbol.ValidUtf8 :=
    fun symbol h => hvalid symbol (OrderedSet.mem_merge_snd.mp h).1
  obtain ⟨text, htext⟩ := listDocument_dump_ok (F := F) "symbols" hrest
  refine ⟨text, htext, ?_⟩
  unfold FrontServer.processSymbolsPackage
  rw [SymbolData.getJsonStr_eq, hfirst]
  simp only [EStateM.run_bind, run_lift_ok, run_mergeSymbols]
  exact run_broadcastSymbols package htext _

theorem run_processEnhanceddataPackage (package : Package F) {data : EnhancedDepthData F}
    {depth : SDepthData F} (hdata : data.Holds depth) (world : World F) :
    (FrontServer.processEnhanceddataPackage .untouched package data).run world =
      match EnhancedDepthData.encode depth with
      | .ok text => .ok () { world with
          log := world.log ++ broadcastLog ⟨some package, text⟩ world.wssConSet }
      | .error failure => .error failure world := by
  unfold FrontServer.processEnhanceddataPackage
  rw [data.readFrom_untouched, hdata.getJsonStr_eq]
  exact run_encode_broadcast (EnhancedDepthData.encode depth) package world

theorem run_processSdepthPackage (reads : Reads) (memory : EnhancedDepthData F)
    (packageId : Int32) {depth : SDepthData F} {data : EnhancedDepthData F}
    (hinit : memory.init depth = .ok data) (world : World F) :
    (DataProcess.processSdepthPackage reads memory (depthPackage packageId depth)).run world =
      .ok () (if depth.symbol.readFrom reads.found ∈ world.depthData.keys then
        { world with
          frontService := world.frontService ++ [enhancedPackage packageId data]
          log := world.log ++ [.created (enhancedPackage packageId data)] }
      else
        { world with
          depthData := world.depthData.assign (depth.symbol.readFrom reads.stored) data
          nextId := world.nextId + 1
          frontService := world.frontService ++
            [announcement F (narrow world.nextId) (depth.symbol.readFrom reads.announced),
              enhancedPackage packageId data]
          log := world.log ++ [.created (enhancedPackage packageId data), .created
            (announcement F (narrow world.nextId) (depth.symbol.readFrom reads.announced))] }) := by
  have hstored : data.depthData.symbol = depth.symbol := by
    rw [(EnhancedDepthData.holds_of_init hinit).stored]
  apply run_catching_ok
  by_cases hknown : depth.symbol.readFrom reads.found ∈ world.depthData.keys
  · simp [depthPackage, enhancedPackage, getNewEnhancedDepthDataPackage, hinit,
      DataProcess.enhancedDepthDataOf, hstored, OrderedMap.find_eq_none_iff, hknown]
  · simp [depthPackage, enhancedPackage, announcement, getNewEnhancedDepthDataPackage, hinit,
      DataProcess.enhancedDepthDataOf, hstored, OrderedMap.find_eq_none_iff, hknown,
      DataProcess.processNewSymbol, getNewSymbolDataPackage]

/-- While the strings are in place, all three reads give the symbol of the update. -/
theorem run_processSdepthPackage_untouched (memory : EnhancedDepthData F) (packageId : Int32)
    {depth : SDepthData F} {data : EnhancedDepthData F} (hinit : memory.init depth = .ok data)
    (world : World F) :
    (DataProcess.processSdepthPackage .untouched memory (depthPackage packageId depth)).run world =
      .ok () (if depth.symbol ∈ world.depthData.keys then
        { world with
          frontService := world.frontService ++ [enhancedPackage packageId data]
          log := world.log ++ [.created (enhancedPackage packageId data)] }
      else
        { world with
          depthData := world.depthData.assign depth.symbol data
          nextId := world.nextId + 1
          frontService := world.frontService ++
            [announcement F (narrow world.nextId) depth.symbol, enhancedPackage packageId data]
          log := world.log ++ [.created (enhancedPackage packageId data),
            .created (announcement F (narrow world.nextId) depth.symbol)] }) :=
  run_processSdepthPackage .untouched memory packageId hinit world

theorem run_processSdepthPackage_undefined (reads : Reads) (memory : EnhancedDepthData F)
    (packageId : Int32) {depth : SDepthData F} (hbounds : ¬ depth.InBounds) (world : World F) :
    (DataProcess.processSdepthPackage reads memory (depthPackage packageId depth)).run world =
      .error .undefined world := by
  apply run_catching_undefined
  simp [depthPackage, getNewEnhancedDepthDataPackage, memory.init_undefined hbounds]

omit [Double F] in
theorem ofList_keys {ν : Type} (map : OrderedMap Bytes ν) :
    OrderedSet.ofList (map.entries.map Prod.fst) = map.keys := by
  ext symbol
  exact OrderedSet.mem_ofList

omit [Double F] in
theorem run_handleRequestMessage (requestId : UInt64) (world : World F) :
    (DataProcess.handleRequestMessage ⟨.symbolData, requestId⟩).run world =
      .ok () { world with
        frontService := world.frontService ++ [answer F world.depthData.keys]
        log := world.log ++ [.served requestId world.depthData.keys,
          .created (answer F world.depthData.keys)] } := by
  simp [DataProcess.handleRequestMessage, DataProcess.requestSymbolData, getNewSymbolDataPackage,
    ofList_keys, answer]

omit [Double F] in
theorem run_onOpen (client : Client) (world : World F) :
    (WBServer.onOpen client).run world =
      match (listDocument F "symbol" world.symbols).dump with
      | .ok text => .ok () { world with
          wssConSet := world.wssConSet.emplace client
          log := world.log ++ [.opened client, .sent client ⟨none, text⟩] }
      | .error failure => .error failure { world with
          wssConSet := world.wssConSet.emplace client
          log := world.log ++ [.opened client] } := by
  unfold WBServer.onOpen WBServer.register WBServer.sendSnapshot FrontServer.getSymbolsStr
  simp only [EStateM.run_bind, run_record, EStateM.run_modify, EStateM.run_get,
    symbolsToJsonStr_eq]
  cases (listDocument F "symbol" world.symbols).dump with
  | ok text => simp
  | error failure => simp

omit [Double F] in
theorem run_onClose (client : Client) (world : World F) :
    (WBServer.onClose client).run world =
      .ok () { world with
        wssConSet := world.wssConSet.erase client
        log := world.log ++ [.closed client] } := by
  unfold WBServer.onClose
  simp only [EStateM.run_bind, run_record, EStateM.run_modify]
  split
  · rfl
  · rename_i habsent
    have herase : world.wssConSet.erase client = world.wssConSet := by
      ext other
      simp only [OrderedSet.mem_erase, and_iff_left_iff_imp]
      exact fun hother heq => habsent (heq ▸ hother)
    rw [herase]

/-! The step as a whole. -/

theorem symbols_outcome {world next : World F} {package : Package F} {rest : List (Package F)}
    {data : SymbolData} (hqueue : world.frontService = package :: rest)
    (hpackage : FrontPackage package) (hfield : package.field = .symbolData data)
    (h : dispatch (FrontServer.handleResponseMessage .untouched package)
      { world with frontService := rest } = some next) :
    Outcome world .front next := by
  have hdata : package.symbolData? = some data := by simp [Package.symbolData?, hfield]
  have hiff : package.ValidTexts ↔ ∀ symbol ∈ data.symbols, symbol.ValidUtf8 := by
    simp [Package.ValidTexts, hfield]
  unfold dispatch FrontServer.handleResponseMessage at h
  simp only [EStateM.run_bind, run_record, hfield] at h
  by_cases hvalid : ∀ symbol ∈ data.symbols, symbol.ValidUtf8
  · obtain ⟨text, htext, hrun⟩ := run_processSymbolsPackage_valid package hvalid
      { world with frontService := rest, log := world.log ++ [.handled package] }
    rw [hrun] at h
    cases h
    simpa using Outcome.merge hqueue hdata hpackage (hiff.mpr hvalid) htext
  · rw [run_processSymbolsPackage_invalid package hvalid] at h
    cases h
    simpa using Outcome.fail hqueue hpackage (mt hiff.mp hvalid)

theorem front_outcome {world next : World F} {package : Package F} {rest : List (Package F)}
    (hqueue : world.frontService = package :: rest) (hpackage : FrontPackage package)
    (h : dispatch (FrontServer.handleResponseMessage .untouched package)
      { world with frontService := rest } = some next) :
    Outcome world .front next := by
  cases hpackage with
  | @enhanced packageId data depth hdata =>
    have hpackage : FrontPackage (enhancedPackage packageId data) := .enhanced packageId hdata
    have hdepth : (enhancedPackage packageId data).depth? = some depth := by
      rw [← hdata.stored]
      rfl
    unfold dispatch FrontServer.handleResponseMessage at h
    simp only [EStateM.run_bind, run_record, enhancedPackage,
      run_processEnhanceddataPackage _ hdata] at h
    by_cases hvalid : depth.ValidTexts
    · obtain ⟨text, htext⟩ := Json.dump_ok_of_valid
        (EnhancedDepthData.document_built depth) (EnhancedDepthData.document_valid_iff.mpr hvalid)
      rw [show EnhancedDepthData.encode depth = .ok text from htext] at h
      cases h
      have houtcome := Outcome.publish hqueue hdepth hpackage htext
      simpa [enhancedPackage] using houtcome
    · have hinvalid : ¬ (enhancedPackage packageId data).ValidTexts := by
        change ¬ data.depthData.ValidTexts
        rwa [hdata.stored]
      rw [show EnhancedDepthData.encode depth = .error (.typeError 316) from
        Json.dump_of_invalid (EnhancedDepthData.document_built depth)
          (mt EnhancedDepthData.document_valid_iff.mp hvalid)] at h
      cases h
      simpa [enhancedPackage] using Outcome.fail hqueue hpackage hinvalid
  | announcement packageId symbol =>
    exact symbols_outcome hqueue (.announcement packageId symbol) rfl h
  | answer keys => exact symbols_outcome hqueue (.answer keys) rfl h

theorem response_outcome {world next : World F} {memory : EnhancedDepthData F}
    {packageId : Int32} {depth : SDepthData F} {rest : List (ProcessTask F)}
    (hqueue : world.processService =
      .handleResponseMessage (depthPackage packageId depth) :: rest)
    (h : dispatch (DataProcess.processSdepthPackage .untouched memory (depthPackage packageId depth))
      { world with processService := rest } = some next) :
    Outcome world (.process memory) next := by
  unfold dispatch at h
  by_cases hbounds : depth.InBounds
  · obtain ⟨data, hinit, hdata⟩ := memory.init_ok hbounds
    rw [run_processSdepthPackage_untouched memory packageId hinit] at h
    cases h
    dsimp only
    split
    · rename_i hknown
      exact Outcome.known hqueue hdata hknown
    · rename_i hnew
      exact Outcome.new hqueue hdata hnew
  · rw [run_processSdepthPackage_undefined .untouched memory packageId hbounds] at h
    cases h

theorem step_outcome {world next : World F} {event : Event F} (hshaped : Shaped world)
    (h : step world event = some next) : Outcome world event next := by
  cases event with
  | onDepth depth =>
    cases h
    exact .onDepth depth
  | requestAllSymbol =>
    cases h
    exact .requestAllSymbol
  | receive =>
    simp only [step, stepReading] at h
    split at h
    · cases h
    · rename_i task rest hqueue
      cases hshaped.receive task (hqueue ▸ List.mem_cons_self) with
      | depth depth =>
        cases h
        exact .receive hqueue
  | process memory =>
    simp only [step, stepReading] at h
    split at h
    · cases h
    · rename_i task rest hqueue
      cases hshaped.process task (hqueue ▸ List.mem_cons_self) with
      | response packageId depth => exact response_outcome hqueue h
      | request requestId =>
        unfold dispatch ProcessTask.handler at h
        simp only [run_handleRequestMessage] at h
        cases h
        exact .serve hqueue
  | front =>
    simp only [step, stepReading] at h
    split at h
    · cases h
    · rename_i package rest hqueue
      exact front_outcome hqueue (hshaped.front package (hqueue ▸ List.mem_cons_self)) h
  | onOpen =>
    unfold step stepReading dispatch at h
    rw [run_onOpen] at h
    by_cases hvalid : ∀ symbol ∈ world.symbols, symbol.ValidUtf8
    · obtain ⟨text, htext⟩ := listDocument_dump_ok (F := F) "symbol" hvalid
      rw [htext] at h
      cases h
      exact .onOpen htext
    · rw [listDocument_dump_error hvalid] at h
      cases h
      simpa using Outcome.failOpen hvalid
  | onClose client =>
    simp only [step, stepReading] at h
    split at h
    · rename_i hclient
      unfold dispatch at h
      rw [run_onClose] at h
      cases h
      exact .onClose hclient
    · cases h

theorem Outcome.shaped {world next : World F} {event : Event F} (hshaped : Shaped world)
    (h : Outcome world event next) : Shaped next := by
  obtain ⟨hreceive, hprocess, hfront⟩ := hshaped
  have htail : ∀ {α : Type} {P : α → Prop} {queue rest : List α} {head : α},
      (∀ task ∈ queue, P task) → queue = head :: rest → ∀ task ∈ rest, P task :=
    fun hall hqueue task htask => hall task (hqueue ▸ List.mem_cons_of_mem _ htask)
  cases h with
  | onDepth depth =>
    exact ⟨List.forall_mem_append.mpr ⟨hreceive, by simpa using .depth depth⟩, hprocess, hfront⟩
  | requestAllSymbol =>
    exact ⟨hreceive, List.forall_mem_append.mpr ⟨hprocess, by simpa using .request _⟩, hfront⟩
  | receive hqueue =>
    exact ⟨htail hreceive hqueue,
      List.forall_mem_append.mpr ⟨hprocess, by simpa using .response _ _⟩, hfront⟩
  | known hqueue hdata hknown =>
    exact ⟨hreceive, htail hprocess hqueue,
      List.forall_mem_append.mpr ⟨hfront, by simpa using .enhanced _ hdata⟩⟩
  | new hqueue hdata hnew =>
    refine ⟨hreceive, htail hprocess hqueue, List.forall_mem_append.mpr ⟨hfront, ?_⟩⟩
    simpa using ⟨.announcement _ _, .enhanced _ hdata⟩
  | serve hqueue =>
    exact ⟨hreceive, htail hprocess hqueue,
      List.forall_mem_append.mpr ⟨hfront, by simpa using .answer _⟩⟩
  | publish hqueue => exact ⟨hreceive, hprocess, htail hfront hqueue⟩
  | merge hqueue => exact ⟨hreceive, hprocess, htail hfront hqueue⟩
  | fail hqueue => exact ⟨hreceive, hprocess, htail hfront hqueue⟩
  | onOpen => exact ⟨hreceive, hprocess, hfront⟩
  | failOpen => exact ⟨hreceive, hprocess, hfront⟩
  | onClose => exact ⟨hreceive, hprocess, hfront⟩

/-- An invariant of runs is a property of the initial world that every outcome
of an allowed event keeps. -/
theorem run_invariant {P : World F → Prop} (allowed : Event F → Prop)
    (hinitial : P (World.initial F))
    (hstep : ∀ {world next : World F} {event : Event F}, allowed event → Shaped world →
      P world → Outcome world event next → P next)
    {events : List (Event F)} {world : World F} (hallowed : ∀ event ∈ events, allowed event)
    (hrun : run (World.initial F) events = some world) : P world := by
  have hboth : Shaped world ∧ P world := by
    refine Transition.run_invariant (P := fun world => Shaped world ∧ P world) allowed
      (fun {state label next} hlabel hstate hnext => ?_) hallowed
      ⟨shaped_initial, hinitial⟩ hrun
    have houtcome := step_outcome hstate.1 hnext
    exact ⟨houtcome.shaped hstate.1, hstep hlabel hstate.1 hstate.2 houtcome⟩
  exact hboth.2

theorem run_shaped {events : List (Event F)} {world : World F}
    (hrun : run (World.initial F) events = some world) : Shaped world :=
  run_invariant (P := Shaped) (fun _ => True) shaped_initial
    (fun _ hshaped _ houtcome => houtcome.shaped hshaped) (fun _ _ => trivial) hrun

end MarketServer
