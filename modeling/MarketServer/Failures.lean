import MarketServer.Requests
import MarketServer.Exact

/-! What exceptions can do. The encoder refuses a text that is not UTF-8; a
symbol update it refuses changes nothing, so the snapshot never fails, but the
exception leaves the handler of `FrontServer`. -/
namespace MarketServer
open Library

variable {F : Type} [Component F]

theorem processSymbolsPackage_error {package : Package F} {data : SymbolData} {failure : Failure}
    {world next : World F}
    (h : (FrontServer.processSymbolsPackage package data).run world = .error failure next) :
    next = world := by
  by_cases hvalid : ∀ symbol ∈ data.symbols, symbol.ValidUtf8
  · obtain ⟨text, _, hrun⟩ := run_processSymbolsPackage_valid package hvalid world
    rw [hrun] at h
    cases h
  · rw [run_processSymbolsPackage_invalid package hvalid] at h
    cases h
    rfl

theorem getSymbolsStr_ok {world : World F} (hvalid : ∀ symbol ∈ world.symbols, symbol.ValidUtf8) :
    ∃ text, (FrontServer.getSymbolsStr (F := F)).run world = .ok text world := by
  obtain ⟨text, htext⟩ := listDocument_dump_ok (F := F) "symbol" hvalid
  refine ⟨text, ?_⟩
  unfold FrontServer.getSymbolsStr
  simp only [EStateM.run_bind, EStateM.run_get, symbolsToJsonStr_eq, htext, run_lift_ok]

theorem onOpen_ok {world : World F} (hvalid : ∀ symbol ∈ world.symbols, symbol.ValidUtf8)
    (client : Client) : ∃ next, (WBServer.onOpen client).run world = .ok () next := by
  obtain ⟨text, htext⟩ := listDocument_dump_ok (F := F) "symbol" hvalid
  rw [run_onOpen, htext]
  exact ⟨_, rfl⟩

/-! Only a merge adds to the known symbols, whatever is read out of the packages. -/

/-- Every known symbol is UTF-8. -/
def World.SymbolsValid (world : World F) : Prop := ∀ symbol ∈ world.symbols, symbol.ValidUtf8

theorem broadcast_keeps (message : Message F) :
    Handler.Keeps World.SymbolsValid (WBServer.broadcast message) := by
  intro world h
  rw [run_broadcast]
  exact h

theorem encode_broadcast_keeps (encoded : Except Failure (Text F)) (package : Package F) :
    Handler.Keeps World.SymbolsValid
      (do let text ← encoded; WBServer.broadcast ⟨some package, text⟩ : Handler F Unit) :=
  keeps_bind (keeps_lift encoded) fun _ => broadcast_keeps _

/-- The first encoding lets no symbol through that is not UTF-8. -/
theorem processSymbolsPackage_keeps (package : Package F) (data : SymbolData) :
    Handler.Keeps World.SymbolsValid (FrontServer.processSymbolsPackage package data) := by
  intro world h
  by_cases hvalid : ∀ symbol ∈ data.symbols, symbol.ValidUtf8
  · obtain ⟨text, _, hrun⟩ := run_processSymbolsPackage_valid package hvalid world
    rw [hrun]
    intro symbol hsymbol
    exact (OrderedSet.mem_merge_fst.mp hsymbol).elim (h symbol) (hvalid symbol)
  · rw [run_processSymbolsPackage_invalid package hvalid]
    exact h

theorem handleRequestMessage_keeps (request : Request) :
    Handler.Keeps World.SymbolsValid (DataProcess.handleRequestMessage (F := F) request) := by
  unfold DataProcess.handleRequestMessage
  split
  · refine keeps_bind keeps_get fun _ => keeps_bind (keeps_modify fun _ h => h) fun _ => ?_
    refine keeps_bind keeps_get fun _ => keeps_bind ?_ fun _ => keeps_modify fun _ h => h
    exact keeps_bind (keeps_modify fun _ h => h) fun _ => keeps_pure _
  · exact keeps_modify fun _ h => h

theorem processNewSymbol_keeps (symbol : Bytes) :
    Handler.Keeps World.SymbolsValid (DataProcess.processNewSymbol (F := F) symbol) := by
  refine keeps_bind (fun _ h => h) fun _ => keeps_bind ?_ fun _ => keeps_modify fun _ h => h
  exact keeps_bind (keeps_modify fun _ h => h) fun _ => keeps_pure _

variable [Double F]

theorem processSdepthPackage_keeps (reads : Reads) (memory : EnhancedDepthData F)
    (package : Package F) :
    Handler.Keeps World.SymbolsValid (DataProcess.processSdepthPackage reads memory package) := by
  refine keeps_catching ?_
  split
  · refine keeps_bind (keeps_bind (keeps_lift _) fun _ =>
      keeps_bind (keeps_modify fun _ h => h) fun _ => keeps_pure _) fun packageNew => ?_
    refine keeps_bind ?_ fun _ => keeps_bind keeps_get fun _ => ?_
    · unfold DataProcess.enhancedDepthDataOf
      split
      · exact keeps_pure _
      · exact keeps_throw _
    · split
      · refine keeps_bind (keeps_modify fun _ h => h) fun _ => ?_
        exact keeps_bind (processNewSymbol_keeps _) fun _ => keeps_modify fun _ h => h
      · exact keeps_modify fun _ h => h
  · exact keeps_pure _

theorem responseMessage_keeps (reads : Reads) (memory : EnhancedDepthData F)
    (package : Package F) :
    Handler.Keeps World.SymbolsValid
      (DataProcess.handleResponseMessage reads memory package) := by
  unfold DataProcess.handleResponseMessage
  cases package.field with
  | sDepthData depth => exact processSdepthPackage_keeps reads memory package
  | _ => exact keeps_modify fun _ h => h

theorem front_keeps (reads : Reads) (package : Package F) :
    Handler.Keeps World.SymbolsValid (FrontServer.handleResponseMessage reads package) := by
  refine keeps_bind (keeps_modify fun _ h => h) fun _ => ?_
  split
  · exact broadcast_keeps _
  · exact encode_broadcast_keeps _ _
  · exact processSymbolsPackage_keeps _ _
  · exact encode_broadcast_keeps _ _

omit [Double F] in
theorem dispatch_valid {handler : Handler F Unit} {world next : World F}
    (h : dispatch handler world = some next)
    (hkeeps : Handler.Keeps World.SymbolsValid handler) (hworld : world.SymbolsValid) :
    next.SymbolsValid := by
  have hnext := hkeeps world hworld
  unfold dispatch at h
  split at h
  · rename_i hrun
    cases h
    rwa [hrun] at hnext
  · rename_i hrun
    cases h
    rw [hrun] at hnext
    exact hnext
  · cases h

theorem stepReading_valid {reads : Reads} {world next : World F} {event : Event F}
    (hworld : world.SymbolsValid) (h : stepReading reads world event = some next) :
    next.SymbolsValid := by
  cases event with
  | onDepth depth =>
    simp only [stepReading] at h
    exact dispatch_valid h (keeps_bind (keeps_modify fun _ h => h) fun _ =>
      keeps_modify fun _ h => h) hworld
  | requestAllSymbol =>
    simp only [stepReading] at h
    exact dispatch_valid h (keeps_bind (fun _ h => h) fun _ =>
      keeps_bind (keeps_modify fun _ h => h) fun _ => keeps_modify fun _ h => h) hworld
  | receive =>
    simp only [stepReading] at h
    split at h
    · cases h
    · rename_i task rest hqueue
      refine dispatch_valid h ?_ hworld
      cases task with
      | handleDepthData depth =>
        exact keeps_bind (fun _ h => h) fun _ => keeps_bind
          (keeps_bind (keeps_modify fun _ h => h) fun _ => keeps_pure _) fun _ =>
            keeps_modify fun _ h => h
      | handleRequestMessage request => exact keeps_pure _
  | process memory =>
    simp only [stepReading] at h
    split at h
    · cases h
    · rename_i task rest hqueue
      refine dispatch_valid h ?_ hworld
      cases task with
      | handleResponseMessage package => exact responseMessage_keeps reads memory package
      | handleRequestMessage request => exact handleRequestMessage_keeps request
  | front =>
    simp only [stepReading] at h
    split at h
    · cases h
    · exact dispatch_valid h (front_keeps reads _) hworld
  | onOpen =>
    simp only [stepReading] at h
    refine dispatch_valid h ?_ hworld
    refine keeps_bind (keeps_bind (keeps_modify fun _ h => h) fun _ => keeps_modify fun _ h => h)
      fun _ => keeps_bind (keeps_bind keeps_get fun _ => keeps_lift _) fun _ => ?_
    exact keeps_modify fun _ h => h
  | onClose client =>
    simp only [stepReading] at h
    split at h
    · refine dispatch_valid h (fun other hother => ?_) hworld
      rw [run_onClose]
      exact hother
    · cases h

theorem runTurns_symbols_valid {turns : List (Turn F)} {world : World F}
    (hrun : runTurns (World.initial F) turns = some world) : world.SymbolsValid :=
  Transition.run_invariant (P := World.SymbolsValid) (fun _ => True)
    (fun _ hworld hstep => stepReading_valid hworld hstep) (fun _ _ => trivial)
    (fun _ h => absurd h List.not_mem_nil) hrun

/-- In every run, with any bytes for symbols and anything in the memory they are read
from, a failed symbol update leaves the world as it was, every known symbol is UTF-8 and
the snapshot never fails. -/
theorem symbol_failures_atomic {turns : List (Turn F)} {world : World F}
    (hrun : runTurns (World.initial F) turns = some world) :
    (∀ package data failure next,
      (FrontServer.processSymbolsPackage package data).run world = .error failure next →
        next = world) ∧
      (∀ symbol ∈ world.symbols, symbol.ValidUtf8) ∧
      (∃ text, (FrontServer.getSymbolsStr (F := F)).run world = .ok text world) ∧
      ∀ client, ∃ next, (WBServer.onOpen client).run world = .ok () next := by
  have hvalid := runTurns_symbols_valid hrun
  exact ⟨fun _ _ _ _ h => processSymbolsPackage_error h, hvalid, getSymbolsStr_ok hvalid,
    onOpen_ok hvalid⟩

/-- A symbol that is not UTF-8 and one that is pass through the server, then a
full list is requested. -/
def mixedRun : List (Event ℚ) :=
  [.onDepth (emptyDepth [0xff] (.ofLiteral "X")), .onDepth btcDepth, .receive, .receive,
    .process zeroMemory, .process zeroMemory, .front, .front, .front, .front,
    .requestAllSymbol, .process zeroMemory, .front]

/-- What the last station reads instead of the exchange of every update is not UTF-8. -/
def mixedTurns : List (Turn ℚ) :=
  mixedRun.map (Turn.mk { Reads.untouched with exchange := some fun _ => 0xff })

theorem symbol_failures_atomic_sample :
    ∃ world, runTurns (World.initial ℚ) mixedTurns = some world ∧
      ∃ text, (FrontServer.getSymbolsStr (F := ℚ)).run world = .ok text world := by
  obtain ⟨world, hrun⟩ : ∃ world, runTurns (World.initial ℚ) mixedTurns = some world :=
    Option.isSome_iff_exists.mp (by decide +kernel)
  exact ⟨world, hrun, (symbol_failures_atomic hrun).2.2.1⟩

/-- No exception left a handler, and whatever was handled was broadcast: updates
as their encoding, full lists with all their valid symbols. -/
structure World.Undisturbed (world : World F) : Prop where
  escaped : .escaped ∉ world.log
  broadcast : (Log.broadcasts world.log).map Message.cause = (Log.handled world.log).map some
  depths : ∀ message ∈ Log.broadcasts world.log, ∀ depth, message.depth? = some depth →
    EnhancedDepthData.encode depth = .ok message.text
  lists : ∀ keys text, (keys, text) ∈ Log.answerTexts world.log →
    ∀ symbol ∈ keys, symbol.ValidUtf8 → symbol ∈ symbolsRead text

/-- Every handled update was encoded, or an exception is on record. -/
theorem Outcome.handled_valid {world next : World F} {event : Event F}
    (h : Outcome world event next)
    (hworld : .escaped ∉ world.log → ∀ depth ∈ Log.handledDepths world.log, depth.ValidTexts) :
    .escaped ∉ next.log → ∀ depth ∈ Log.handledDepths next.log, depth.ValidTexts := by
  cases h with
  | publish hqueue hdepth hpackage htext =>
    intro hescaped
    have hdump := EnhancedDepthData.document_valid_iff.mp
      (Json.valid_of_dump (EnhancedDepthData.document_built _) htext)
    have hold := hworld fun hmem => hescaped (List.mem_append_left _ hmem)
    simpa [hdepth, or_imp, forall_and] using ⟨hold, hdump⟩
  | merge hqueue hdata =>
    intro hescaped
    have hold := hworld fun hmem => hescaped (List.mem_append_left _ hmem)
    simpa [Package.depth?_eq_none hdata] using hold
  | fail hqueue =>
    intro hescaped
    exact absurd (by simp) hescaped
  | failOpen hinvalid =>
    intro hescaped
    exact absurd (by simp) hescaped
  | _ => simpa using hworld

omit [Double F] in
theorem escaped_not_mem_broadcastLog (package : Package F) (message : Message F)
    (clients : OrderedSet Client) :
    .escaped ∉ Observation.handled package :: broadcastLog message clients := by
  simp [broadcastLog]

theorem Outcome.not_escaped {world next : World F} {event : Event F}
    (h : Outcome world event next) (hvalid : world.ValidTexts) (hworld : .escaped ∉ world.log) :
    .escaped ∉ next.log := by
  cases h with
  | publish =>
    exact List.not_mem_append hworld (escaped_not_mem_broadcastLog _ _ _)
  | merge =>
    exact List.not_mem_append hworld (escaped_not_mem_broadcastLog _ _ _)
  | fail hqueue hpackage hinvalid =>
    exact absurd (hvalid.head hqueue) hinvalid
  | failOpen hinvalid => exact absurd hvalid.symbols hinvalid
  | _ => simpa using hworld

/-- Every depth message is the encoding of its update. -/
def World.DepthsEncoded (world : World F) : Prop :=
  ∀ message ∈ Log.broadcasts world.log, ∀ depth, message.depth? = some depth →
    EnhancedDepthData.encode depth = .ok message.text

theorem Outcome.depthsEncoded {world next : World F} {event : Event F}
    (h : Outcome world event next) (hworld : world.DepthsEncoded) : next.DepthsEncoded := by
  unfold World.DepthsEncoded at hworld ⊢
  cases h with
  | publish hqueue hdepth hpackage htext =>
    simpa [Message.depth?, hdepth, or_imp, forall_and] using ⟨hworld, htext⟩
  | merge hqueue hdata =>
    simpa [Message.depth?, Package.depth?_eq_none hdata, or_imp, forall_and] using hworld
  | _ => simpa using hworld

omit [Component F] [Double F] in
theorem events_valid {events : List (Event F)}
    (h : ∀ depth ∈ hubCalls events, depth.ValidTexts) : ∀ event ∈ events, event.ValidTexts := by
  intro event hevent
  cases event with
  | onDepth depth => exact h depth (List.mem_filterMap.mpr ⟨_, hevent, rfl⟩)
  | _ => trivial

theorem run_undisturbed {events : List (Event F)} {world : World F}
    (hvalid : ∀ event ∈ events, event.ValidTexts)
    (hrun : run (World.initial F) events = some world) : world.Undisturbed where
  escaped := run_invariant_valid (P := fun world => .escaped ∉ world.log) List.not_mem_nil
    (fun hvalid hworld houtcome => houtcome.not_escaped hvalid hworld) hvalid hrun
  broadcast := run_broadcasts hvalid hrun
  depths := run_invariant (P := World.DepthsEncoded) (fun _ => True)
    (fun _ h => absurd h List.not_mem_nil)
    (fun _ _ hworld houtcome => houtcome.depthsEncoded hworld) (fun _ _ => trivial) hrun
  lists := by
    intro keys text hmem symbol hsymbol _
    rw [run_answersComplete hvalid hrun keys text hmem]
    exact hsymbol

theorem run_handled_valid {events : List (Event F)} {world : World F}
    (hrun : run (World.initial F) events = some world) (hescaped : .escaped ∉ world.log) :
    ∀ depth ∈ Log.handledDepths world.log, depth.ValidTexts :=
  run_invariant (P := fun world => .escaped ∉ world.log →
      ∀ depth ∈ Log.handledDepths world.log, depth.ValidTexts) (fun _ => True)
    (fun _ _ h => absurd h List.not_mem_nil)
    (fun _ _ hworld houtcome => houtcome.handled_valid hworld) (fun _ _ => trivial) hrun hescaped

theorem run_undisturbed_iff {events : List (Event F)} {world : World F}
    (hrun : run (World.initial F) events = some world) :
    ((∀ depth ∈ hubCalls events, depth.ValidTexts) → world.Undisturbed) ∧
      (world.Quiescent →
        (world.Undisturbed ↔ ∀ depth ∈ hubCalls events, depth.ValidTexts)) := by
  have hwhen : (∀ depth ∈ hubCalls events, depth.ValidTexts) → world.Undisturbed :=
    fun hvalid => run_undisturbed (events_valid hvalid) hrun
  refine ⟨hwhen, fun hquiescent => ⟨fun hundisturbed => ?_, hwhen⟩⟩
  rw [← run_quiescent_depths hrun hquiescent]
  exact run_handled_valid hrun hundisturbed.escaped

/-- As long as every string is read in place and the hub passes valid texts, the publisher
is undisturbed, and once every queue is empty it is undisturbed only then. -/
theorem publisher_undisturbed_iff {turns : List (Turn F)} {world : World F}
    (huntouched : Untouched turns) (hrun : runTurns (World.initial F) turns = some world) :
    ((∀ depth ∈ hubCalls (turns.map Turn.event), depth.ValidTexts) → world.Undisturbed) ∧
      (world.Quiescent →
        (world.Undisturbed ↔ ∀ depth ∈ hubCalls (turns.map Turn.event), depth.ValidTexts)) := by
  rw [runTurns_untouched huntouched] at hrun
  exact run_undisturbed_iff hrun

theorem publisher_undisturbed_iff_sample :
    ∃ world, runTurns (World.initial ℚ) (still sampleRun) = some world ∧ world.Undisturbed := by
  obtain ⟨world, hreaches⟩ := sampleRun_reaches
  have hrun := (runTurns_still _ sampleRun).trans hreaches
  exact ⟨world, hrun, (publisher_undisturbed_iff (still_untouched _) hrun).1 (by decide)⟩

/-- One symbol that is not UTF-8: packages are handled and not broadcast, and the
full list is lost with the valid symbol in it. -/
theorem publisher_disturbed :
    Untouched (still mixedRun) ∧
      (∀ depth ∈ hubCalls ((still mixedRun).map Turn.event), depth.InBounds) ∧
      ∃ world, runTurns (World.initial ℚ) (still mixedRun) = some world ∧ ¬ world.Undisturbed ∧
        (Log.answers world.log).map OrderedSet.toList = [[Bytes.ofLiteral "BTC", [0xff]]] ∧
        (Log.answerTexts world.log).length = 0 := by
  refine ⟨still_untouched _, by decide +kernel, ?_⟩
  obtain ⟨world, hrun, hbroadcasts, hhandled, hanswers, htexts⟩ :
      ∃ world, runTurns (World.initial ℚ) (still mixedRun) = some world ∧
        (Log.broadcasts world.log).length = 2 ∧ (Log.handled world.log).length = 5 ∧
        (Log.answers world.log).map OrderedSet.toList = [[Bytes.ofLiteral "BTC", [0xff]]] ∧
        (Log.answerTexts world.log).length = 0 := Transition.run_satisfies (by decide +kernel)
  refine ⟨world, hrun, fun hundisturbed => ?_, hanswers, htexts⟩
  have hlength := congrArg List.length hundisturbed.broadcast
  rw [List.length_map, List.length_map] at hlength
  omega

end MarketServer
