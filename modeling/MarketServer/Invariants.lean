import MarketServer.Outcome

/-! Invariants of whole runs that the later results share: which texts can be
anywhere in the server, and that the depth updates handled so far followed by
those in the three queues are the updates the hub delivered. -/
namespace MarketServer
open Library

variable {F : Type} [Component F]

def Event.ValidTexts : Event F → Prop
  | .onDepth depth => depth.ValidTexts
  | _ => True

structure World.ValidTexts (world : World F) : Prop where
  receive : ∀ depth ∈ world.receiveDepths, depth.ValidTexts
  process : ∀ depth ∈ world.processDepths, depth.ValidTexts
  front : ∀ package ∈ world.frontService, package.ValidTexts
  keys : ∀ symbol ∈ world.depthData.keys, symbol.ValidUtf8
  symbols : ∀ symbol ∈ world.symbols, symbol.ValidUtf8

theorem World.ValidTexts.head {world : World F} {package : Package F} {rest : List (Package F)}
    (h : world.ValidTexts) (hqueue : world.frontService = package :: rest) : package.ValidTexts :=
  h.front package (hqueue ▸ List.mem_cons_self)

theorem validTexts_initial : (World.initial F).ValidTexts :=
  ⟨fun _ h => absurd h List.not_mem_nil, fun _ h => absurd h List.not_mem_nil,
    fun _ h => absurd h List.not_mem_nil, fun _ h => absurd h List.not_mem_nil,
    fun _ h => absurd h List.not_mem_nil⟩

variable [Double F]

/-- Only what was encoded once without an exception enters `symbols_`. -/
theorem Outcome.symbols_valid {world next : World F} {event : Event F}
    (h : Outcome world event next) (hsymbols : ∀ symbol ∈ world.symbols, symbol.ValidUtf8) :
    ∀ symbol ∈ next.symbols, symbol.ValidUtf8 := by
  cases h with
  | merge hqueue hdata hpackage hvalid htext =>
    intro symbol hsymbol
    rcases OrderedSet.mem_merge_fst.mp hsymbol with hold | hnew
    · exact hsymbols symbol hold
    · obtain ⟨_, _, rfl, rfl⟩ | ⟨_, rfl, rfl⟩ := hpackage.symbols_cases hdata
      · exact hvalid symbol hnew
      · exact hvalid symbol hnew
  | _ => exact hsymbols

theorem Outcome.validTexts {world next : World F} {event : Event F}
    (h : Outcome world event next) (hevent : event.ValidTexts) (hworld : world.ValidTexts) :
    next.ValidTexts := by
  have hsymbols := h.symbols_valid hworld.symbols
  obtain ⟨hreceive, hprocess, hfront, hkeys, _⟩ := hworld
  simp only [World.receiveDepths] at hreceive
  simp only [World.processDepths] at hprocess
  cases h with
  | onDepth depth =>
    refine ⟨?_, hprocess, hfront, hkeys, hsymbols⟩
    rw [World.receiveDepths, List.filterMap_append]
    exact List.forall_mem_append.mpr ⟨hreceive, List.forall_mem_singleton.mpr hevent⟩
  | requestAllSymbol =>
    refine ⟨hreceive, ?_, hfront, hkeys, hsymbols⟩
    simpa only [World.processDepths, List.filterMap_append, filterMap_cons_toList,
      depth?_request, Option.toList_none, List.nil_append, List.filterMap_nil, List.append_nil]
      using hprocess
  | receive hqueue =>
    rw [hqueue, filterMap_cons_toList] at hreceive
    obtain ⟨hdepth, hrest⟩ := List.forall_mem_append.mp hreceive
    refine ⟨hrest, ?_, hfront, hkeys, hsymbols⟩
    rw [World.processDepths, List.filterMap_append]
    exact List.forall_mem_append.mpr ⟨hprocess, hdepth⟩
  | known hqueue hdata hknown =>
    rw [hqueue, filterMap_cons_toList] at hprocess
    obtain ⟨hdepth, hrest⟩ := List.forall_mem_append.mp hprocess
    refine ⟨hreceive, hrest, List.forall_mem_append.mpr ⟨hfront, ?_⟩, hkeys, hsymbols⟩
    simpa [Package.ValidTexts, enhancedPackage, hdata.stored] using hdepth
  | new hqueue hdata hnew =>
    rw [hqueue, filterMap_cons_toList] at hprocess
    obtain ⟨hdepth, hrest⟩ := List.forall_mem_append.mp hprocess
    rw [depth?_response, Option.toList_some, List.forall_mem_singleton] at hdepth
    refine ⟨hreceive, hrest, List.forall_mem_append.mpr ⟨hfront, ?_⟩, ?_, hsymbols⟩
    · simpa [Package.ValidTexts, enhancedPackage, announcement, hdata.stored] using
        ⟨hdepth.1, hdepth⟩
    · simpa [OrderedMap.keys_assign] using ⟨hdepth.1, hkeys⟩
  | serve hqueue =>
    rw [hqueue, filterMap_cons_toList] at hprocess
    refine ⟨hreceive, hprocess, List.forall_mem_append.mpr ⟨hfront, ?_⟩, hkeys, hsymbols⟩
    simpa [Package.ValidTexts, answer] using hkeys
  | publish hqueue =>
    rw [hqueue, List.forall_mem_cons] at hfront
    exact ⟨hreceive, hprocess, hfront.2, hkeys, hsymbols⟩
  | merge hqueue =>
    rw [hqueue, List.forall_mem_cons] at hfront
    exact ⟨hreceive, hprocess, hfront.2, hkeys, hsymbols⟩
  | fail hqueue =>
    rw [hqueue, List.forall_mem_cons] at hfront
    exact ⟨hreceive, hprocess, hfront.2, hkeys, hsymbols⟩
  | onOpen => exact ⟨hreceive, hprocess, hfront, hkeys, hsymbols⟩
  | failOpen => exact ⟨hreceive, hprocess, hfront, hkeys, hsymbols⟩
  | onClose => exact ⟨hreceive, hprocess, hfront, hkeys, hsymbols⟩

theorem run_validTexts {events : List (Event F)} {world : World F}
    (hvalid : ∀ event ∈ events, event.ValidTexts)
    (hrun : run (World.initial F) events = some world) : world.ValidTexts :=
  run_invariant Event.ValidTexts validTexts_initial
    (fun hevent _ hworld houtcome => houtcome.validTexts hevent hworld) hvalid hrun

/-- The rule for runs in which every text is valid. -/
theorem run_invariant_valid {P : World F → Prop} (hinitial : P (World.initial F))
    (hstep : ∀ {world next : World F} {event : Event F}, world.ValidTexts → P world →
      Outcome world event next → P next)
    {events : List (Event F)} {world : World F} (hvalid : ∀ event ∈ events, event.ValidTexts)
    (hrun : run (World.initial F) events = some world) : P world := by
  have hboth : world.ValidTexts ∧ P world := by
    refine run_invariant (P := fun world => world.ValidTexts ∧ P world) Event.ValidTexts
      ⟨validTexts_initial, hinitial⟩ (fun hevent _ hworld houtcome => ?_) hvalid hrun
    exact ⟨houtcome.validTexts hevent hworld.1, hstep hworld.1 hworld.2 houtcome⟩
  exact hboth.2

/-- The update a hub callback delivers. -/
def Event.depth? : Event F → Option (SDepthData F)
  | .onDepth depth => some depth
  | _ => none

/-- All updates ever passed to `on_depth`, in call order. -/
def hubCalls (events : List (Event F)) : List (SDepthData F) := events.filterMap Event.depth?

theorem Outcome.calls_eq {world next : World F} {event : Event F}
    (h : Outcome world event next) :
    Log.calls next.log = Log.calls world.log ++ event.depth?.toList := by
  cases h <;> simp [Event.depth?]

theorem run_calls {events : List (Event F)} {world : World F}
    (hrun : run (World.initial F) events = some world) :
    Log.calls world.log = hubCalls events := by
  refine Transition.run_reading (P := Shaped) (fun world => Log.calls world.log) Event.depth?
    (fun hshaped hstep => ?_) shaped_initial hrun
  have houtcome := step_outcome hshaped hstep
  exact ⟨houtcome.shaped hshaped, houtcome.calls_eq⟩

/-- What `FrontServer` has handled, then what waits in the queues of the three
stations, from the last back to the first. -/
def World.Conserved (world : World F) : Prop :=
  Log.handledDepths world.log ++ world.frontDepths ++ world.processDepths ++
    world.receiveDepths = Log.calls world.log

theorem Outcome.conserved {world next : World F} {event : Event F}
    (h : Outcome world event next) (hworld : world.Conserved) : next.Conserved := by
  simp only [World.Conserved, World.frontDepths, World.processDepths, World.receiveDepths]
    at hworld ⊢
  cases h with
  | onDepth depth => simp [← hworld]
  | requestAllSymbol => simpa [filterMap_cons_toList] using hworld
  | receive hqueue => simpa [filterMap_cons_toList, hqueue] using hworld
  | known hqueue hdata hknown => simpa [filterMap_cons_toList, hqueue, hdata.stored] using hworld
  | new hqueue hdata hnew => simpa [filterMap_cons_toList, hqueue, hdata.stored] using hworld
  | serve hqueue => simpa [filterMap_cons_toList, hqueue] using hworld
  | publish hqueue => simpa [filterMap_cons_toList, hqueue] using hworld
  | merge hqueue => simpa [filterMap_cons_toList, hqueue] using hworld
  | fail hqueue => simpa [filterMap_cons_toList, hqueue] using hworld
  | onOpen => simpa using hworld
  | failOpen => simpa using hworld
  | onClose => simpa using hworld

theorem run_conserved {events : List (Event F)} {world : World F}
    (hrun : run (World.initial F) events = some world) : world.Conserved :=
  run_invariant (P := World.Conserved) (fun _ => True) rfl
    (fun _ _ hworld houtcome => houtcome.conserved hworld) (fun _ _ => trivial) hrun

/-- Once the queues are empty, every update of the run has been handled. -/
theorem run_quiescent_depths {events : List (Event F)} {world : World F}
    (hrun : run (World.initial F) events = some world) (hquiescent : world.Quiescent) :
    Log.handledDepths world.log = hubCalls events := by
  obtain ⟨hreceive, hprocess, hfront⟩ := hquiescent
  rw [← run_calls hrun, ← run_conserved hrun]
  simp [World.receiveDepths, World.processDepths, World.frontDepths, hreceive, hprocess, hfront]

/-- The symbols of the updates that left `DataProcess`. -/
def World.seen (world : World F) : List Bytes :=
  (Log.handledDepths world.log ++ world.frontDepths).map (·.symbol)

def World.KeysSeen (world : World F) : Prop :=
  ∀ symbol, symbol ∈ world.depthData.keys ↔ symbol ∈ world.seen

omit [Double F] in
theorem seen_snoc (world next : World F) (depth : SDepthData F)
    (hlog : Log.handledDepths next.log = Log.handledDepths world.log)
    (hfront : next.frontDepths = world.frontDepths ++ [depth]) :
    next.seen = world.seen ++ [depth.symbol] := by
  simp [World.seen, hlog, hfront]

theorem Outcome.keysSeen {world next : World F} {event : Event F}
    (h : Outcome world event next) (hworld : world.KeysSeen) : next.KeysSeen := by
  cases h with
  | @known _ _ depth _ _ hqueue hdata hknown =>
    intro symbol
    rw [seen_snoc world _ depth ?log ?front, List.mem_append, List.mem_singleton,
      ← hworld symbol]
    case log => simp
    case front => simp [World.frontDepths, hdata.stored]
    constructor
    · exact Or.inl
    · rintro (hold | rfl)
      · exact hold
      · exact hknown
  | @new _ _ depth _ _ hqueue hdata hnew =>
    intro symbol
    rw [seen_snoc world _ depth ?log ?front, List.mem_append, List.mem_singleton,
      ← hworld symbol, OrderedMap.keys_assign, OrderedSet.mem_emplace, or_comm]
    case log => simp
    case front => simp [World.frontDepths, filterMap_cons_toList, hdata.stored]
  | publish hqueue =>
    simpa [World.KeysSeen, World.seen, World.frontDepths, filterMap_cons_toList, hqueue] using hworld
  | merge hqueue =>
    simpa [World.KeysSeen, World.seen, World.frontDepths, filterMap_cons_toList, hqueue] using hworld
  | fail hqueue =>
    simpa [World.KeysSeen, World.seen, World.frontDepths, filterMap_cons_toList, hqueue] using hworld
  | _ => simpa [World.KeysSeen, World.seen, World.frontDepths, filterMap_cons_toList] using hworld

theorem run_keysSeen {events : List (Event F)} {world : World F}
    (hrun : run (World.initial F) events = some world) : world.KeysSeen :=
  run_invariant (P := World.KeysSeen) (fun _ => True) (fun _ => Iff.rfl)
    (fun _ _ hworld houtcome => houtcome.keysSeen hworld) (fun _ _ => trivial) hrun

/-- Whatever `FrontServer` handles it broadcasts, as long as every text is valid. -/
theorem Outcome.broadcasts_eq {world next : World F} {event : Event F}
    (h : Outcome world event next) (hvalid : world.ValidTexts)
    (hworld : (Log.broadcasts world.log).map Message.cause = (Log.handled world.log).map some) :
    (Log.broadcasts next.log).map Message.cause = (Log.handled next.log).map some := by
  cases h with
  | fail hqueue hpackage hinvalid =>
    exact absurd (hvalid.head hqueue) hinvalid
  | _ => simpa using hworld

theorem run_broadcasts {events : List (Event F)} {world : World F}
    (hvalid : ∀ event ∈ events, event.ValidTexts)
    (hrun : run (World.initial F) events = some world) :
    (Log.broadcasts world.log).map Message.cause = (Log.handled world.log).map some :=
  run_invariant_valid
    (P := fun world => (Log.broadcasts world.log).map Message.cause =
      (Log.handled world.log).map some)
    rfl (fun hvalid hworld houtcome => houtcome.broadcasts_eq hvalid hworld) hvalid hrun

omit [Double F] in
/-- Then anything read off the packages is the same for both. -/
theorem filterMap_causes {β : Type} {log : Log F} (f : Package F → Option β)
    (h : (Log.broadcasts log).map Message.cause = (Log.handled log).map some) :
    (Log.broadcasts log).filterMap (fun message => message.cause.bind f) =
      (Log.handled log).filterMap f := by
  have hcauses := congrArg (List.filterMap (Option.bind · f)) h
  rw [List.filterMap_map, List.filterMap_map] at hcauses
  exact hcauses

end MarketServer
