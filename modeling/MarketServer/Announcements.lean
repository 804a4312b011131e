import MarketServer.Refinement
import MarketServer.Exact

/-! How symbols become known: each is announced once, the stores agree up to the
announcements in flight, and no update is published before its symbol. -/
namespace MarketServer
open Library

variable {F : Type} [Component F] [Double F]

omit [Double F] in
@[simp] theorem announced_depthPackage (packageId : Int32) (depth : SDepthData F) :
    (depthPackage packageId depth).announced = [] := rfl

omit [Double F] in
@[simp] theorem announced_enhancedPackage (packageId : Int32) (data : EnhancedDepthData F) :
    (enhancedPackage packageId data).announced = [] := rfl

omit [Double F] in
@[simp] theorem announced_announcement (packageId : Int32) (symbol : Bytes) :
    (announcement F packageId symbol).announced = [symbol] := rfl

omit [Double F] in
@[simp] theorem announced_answer (keys : OrderedSet Bytes) : (answer F keys).announced = [] := rfl

/-- The symbols of all `process_new_symbol` packages created so far. -/
def Log.announced (log : Log F) : List Bytes := (Log.created log).flatMap Package.announced

structure World.AnnouncedOnce (world : World F) : Prop where
  nodup : (Log.announced world.log).Nodup
  stored : ∀ symbol ∈ Log.announced world.log, symbol ∈ world.depthData.keys

omit [Double F] in
theorem World.AnnouncedOnce.grow {world next : World F} {symbol : Bytes}
    (h : world.AnnouncedOnce) (hnew : symbol ∉ world.depthData.keys)
    (hlog : Log.announced next.log = Log.announced world.log ++ [symbol])
    (hkeys : next.depthData.keys = world.depthData.keys.emplace symbol) :
    next.AnnouncedOnce := by
  have hfresh : symbol ∉ Log.announced world.log := fun hmem => hnew (h.stored symbol hmem)
  constructor
  · rw [hlog, ← List.concat_eq_append, List.nodup_concat]
    exact ⟨hfresh, h.nodup⟩
  · intro other hmem
    rw [hlog, List.mem_append, List.mem_singleton] at hmem
    rw [hkeys, OrderedSet.mem_emplace]
    rcases hmem with hold | rfl
    · exact Or.inr (h.stored other hold)
    · exact Or.inl rfl

theorem Outcome.announcedOnce {world next : World F} {event : Event F}
    (h : Outcome world event next) (hworld : world.AnnouncedOnce) : next.AnnouncedOnce := by
  cases h with
  | new hqueue hdata hnew =>
    exact hworld.grow hnew (by simp [Log.announced]) (OrderedMap.keys_assign _ _ _)
  | _ =>
    exact ⟨by simpa [Log.announced] using hworld.nodup,
      by simpa [Log.announced] using hworld.stored⟩

theorem run_announcedOnce {events : List (Event F)} {world : World F}
    (hrun : run (World.initial F) events = some world) : world.AnnouncedOnce :=
  run_invariant (P := World.AnnouncedOnce) (fun _ => True)
    ⟨List.nodup_nil, fun _ h => absurd h List.not_mem_nil⟩
    (fun _ _ hworld houtcome => houtcome.announcedOnce hworld) (fun _ _ => trivial) hrun

theorem waiting_eq {world : World F} (hshaped : Shaped world) :
    Replica.added world.replica.log = world.waiting :=
  added_entries hshaped.front

theorem run_quiescent_keys {events : List (Event F)} {world : World F}
    (hrun : run (World.initial F) events = some world) (hquiescent : world.Quiescent)
    (symbol : Bytes) :
    symbol ∈ world.depthData.keys ↔ ∃ depth ∈ hubCalls events, depth.symbol = symbol := by
  have hfront : world.frontDepths = [] := by simp [World.frontDepths, hquiescent.2.2]
  rw [run_keysSeen hrun symbol, World.seen, hfront, List.append_nil,
    run_quiescent_depths hrun hquiescent, List.mem_map]

theorem run_stores {events : List (Event F)} {world : World F}
    (hvalid : ∀ event ∈ events, event.ValidTexts)
    (hrun : run (World.initial F) events = some world) (symbol : Bytes) :
    symbol ∈ world.depthData.keys ↔ symbol ∈ world.symbols ∨ symbol ∈ world.waiting := by
  rw [← waiting_eq (run_shaped hrun)]
  exact (run_consistent hvalid hrun).mem_source_iff symbol

theorem run_quiescent_symbols {events : List (Event F)} {world : World F}
    (hvalid : ∀ event ∈ events, event.ValidTexts)
    (hrun : run (World.initial F) events = some world) (hquiescent : world.Quiescent)
    (symbol : Bytes) :
    symbol ∈ world.symbols ↔ ∃ depth ∈ hubCalls events, depth.symbol = symbol := by
  have hstores := run_stores hvalid hrun symbol
  rw [run_quiescent_keys hrun hquiescent] at hstores
  simpa [World.waiting, hquiescent.2.2] using hstores.symm

theorem run_announcements {events : List (Event F)} {world : World F}
    (hvalid : ∀ event ∈ events, event.ValidTexts)
    (hrun : run (World.initial F) events = some world) :
    world.waiting.Nodup ∧
      (∀ symbol ∈ world.waiting, symbol ∉ world.symbols) ∧
      (∀ symbol, symbol ∈ world.depthData.keys ↔
        symbol ∈ world.symbols ∨ symbol ∈ world.waiting) ∧
      (Log.announced world.log).Nodup ∧
      (world.Quiescent → ∀ symbol, symbol ∈ world.symbols ↔
        ∃ depth ∈ hubCalls events, depth.symbol = symbol) := by
  have hconsistent := run_consistent hvalid hrun
  have hwaiting := waiting_eq (run_shaped hrun)
  refine ⟨?_, ?_, run_stores hvalid hrun, (run_announcedOnce hrun).nodup,
    run_quiescent_symbols hvalid hrun⟩
  · rw [← hwaiting]
    exact hconsistent.added_nodup
  · rw [← hwaiting]
    exact hconsistent.added_fresh

/-- As long as every string is read in place, every symbol is announced once, and the two
stores never drift apart. -/
theorem symbols_announced_once {turns : List (Turn F)} {world : World F}
    (huntouched : Untouched turns) (hvalid : ∀ turn ∈ turns, turn.event.ValidTexts)
    (hrun : runTurns (World.initial F) turns = some world) :
    world.waiting.Nodup ∧
      (∀ symbol ∈ world.waiting, symbol ∉ world.symbols) ∧
      (∀ symbol, symbol ∈ world.depthData.keys ↔
        symbol ∈ world.symbols ∨ symbol ∈ world.waiting) ∧
      (Log.announced world.log).Nodup ∧
      (world.Quiescent → ∀ symbol, symbol ∈ world.symbols ↔
        ∃ depth ∈ hubCalls (turns.map Turn.event), depth.symbol = symbol) := by
  rw [runTurns_untouched huntouched] at hrun
  exact run_announcements (List.forall_mem_map.mpr hvalid) hrun

theorem symbols_announced_once_sample :
    ∃ world, runTurns (World.initial ℚ) (still sampleRun) = some world ∧ world.waiting.Nodup ∧
      (Log.announced world.log).Nodup := by
  obtain ⟨world, hreaches⟩ := sampleRun_reaches
  have hrun := (runTurns_still _ sampleRun).trans hreaches
  obtain ⟨hwaiting, _, _, hannounced, _⟩ :=
    symbols_announced_once (still_untouched _) (still_valid sampleRun_valid) hrun
  exact ⟨world, hrun, hwaiting, hannounced⟩

/-- The memory of the symbol is reused before the update is stored. -/
def misnamedRun : List (Turn ℚ) :=
  still [.onDepth btcDepth, .receive] ++
    [⟨{ Reads.untouched with
        found := overwritten "ETH", stored := overwritten "ETH", announced := overwritten "ETH" },
      .process zeroMemory⟩] ++
    still [.front, .front]

/-- The only symbol the hub passed is not known when every queue is empty, another one is. -/
theorem symbol_misnamed :
    (∀ turn ∈ misnamedRun, turn.event.ValidTexts) ∧
      ∃ world, runTurns (World.initial ℚ) misnamedRun = some world ∧ world.Quiescent ∧
        world.symbols.toList = [.ofLiteral "ETH"] ∧
        ¬ ∀ symbol, symbol ∈ world.symbols ↔
          ∃ depth ∈ hubCalls (misnamedRun.map Turn.event), depth.symbol = symbol := by
  have hbtc : btcDepth.ValidTexts := by decide
  have hcalled : btcDepth ∈ hubCalls (misnamedRun.map Turn.event) := List.mem_singleton.mpr rfl
  obtain ⟨world, hrun, hquiescent, hsymbols, habsent⟩ :
      ∃ world, runTurns (World.initial ℚ) misnamedRun = some world ∧ world.Quiescent ∧
        world.symbols.toList = [.ofLiteral "ETH"] ∧ btcDepth.symbol ∉ world.symbols :=
    Transition.run_satisfies (by decide +kernel)
  refine ⟨by simp [misnamedRun, still, Event.ValidTexts, hbtc], world, hrun, hquiescent, hsymbols,
    fun hall => habsent ((hall _).mpr ⟨btcDepth, hcalled, rfl⟩)⟩

/-- What holds of a state reached from `start`: no symbol was lost, and every
snapshot sent on the way lists the symbols of `start`. -/
structure Since (start world : World F) : Prop where
  symbols : ∀ symbol ∈ start.symbols, symbol ∈ world.symbols
  snapshots : ∃ suffix, world.log = start.log ++ suffix ∧
    ∀ client message, .sent client message ∈ suffix → message.cause = none →
      ∀ symbol ∈ start.symbols, symbol ∈ symbolsRead message.text

omit [Double F] in
theorem Since.refl (world : World F) : Since world world :=
  ⟨fun _ h => h, [], (List.append_nil _).symm, fun _ _ h => absurd h List.not_mem_nil⟩

omit [Double F] in
theorem Since.grow {start world next : World F} (h : Since start world) (piece : Log F)
    (hlog : next.log = world.log ++ piece)
    (hsymbols : ∀ symbol ∈ world.symbols, symbol ∈ next.symbols)
    (hpiece : ∀ client message, .sent client message ∈ piece → message.cause = none →
      ∀ symbol ∈ world.symbols, symbol ∈ symbolsRead message.text) : Since start next := by
  obtain ⟨hkept, suffix, hsuffix, hsnapshots⟩ := h
  refine ⟨fun symbol hsymbol => hsymbols symbol (hkept symbol hsymbol), suffix ++ piece, ?_, ?_⟩
  · rw [hlog, hsuffix, List.append_assoc]
  · intro client message hsent hcause symbol hsymbol
    rcases List.mem_append.mp hsent with hold | hnew
    · exact hsnapshots client message hold hcause symbol hsymbol
    · exact hpiece client message hnew hcause symbol (hkept symbol hsymbol)

omit [Double F] in
/-- A broadcast is never a snapshot. -/
theorem cause_ne_none_of_broadcastLog {client : Client} {package other : Package F} {text : Text F}
    {message : Message F} {clients : OrderedSet Client}
    (h : .sent client message ∈
      Observation.handled other :: broadcastLog ⟨some package, text⟩ clients) :
    message.cause ≠ none := by
  simp only [broadcastLog, List.mem_cons, reduceCtorEq, List.mem_map, false_or,
    Observation.sent.injEq] at h
  obtain ⟨_, _, _, rfl⟩ := h
  exact Option.some_ne_none package

theorem Outcome.since {start world next : World F} {event : Event F}
    (h : Outcome world event next) (hworld : Since start world) : Since start next := by
  cases h with
  | publish hqueue =>
    exact hworld.grow _ rfl (fun _ h => h)
      fun _ _ hsent hcause => absurd hcause (cause_ne_none_of_broadcastLog hsent)
  | merge hqueue =>
    exact hworld.grow _ rfl (fun _ h => OrderedSet.mem_merge_fst.mpr (Or.inl h))
      fun _ _ hsent hcause => absurd hcause (cause_ne_none_of_broadcastLog hsent)
  | onOpen htext =>
    refine hworld.grow _ rfl (fun _ h => h) fun client message hsent _ symbol hsymbol => ?_
    simp only [List.mem_cons, reduceCtorEq, false_or, Observation.sent.injEq, List.not_mem_nil,
      or_false] at hsent
    rw [hsent.2, symbolsRead_of_dump (Or.inr rfl) htext]
    exact hsymbol
  | _ => exact hworld.grow _ rfl (fun _ h => h) (by simp)

theorem run_since {start world : World F} {events : List (Event F)} (hshaped : Shaped start)
    (hrun : run start events = some world) : Since start world := by
  have hboth : Shaped world ∧ Since start world := by
    refine Transition.run_invariant (P := fun world => Shaped world ∧ Since start world)
      (fun _ => True) (fun _ hworld hstep => ?_) (fun _ _ => trivial)
      ⟨hshaped, Since.refl start⟩ hrun
    have houtcome := step_outcome hworld.1 hstep
    exact ⟨houtcome.shaped hworld.1, houtcome.since hworld.2⟩
  exact hboth.2

/-- The updates a step publishes are of known symbols. -/
theorem Outcome.published_known {world next : World F} {event : Event F}
    (h : Outcome world event next) (hconsistent : Replica.Consistent world.replica) :
    ∀ depth ∈ Log.published (next.log.drop world.log.length), depth.symbol ∈ world.symbols := by
  cases h with
  | publish hqueue hdepth hpackage htext =>
    have hknown := depth_symbol_known hconsistent hpackage hdepth hqueue
    simpa [Message.depth?, hdepth] using hknown
  | merge hqueue hdata => simp [Message.depth?, Package.depth?_eq_none hdata]
  | _ => simp

theorem run_known {events later : List (Event F)} {event : Event F}
    {world next final : World F} (hvalid : ∀ event ∈ events, event.ValidTexts)
    (hrun : run (World.initial F) events = some world) (hstep : step world event = some next)
    (hlater : run next later = some final) :
    (∀ symbol ∈ world.symbols, symbol ∈ next.symbols) ∧
      ∀ message ∈ Log.broadcasts (next.log.drop world.log.length), ∀ depth,
        message.depth? = some depth →
          depth.symbol ∈ world.symbols ∧
          ∀ client snapshot, .sent client snapshot ∈ final.log.drop world.log.length →
            snapshot.cause = none → depth.symbol ∈ symbolsRead snapshot.text := by
  have hshaped := run_shaped hrun
  have houtcome := step_outcome hshaped hstep
  refine ⟨(houtcome.since (.refl world)).symbols, fun message hmessage depth hdepth => ?_⟩
  have hknown : depth.symbol ∈ world.symbols :=
    houtcome.published_known (run_consistent hvalid hrun) depth
      (List.mem_filterMap.mpr ⟨message, hmessage, hdepth⟩)
  have hall : run world (event :: later) = some final :=
    Transition.run_cons_eq_some.mpr ⟨next, hstep, hlater⟩
  obtain ⟨_, suffix, hsuffix, hsnapshots⟩ := run_since hshaped hall
  refine ⟨hknown, fun client snapshot hsent hcause => ?_⟩
  rw [hsuffix, List.drop_left] at hsent
  exact hsnapshots client snapshot hsent hcause depth.symbol hknown

/-- As long as every string is read in place, an update is published only when its symbol
is known, every snapshot from then on lists the symbol, and no symbol is ever forgotten. -/
theorem symbol_known_before_depth {before later : List (Turn F)} {turn : Turn F}
    {world next final : World F} (huntouched : Untouched (before ++ turn :: later))
    (hvalid : ∀ turn ∈ before, turn.event.ValidTexts)
    (hrun : runTurns (World.initial F) before = some world)
    (hstep : stepReading turn.reads world turn.event = some next)
    (hlater : runTurns next later = some final) :
    (∀ symbol ∈ world.symbols, symbol ∈ next.symbols) ∧
      ∀ message ∈ Log.broadcasts (next.log.drop world.log.length), ∀ depth,
        message.depth? = some depth →
          depth.symbol ∈ world.symbols ∧
          ∀ client snapshot, .sent client snapshot ∈ final.log.drop world.log.length →
            snapshot.cause = none → depth.symbol ∈ symbolsRead snapshot.text := by
  obtain ⟨hbefore, hafter⟩ := List.forall_mem_append.mp huntouched
  obtain ⟨hturn, hafter⟩ := List.forall_mem_cons.mp hafter
  rw [runTurns_untouched hbefore] at hrun
  rw [hturn] at hstep
  rw [runTurns_untouched hafter] at hlater
  exact run_known (List.forall_mem_map.mpr hvalid) hrun hstep hlater

theorem symbol_known_before_depth_sample :
    ∃ world next, runTurns (World.initial ℚ) (still (sampleRun.take 5)) = some world ∧
      stepReading .untouched world .front = some next ∧
      (Log.broadcasts (next.log.drop world.log.length)).length = 1 ∧
      ∀ message ∈ Log.broadcasts (next.log.drop world.log.length), ∀ depth,
        message.depth? = some depth → depth.symbol ∈ world.symbols := by
  obtain ⟨world, next, hworld, hnext, hlength, hopen⟩ :
      ∃ world next, run (World.initial ℚ) (sampleRun.take 5) = some world ∧
        step world .front = some next ∧
        (Log.broadcasts (next.log.drop world.log.length)).length = 1 ∧
        (step next .onOpen).isSome = true :=
    Transition.step_satisfies Event.front (by decide +kernel)
  obtain ⟨final, hopened⟩ := Option.isSome_iff_exists.mp hopen
  have hlater : run next [.onOpen] = some final :=
    Transition.run_cons_eq_some.mpr ⟨final, hopened, rfl⟩
  have hvalid : ∀ event ∈ sampleRun.take 5, event.ValidTexts :=
    fun event hevent => sampleRun_valid event (List.mem_of_mem_take hevent)
  have hturns := (runTurns_still _ (sampleRun.take 5)).trans hworld
  have huntouched :
      Untouched (still (sampleRun.take 5) ++ ⟨.untouched, .front⟩ :: still [.onOpen]) :=
    List.forall_mem_append.mpr ⟨still_untouched _,
      List.forall_mem_cons.mpr ⟨rfl, still_untouched _⟩⟩
  obtain ⟨_, hknown⟩ := symbol_known_before_depth huntouched (still_valid hvalid) hturns hnext
    ((runTurns_still next [.onOpen]).trans hlater)
  exact ⟨world, next, hturns, hnext, hlength,
    fun message hmessage depth hdepth => (hknown message hmessage depth hdepth).1⟩

/-- The memory of the symbol is reused twice, for the announcement and for the encoder. -/
theorem symbol_unknown_at_depth :
    (∀ turn ∈ misnamedRun.take 4, turn.event.ValidTexts) ∧
      ∃ world next, runTurns (World.initial ℚ) (misnamedRun.take 4) = some world ∧
        stepReading { Reads.untouched with symbol := overwritten "LTC" } world .front = some next ∧
        ∃ message ∈ Log.broadcasts (next.log.drop world.log.length),
          message.depth?.map SDepthData.symbol = some (.ofLiteral "BTC") ∧
          symbolWritten message.text = some (.ofLiteral "LTC") ∧
          Bytes.ofLiteral "BTC" ∉ world.symbols ∧ Bytes.ofLiteral "LTC" ∉ world.symbols := by
  have hbtc : btcDepth.ValidTexts := by decide
  refine ⟨by simp [misnamedRun, still, Event.ValidTexts, hbtc], ?_⟩
  exact Transition.step_satisfies
    (⟨{ Reads.untouched with symbol := overwritten "LTC" }, .front⟩ : Turn ℚ) (by decide +kernel)

end MarketServer
