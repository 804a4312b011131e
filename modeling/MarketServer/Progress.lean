import MarketServer.Invariants

/-! Progress. A step is undefined only without a task to handle or past the end of
the level arrays, so whatever the hub passed within the arrays can be handled to
the last package. -/
namespace MarketServer
open Library

variable {F : Type} [Component F] [Double F]

/-- What an event needs to happen: a task to handle, an update that stays within
the level arrays, a connection that was opened. -/
def Event.Enabled (world : World F) : Event F → Prop
  | .onDepth _ | .requestAllSymbol | .onOpen => True
  | .receive => world.receiveService ≠ []
  | .process _ => ∃ task rest, world.processService = task :: rest ∧
      ∀ depth, task.depth? = some depth → depth.InBounds
  | .front => world.frontService ≠ []
  | .onClose client => client < world.nextClient

omit [Double F] in
theorem dispatch_isSome_iff {handler : Handler F Unit} {world : World F} :
    (dispatch handler world).isSome ↔ ∀ next, handler.run world ≠ .error .undefined next := by
  unfold dispatch
  split
  · rename_i hrun
    simp [hrun]
  · rename_i hrun
    simp [hrun]
  · rename_i hrun
    simp [hrun]

omit [Double F] in
theorem processSymbolsPackage_defined (package : Package F) (data : SymbolData)
    (world next : World F) :
    (FrontServer.processSymbolsPackage package data).run world ≠ .error .undefined next := by
  by_cases hvalid : ∀ symbol ∈ data.symbols, symbol.ValidUtf8
  · obtain ⟨text, _, hrun⟩ := run_processSymbolsPackage_valid package hvalid world
    simp [hrun]
  · simp [run_processSymbolsPackage_invalid package hvalid]

theorem front_defined {package : Package F} (hpackage : FrontPackage package)
    (world next : World F) :
    (FrontServer.handleResponseMessage .untouched package).run world ≠ .error .undefined next := by
  unfold FrontServer.handleResponseMessage
  simp only [EStateM.run_bind, run_record]
  cases hpackage with
  | @enhanced packageId data depth hdata =>
    simp only [enhancedPackage, run_processEnhanceddataPackage _ hdata]
    cases hencoded : EnhancedDepthData.encode depth with
    | ok text => simp
    | error failure =>
      rintro ⟨⟩
      exact Json.dump_ne_undefined _ hencoded
  | announcement packageId symbol => exact processSymbolsPackage_defined _ _ _ next
  | answer keys => exact processSymbolsPackage_defined _ _ _ next

/-- An update is handled if and only if it stays within the level arrays. -/
theorem response_isSome_iff (memory : EnhancedDepthData F) (packageId : Int32)
    (depth : SDepthData F) (world : World F) :
    (dispatch (DataProcess.processSdepthPackage .untouched memory (depthPackage packageId depth))
      world).isSome ↔ depth.InBounds := by
  rw [dispatch_isSome_iff]
  by_cases hbounds : depth.InBounds
  · obtain ⟨data, hinit, _⟩ := memory.init_ok hbounds
    rw [run_processSdepthPackage_untouched memory packageId hinit]
    exact iff_of_true (by simp) hbounds
  · rw [run_processSdepthPackage_undefined .untouched memory packageId hbounds]
    exact iff_of_false (fun hdefined => hdefined world rfl) hbounds

omit [Double F] in
theorem onOpen_defined (client : Client) (world next : World F) :
    (WBServer.onOpen client).run world ≠ .error .undefined next := by
  rw [run_onOpen]
  cases hencoded : (listDocument F "symbol" world.symbols).dump with
  | ok text => simp
  | error failure =>
    rintro ⟨⟩
    exact Json.dump_ne_undefined _ hencoded

theorem step_isSome_iff {world : World F} (hshaped : Shaped world) (event : Event F) :
    (step world event).isSome ↔ event.Enabled world := by
  cases event with
  | onDepth depth => exact iff_of_true rfl trivial
  | requestAllSymbol => exact iff_of_true rfl trivial
  | receive =>
    simp only [step, stepReading, Event.Enabled]
    cases hqueue : world.receiveService with
    | nil => simp
    | cons task rest =>
      cases hshaped.receive task (hqueue ▸ List.mem_cons_self) with
      | depth depth => exact iff_of_true rfl (List.cons_ne_nil _ _)
  | process memory =>
    simp only [step, stepReading, Event.Enabled]
    cases hqueue : world.processService with
    | nil => simp
    | cons task rest =>
      cases hshaped.process task (hqueue ▸ List.mem_cons_self) with
      | response packageId depth =>
        refine (response_isSome_iff memory packageId depth _).trans ⟨fun hbounds => ?_, ?_⟩
        · refine ⟨_, _, rfl, ?_⟩
          rintro _ ⟨⟩
          exact hbounds
        · rintro ⟨_, _, ⟨⟩, hall⟩
          exact hall depth rfl
      | request requestId =>
        refine iff_of_true (dispatch_isSome_iff.mpr fun next => ?_) ⟨_, _, rfl, by simp [ProcessTask.depth?]⟩
        change (DataProcess.handleRequestMessage ⟨.symbolData, requestId⟩).run _ ≠ _
        simp [run_handleRequestMessage]
  | front =>
    simp only [step, stepReading, Event.Enabled]
    cases hqueue : world.frontService with
    | nil => simp
    | cons package rest =>
      have hpackage := hshaped.front package (hqueue ▸ List.mem_cons_self)
      exact iff_of_true (dispatch_isSome_iff.mpr (front_defined hpackage _))
        (List.cons_ne_nil _ _)
  | onOpen => exact iff_of_true (dispatch_isSome_iff.mpr (onOpen_defined _ _)) trivial
  | onClose client =>
    simp only [step, stepReading, Event.Enabled]
    by_cases hclient : client < world.nextClient
    · rw [if_pos hclient]
      refine iff_of_true (dispatch_isSome_iff.mpr fun next => ?_) hclient
      simp [run_onClose]
    · rw [if_neg hclient]
      exact iff_of_false (by simp) hclient

/-- The events by which a station handles the head of its queue. -/
def Event.Handles : Event F → Prop
  | .receive | .process _ | .front => True
  | _ => False

/-- How many handlers the waiting tasks can still cause: an update at the first
station is forwarded, then turned into at most two packages. -/
def World.work (world : World F) : Nat :=
  4 * world.receiveService.length + 3 * world.processService.length + world.frontService.length

omit [Double F] in
theorem quiescent_of_work {world : World F} (h : world.work = 0) : world.Quiescent := by
  unfold World.work at h
  exact ⟨List.eq_nil_of_length_eq_zero (by omega), List.eq_nil_of_length_eq_zero (by omega),
    List.eq_nil_of_length_eq_zero (by omega)⟩

theorem Outcome.work_lt {world next : World F} {event : Event F}
    (h : Outcome world event next) (hhandles : event.Handles) : next.work < world.work := by
  unfold World.work
  cases h with
  | receive hqueue => simp [hqueue]; omega
  | known hqueue => simp [hqueue]; omega
  | new hqueue => simp [hqueue]; omega
  | serve hqueue => simp [hqueue]; omega
  | publish hqueue => simp [hqueue]
  | merge hqueue => simp [hqueue]
  | fail hqueue => simp [hqueue]
  | _ => cases hhandles

/-- The updates that wait to be accumulated stay within the level arrays. -/
structure World.Bounded (world : World F) : Prop where
  receive : ∀ depth ∈ world.receiveDepths, depth.InBounds
  process : ∀ depth ∈ world.processDepths, depth.InBounds

theorem Outcome.bounded {world next : World F} {event : Event F}
    (h : Outcome world event next) (hhandles : event.Handles) (hworld : world.Bounded) :
    next.Bounded := by
  obtain ⟨hreceive, hprocess⟩ := hworld
  simp only [World.receiveDepths] at hreceive
  simp only [World.processDepths] at hprocess
  cases h with
  | receive hqueue =>
    rw [hqueue, filterMap_cons_toList] at hreceive
    obtain ⟨hdepth, hrest⟩ := List.forall_mem_append.mp hreceive
    refine ⟨hrest, ?_⟩
    rw [World.processDepths, List.filterMap_append]
    exact List.forall_mem_append.mpr ⟨hprocess, hdepth⟩
  | known hqueue =>
    rw [hqueue, filterMap_cons_toList] at hprocess
    exact ⟨hreceive, (List.forall_mem_append.mp hprocess).2⟩
  | new hqueue =>
    rw [hqueue, filterMap_cons_toList] at hprocess
    exact ⟨hreceive, (List.forall_mem_append.mp hprocess).2⟩
  | serve hqueue =>
    rw [hqueue, filterMap_cons_toList] at hprocess
    exact ⟨hreceive, hprocess⟩
  | publish => exact ⟨hreceive, hprocess⟩
  | merge => exact ⟨hreceive, hprocess⟩
  | fail => exact ⟨hreceive, hprocess⟩
  | _ => cases hhandles

omit [Double F] in
/-- While anything waits, the station that is furthest down the chain can go on. -/
theorem exists_enabled {world : World F} (hbounded : world.Bounded) (hwork : 0 < world.work)
    (memory : EnhancedDepthData F) :
    ∃ event : Event F, event.Handles ∧ event.Enabled world := by
  cases hfront : world.frontService with
  | cons package rest => exact ⟨.front, trivial, by simp [Event.Enabled, hfront]⟩
  | nil =>
    cases hprocess : world.processService with
    | cons task rest =>
      refine ⟨.process memory, trivial, task, rest, hprocess, fun depth hdepth => ?_⟩
      apply hbounded.process
      rw [World.processDepths, hprocess, filterMap_cons_toList, hdepth]
      exact List.mem_append_left _ (List.mem_singleton.mpr rfl)
    | nil =>
      refine ⟨.receive, trivial, fun hreceive => ?_⟩
      simp [World.work, hfront, hprocess, hreceive] at hwork

theorem run_bounded {events : List (Event F)} {world : World F}
    (hbounds : ∀ depth ∈ hubCalls events, depth.InBounds)
    (hrun : run (World.initial F) events = some world) : world.Bounded := by
  rw [← run_calls hrun, ← run_conserved hrun, List.forall_mem_append,
    List.forall_mem_append] at hbounds
  exact ⟨hbounds.2, hbounds.1.2⟩

/-- Every run of updates within the level arrays can be continued, by handlers
alone, until nothing waits anywhere. -/
theorem run_drains {events : List (Event F)} {world : World F}
    (hbounds : ∀ depth ∈ hubCalls events, depth.InBounds)
    (hrun : run (World.initial F) events = some world) (memory : EnhancedDepthData F) :
    ∃ handling final, (∀ event ∈ handling, event.Handles) ∧
      run world handling = some final ∧ final.Quiescent := by
  have hprogress : ∀ {world : World F}, Shaped world ∧ world.Bounded → 0 < world.work →
      ∃ event next, event.Handles ∧ step world event = some next ∧
        (Shaped next ∧ next.Bounded) ∧ next.work < world.work := by
    intro world hworld hwork
    obtain ⟨event, hhandles, henabled⟩ := exists_enabled hworld.2 hwork memory
    obtain ⟨next, hnext⟩ :=
      Option.isSome_iff_exists.mp ((step_isSome_iff hworld.1 event).mpr henabled)
    have houtcome := step_outcome hworld.1 hnext
    exact ⟨event, next, hhandles, hnext,
      ⟨houtcome.shaped hworld.1, houtcome.bounded hhandles hworld.2⟩, houtcome.work_lt hhandles⟩
  obtain ⟨handling, final, hhandles, hfinal, _, hzero⟩ := Transition.run_exhausts
    (P := fun world : World F => Shaped world ∧ world.Bounded) World.work Event.Handles hprogress
    ⟨run_shaped hrun, run_bounded hbounds hrun⟩
  exact ⟨handling, final, hhandles, hfinal, quiescent_of_work hzero⟩

end MarketServer
