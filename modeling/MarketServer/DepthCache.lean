import MarketServer.Outcome
import MarketServer.Exact

/-! What `depth_data_` remembers of the updates `DataProcess` handled. Only the
first update of a symbol is stored; the later ones pass by the map. -/
namespace MarketServer
open Library

variable {F : Type} [Component F]

/-- An update package with the memory its new object is built in, or a request
for the full list. -/
inductive CacheTask (F : Type) where
  | update (memory : EnhancedDepthData F) (packageId : Int32) (depth : SDepthData F)
  | request (requestId : UInt64)

def CacheTask.depth? : CacheTask F → Option (SDepthData F)
  | .update _ _ depth => some depth
  | .request _ => none

/-- The updates of one symbol among the tasks, in the order they are handled. -/
def updatesOf (symbol : Bytes) (tasks : List (CacheTask F)) : List (SDepthData F) :=
  (tasks.filterMap CacheTask.depth?).filter fun depth => depth.symbol = symbol

omit [Component F] in
theorem updatesOf_cons (symbol : Bytes) (task : CacheTask F) (rest : List (CacheTask F)) :
    updatesOf symbol (task :: rest) = updatesOf symbol [task] ++ updatesOf symbol rest := by
  unfold updatesOf
  rw [← List.filter_append, ← List.filterMap_append, List.singleton_append]

variable [Double F]

def CacheTask.handler : CacheTask F → Handler F Unit
  | .update memory packageId depth =>
    DataProcess.processSdepthPackage .untouched memory (depthPackage packageId depth)
  | .request requestId => DataProcess.handleRequestMessage ⟨.symbolData, requestId⟩

def handleAll (tasks : List (CacheTask F)) : Handler F Unit := forM tasks CacheTask.handler

/-- The map holds the chosen update of each symbol with its accumulated volumes,
and nothing for a symbol without one. -/
def Caches (map : OrderedMap Bytes (EnhancedDepthData F))
    (chosen : Bytes → Option (SDepthData F)) : Prop :=
  ∀ symbol, Option.Rel EnhancedDepthData.Holds (map.find symbol) (chosen symbol)

omit [Component F] in
theorem stored_of_rel {found : Option (EnhancedDepthData F)} {depth : Option (SDepthData F)}
    (h : Option.Rel EnhancedDepthData.Holds found depth) :
    depth = found.map EnhancedDepthData.depthData := by
  cases h with
  | some h => rw [Option.map_some, h.stored]
  | none => rfl

omit [Component F] in
theorem Caches.unique {map : OrderedMap Bytes (EnhancedDepthData F)}
    {first second : Bytes → Option (SDepthData F)} (hfirst : Caches map first)
    (hsecond : Caches map second) : first = second := by
  funext symbol
  rw [stored_of_rel (hfirst symbol), stored_of_rel (hsecond symbol)]

omit [Component F] in
theorem Caches.isSome_iff {map : OrderedMap Bytes (EnhancedDepthData F)}
    {chosen : Bytes → Option (SDepthData F)} (h : Caches map chosen) (symbol : Bytes) :
    (chosen symbol).isSome ↔ symbol ∈ map.keys := by
  rw [stored_of_rel (h symbol), Option.isSome_map, OrderedMap.mem_keys_iff]

/-- A task only ever adds the first update of a symbol. -/
theorem handler_caches {task : CacheTask F} {world next : World F}
    {chosen : Bytes → Option (SDepthData F)} (hworld : Caches world.depthData chosen)
    (hrun : task.handler.run world = .ok () next) :
    Caches next.depthData fun symbol => (chosen symbol).or (updatesOf symbol [task]).head? := by
  cases task with
  | request requestId =>
    unfold CacheTask.handler at hrun
    rw [run_handleRequestMessage] at hrun
    cases hrun
    simpa [updatesOf, CacheTask.depth?] using hworld
  | update memory packageId depth =>
    unfold CacheTask.handler at hrun
    by_cases hbounds : depth.InBounds
    · obtain ⟨data, hinit, hdata⟩ := memory.init_ok hbounds
      rw [run_processSdepthPackage_untouched memory packageId hinit] at hrun
      cases hrun
      intro symbol
      by_cases hknown : depth.symbol ∈ world.depthData.keys
      · by_cases heq : depth.symbol = symbol
        · subst heq
          obtain ⟨stored, hstored⟩ := Option.isSome_iff_exists.mp
            ((hworld.isSome_iff depth.symbol).mpr hknown)
          simpa [hknown, hstored] using hworld depth.symbol
        · simpa [hknown, updatesOf, CacheTask.depth?, heq] using hworld symbol
      · by_cases heq : depth.symbol = symbol
        · subst heq
          have hnone : chosen depth.symbol = none := by
            rw [← Option.not_isSome_iff_eq_none, hworld.isSome_iff]
            exact hknown
          simpa [hknown, hnone, updatesOf, CacheTask.depth?, OrderedMap.find_assign] using hdata
        · simpa [hknown, updatesOf, CacheTask.depth?, heq, OrderedMap.find_assign] using
            hworld symbol
    · rw [run_processSdepthPackage_undefined .untouched memory packageId hbounds] at hrun
      cases hrun

theorem run_handleAll_cons (task : CacheTask F) (rest : List (CacheTask F)) (world : World F) :
    (handleAll (task :: rest)).run world =
      match task.handler.run world with
      | .ok _ next => (handleAll rest).run next
      | .error failure next => .error failure next := by
  unfold handleAll
  rw [List.forM_cons, EStateM.run_bind]
  cases task.handler.run world <;> rfl

theorem handleAll_caches {tasks : List (CacheTask F)} {world final : World F}
    {chosen : Bytes → Option (SDepthData F)} (hworld : Caches world.depthData chosen)
    (hrun : (handleAll tasks).run world = .ok () final) :
    Caches final.depthData fun symbol => (chosen symbol).or (updatesOf symbol tasks).head? := by
  induction tasks generalizing world chosen with
  | nil =>
    cases hrun
    simpa [updatesOf] using hworld
  | cons task rest ih =>
    rw [run_handleAll_cons] at hrun
    split at hrun
    · rename_i next hnext
      have hrest := ih (handler_caches hworld hnext) hrun
      simpa only [updatesOf_cons _ task rest, List.head?_append, Option.or_assoc] using hrest
    · cases hrun

/-- Within the level arrays no task fails. -/
theorem handleAll_ok (tasks : List (CacheTask F))
    (hbounds : ∀ depth ∈ tasks.filterMap CacheTask.depth?, depth.InBounds) (world : World F) :
    ∃ final, (handleAll tasks).run world = .ok () final := by
  induction tasks generalizing world with
  | nil => exact ⟨world, rfl⟩
  | cons task rest ih =>
    rw [filterMap_cons_toList, List.forall_mem_append] at hbounds
    rw [run_handleAll_cons]
    cases task with
    | request requestId =>
      simp only [CacheTask.handler, run_handleRequestMessage]
      exact ih hbounds.2 _
    | update memory packageId depth =>
      obtain ⟨data, hinit, _⟩ := memory.init_ok (hbounds.1 depth (List.mem_singleton.mpr rfl))
      simp only [CacheTask.handler, run_processSdepthPackage_untouched memory packageId hinit]
      exact ih hbounds.2 _

/-- The map holds the last update of every symbol if and only if no symbol had
two different ones at both ends. -/
theorem cache_holds_latest_iff {tasks : List (CacheTask F)} {world final : World F}
    (hempty : world.depthData = ∅) (hrun : (handleAll tasks).run world = .ok () final) :
    (Caches final.depthData fun symbol => (updatesOf symbol tasks).getLast?) ↔
      ∀ symbol, (updatesOf symbol tasks).head? = (updatesOf symbol tasks).getLast? := by
  have hworld : Caches world.depthData fun _ => none := by
    intro symbol
    rw [hempty]
    exact .none
  have hfirst : Caches final.depthData fun symbol => (updatesOf symbol tasks).head? := by
    simpa using handleAll_caches hworld hrun
  constructor
  · intro hlast symbol
    exact congrFun (hfirst.unique hlast) symbol
  · intro hsame
    simpa only [hsame] using hfirst

def laterDepth : SDepthData ℚ := { btcDepth with tick := 1 }

/-- An update of the same symbol with two levels, and one of another symbol. -/
def levelDepth : SDepthData ℚ :=
  { btcDepth with asks := Vector.replicate depchLevelCount ⟨⟨15, 1⟩, 2⟩, askLength := 2 }

def otherDepth : SDepthData ℚ := { levelDepth with symbol := .ofLiteral "LTC" }

/-- The last update of BTC has the data of the first, with another one in between. -/
def sampleTasks : List (CacheTask ℚ) :=
  [.update zeroMemory 0 levelDepth, .update zeroMemory 1 otherDepth,
    .update zeroMemory 2 laterDepth, .request 7, .update zeroMemory 3 levelDepth]

def repeatedTasks : List (CacheTask ℚ) :=
  [.update zeroMemory 0 btcDepth, .update zeroMemory 1 laterDepth]

theorem cache_holds_latest_iff_sample :
    ∃ final, (handleAll sampleTasks).run (World.initial ℚ) = .ok () final ∧
      Caches final.depthData fun symbol => (updatesOf symbol sampleTasks).getLast? := by
  obtain ⟨final, hrun⟩ := handleAll_ok sampleTasks (by decide) (World.initial ℚ)
  refine ⟨final, hrun, (cache_holds_latest_iff rfl hrun).mpr fun symbol => ?_⟩
  have hupdates : updatesOf symbol sampleTasks =
      [levelDepth, otherDepth, laterDepth, levelDepth].filter fun depth => depth.symbol = symbol :=
    rfl
  have hlevel : levelDepth.symbol = laterDepth.symbol := rfl
  have hother : otherDepth.symbol ≠ laterDepth.symbol := by decide
  rw [hupdates]
  by_cases hbtc : laterDepth.symbol = symbol
  · have hltc : otherDepth.symbol ≠ symbol := hbtc ▸ hother
    simp [hlevel, hbtc, hltc]
  · by_cases hltc : otherDepth.symbol = symbol
    · simp [hlevel, hbtc, hltc]
    · simp [hlevel, hbtc, hltc]

/-- Two different updates of one symbol: the map keeps the first. -/
theorem cache_keeps_first :
    ∃ final, (handleAll repeatedTasks).run (World.initial ℚ) = .ok () final ∧
      ¬ Caches final.depthData fun symbol => (updatesOf symbol repeatedTasks).getLast? := by
  obtain ⟨final, hrun⟩ := handleAll_ok repeatedTasks (by decide) (World.initial ℚ)
  have hinitial : Caches (World.initial ℚ).depthData fun _ => none := fun _ => .none
  have hfirst := handleAll_caches hinitial hrun
  refine ⟨final, hrun, fun hlast => ?_⟩
  have hsame := congrArg (Option.map SDepthData.tick)
    (congrFun (hfirst.unique hlast) btcDepth.symbol)
  exact absurd hsame (by decide)

end MarketServer
