import MarketServer.Progress
import MarketServer.Exact

/-! Which indices the loops over the levels reach. The lengths of an update come
from the hub as they are, and all six loops trust them. -/
namespace MarketServer
open Library

variable {F : Type} [Double F]

/-- An encoder of single levels reads its arrays at the index it is given. -/
structure ReadsLevels (atom : Nat → Except Failure (Json F)) : Prop where
  inside : ∃ value : Nat → Json F, ∀ i < depchLevelCount, atom i = .ok (value i)
  outside : atom depchLevelCount = .error .undefined

theorem readsLevels_levelAtom (levels : Levels (SDepthLevelData F)) (accumulated : Levels F) :
    ReadsLevels (EnhancedDepthData.levelAtom levels accumulated) where
  inside := by
    refine ⟨fun i => .array [.float (levels.entry .empty i).price.getValue,
      .float (levels.entry .empty i).volume, .float (accumulated.entry 0 i)], fun i hi => ?_⟩
    unfold EnhancedDepthData.levelAtom
    rw [levels.read_of_lt .empty hi, accumulated.read_of_lt 0 hi]
    rfl
  outside := by
    unfold EnhancedDepthData.levelAtom
    rw [levels.read_of_le le_rfl]
    rfl

theorem readsLevels_plainAtom (levels : Levels (SDepthLevelData F)) :
    ReadsLevels (plainAtom levels) where
  inside := by
    refine ⟨fun i => .array [.float (levels.entry .empty i).price.getValue,
      .float (levels.entry .empty i).volume], fun i hi => ?_⟩
    unfold plainAtom
    rw [levels.read_of_lt .empty hi]
    rfl
  outside := by
    unfold plainAtom
    rw [levels.read_of_le le_rfl]
    rfl

omit [Double F] in
theorem ReadsLevels.fill_ok {atom : Nat → Except Failure (Json F)} (h : ReadsLevels atom)
    {length : Nat} (hlength : length ≤ depchLevelCount) :
    ∃ json, Json.fill (List.range length) atom = .ok json := by
  obtain ⟨value, hvalue⟩ := h.inside
  have hrender : ∀ i ∈ List.range length, atom i = .ok (value i) := by
    intro i hi
    have hlt := List.mem_range.mp hi
    exact hvalue i (by omega)
  exact ⟨_, Json.fill_eq hrender⟩

omit [Double F] in
theorem ReadsLevels.fill_undefined {atom : Nat → Except Failure (Json F)} (h : ReadsLevels atom)
    {length : Nat} (hlength : depchLevelCount < length) :
    Json.fill (List.range length) atom = .error .undefined := by
  obtain ⟨value, hvalue⟩ := h.inside
  obtain ⟨rest, hsplit⟩ := range_split hlength
  rw [hsplit]
  exact Json.fill_error (fun i hi => hvalue i (List.mem_range.mp hi)) h.outside

omit [Double F] in
theorem depthJson_undefined_iff {depth : SDepthData F} {ask bid : Nat → Except Failure (Json F)}
    (hask : ReadsLevels ask) (hbid : ReadsLevels bid) :
    depthJson depth ask bid = .error .undefined ↔ ¬ depth.InBounds := by
  unfold depthJson SDepthData.InBounds
  by_cases hasks : depth.askLength.toNat ≤ depchLevelCount
  · obtain ⟨asks, hasksOk⟩ := hask.fill_ok hasks
    by_cases hbids : depth.bidLength.toNat ≤ depchLevelCount
    · obtain ⟨bids, hbidsOk⟩ := hbid.fill_ok hbids
      rw [hasksOk, hbidsOk]
      simp only [hasks, hbids, and_self, not_true_eq_false, iff_false]
      intro hundefined
      cases hundefined
    · rw [hasksOk, hbid.fill_undefined (Nat.lt_of_not_le hbids)]
      simp only [hbids, and_false, not_false_eq_true, iff_true]
      rfl
  · rw [hask.fill_undefined (Nat.lt_of_not_le hasks)]
    simp only [hasks, false_and, not_false_eq_true, iff_true]
    rfl

variable [Component F]

omit [Double F] in
theorem bind_dump_undefined_iff (json : Except Failure (Json F)) :
    json >>= Json.dump = .error .undefined ↔ json = .error .undefined := by
  cases json with
  | ok json =>
    constructor
    · intro h
      exact absurd h json.dump_ne_undefined
    · intro h
      cases h
  | error failure =>
    constructor <;>
    · intro h
      cases h
      rfl

/-- No index the server uses for an update lies past an array: not in `init`,
whatever memory it overwrites, and not in the two encoders. -/
structure SDepthData.IndicesInBounds (depth : SDepthData F) : Prop where
  init : ∀ memory : EnhancedDepthData F, memory.init depth ≠ .error .undefined
  setJsonStr : ∀ object : EnhancedDepthData F, object.depthData = depth →
    object.getJsonStr ≠ .error .undefined
  toJsonStr : sDepthDataToJsonStr depth ≠ .error .undefined

/-- The indices stay in bounds exactly for the updates whose lengths do. -/
theorem level_indices_in_bounds_iff (depth : SDepthData F) :
    depth.IndicesInBounds ↔ depth.InBounds := by
  constructor
  · intro h
    by_contra hbounds
    have hplain := (depthJson_undefined_iff (readsLevels_plainAtom depth.asks)
      (readsLevels_plainAtom depth.bids)).mpr hbounds
    exact h.toJsonStr ((bind_dump_undefined_iff _).mpr hplain)
  · intro hbounds
    constructor
    · intro memory hundefined
      obtain ⟨result, hresult, _⟩ := memory.init_ok hbounds
      rw [hresult] at hundefined
      cases hundefined
    · rintro object rfl hundefined
      have hjson := (bind_dump_undefined_iff _).mp hundefined
      exact (depthJson_undefined_iff (readsLevels_levelAtom _ _)
        (readsLevels_levelAtom _ _)).mp hjson hbounds
    · intro hundefined
      have hjson := (bind_dump_undefined_iff _).mp hundefined
      exact (depthJson_undefined_iff (readsLevels_plainAtom _)
        (readsLevels_plainAtom _)).mp hjson hbounds

/-- The station that accumulates the volumes has no defined behaviour on any
other update. -/
theorem step_process_undefined {world : World F} {packageId : Int32} {depth : SDepthData F}
    {rest : List (ProcessTask F)} (hbounds : ¬ depth.InBounds)
    (hqueue : world.processService =
      .handleResponseMessage (depthPackage packageId depth) :: rest)
    (memory : EnhancedDepthData F) : step world (.process memory) = none := by
  rw [← Option.not_isSome_iff_eq_none]
  simp only [step, stepReading, hqueue]
  exact mt (response_isSome_iff memory packageId depth _).mp hbounds

/-- An update that declares one ask more than an array holds. -/
def longDepth : SDepthData ℚ := { btcDepth with askLength := 101 }

/-- Nothing on the way from the hub rejects such an update. -/
theorem level_indices_out_of_bounds :
    ¬ longDepth.IndicesInBounds ∧
      ∃ world, run (World.initial ℚ) [.onDepth longDepth, .receive] = some world ∧
        ∀ memory, step world (.process memory) = none := by
  have hbounds : ¬ longDepth.InBounds := by decide
  refine ⟨fun h => h.init zeroMemory (zeroMemory.init_undefined hbounds), _, rfl, ?_⟩
  exact step_process_undefined hbounds rfl

end MarketServer
