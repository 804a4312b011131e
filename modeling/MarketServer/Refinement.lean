import MarketServer.Invariants
import MarketServer.Library.Replica

/-! The two symbol stores as a source and its replica. The keys of `depth_data_`
are the source, `symbols_` is the replica, and the queue of `FrontServer` is the
log between them. Every step of the server is a few steps of the replica. -/
namespace MarketServer
open Library

variable {F : Type} [Component F]

/-- What a package tells `FrontServer` about the symbols. -/
def Package.tells? (package : Package F) : Option (Replica.Entry Bytes) :=
  match package.creator, package.field with
  | .processSdepthPackage, .enhancedDepthData data => some (.mention data.depthData.symbol)
  | .processNewSymbol, .symbolData data => data.symbols.toList.head?.map .add
  | .requestSymbolData, .symbolData data => some (.full {symbol | symbol ∈ data.symbols})
  | _, _ => none

@[simp] theorem tells?_enhancedPackage (packageId : Int32) (data : EnhancedDepthData F) :
    (enhancedPackage packageId data).tells? = some (.mention data.depthData.symbol) := rfl

@[simp] theorem tells?_announcement (packageId : Int32) (symbol : Bytes) :
    (announcement F packageId symbol).tells? = some (.add symbol) := rfl

@[simp] theorem tells?_answer (keys : OrderedSet Bytes) :
    (answer F keys).tells? = some (.full {symbol | symbol ∈ keys}) := rfl

def World.replica (world : World F) : Replica.State Bytes where
  source := {symbol | symbol ∈ world.depthData.keys}
  log := world.frontService.filterMap Package.tells?
  held := {symbol | symbol ∈ world.symbols}

/-- The symbols announced to `FrontServer` that it has not handled yet. -/
def World.waiting (world : World F) : List Bytes :=
  world.frontService.flatMap Package.announced

variable [Double F]

theorem added_entries {queue : List (Package F)} (hqueue : ∀ package ∈ queue, FrontPackage package) :
    Replica.added (queue.filterMap Package.tells?) = queue.flatMap Package.announced := by
  induction queue with
  | nil => rfl
  | cons package rest ih =>
    have hrest := ih fun other hother => hqueue other (List.mem_cons_of_mem package hother)
    rw [List.flatMap_cons, ← hrest, filterMap_cons_toList]
    cases hqueue package List.mem_cons_self <;> rfl

theorem merge_read {target : OrderedSet Bytes} {package : Package F} {data : SymbolData}
    {entry : Replica.Entry Bytes} (hpackage : FrontPackage package)
    (hdata : package.symbolData? = some data) (hentry : package.tells? = some entry) :
    {symbol | symbol ∈ (target.merge data.symbols).1} = entry.read {symbol | symbol ∈ target} := by
  ext other
  obtain ⟨packageId, symbol, rfl, rfl⟩ | ⟨keys, rfl, rfl⟩ := hpackage.symbols_cases hdata
  · cases hentry
    simp [Replica.Entry.read, or_comm]
  · cases hentry
    simp [Replica.Entry.read]

theorem FrontPackage.tells?_isSome {package : Package F} (h : FrontPackage package) :
    ∃ entry, package.tells? = some entry := by
  cases h <;> exact ⟨_, rfl⟩

/-- Every step of the server is a run of the replica, of two steps where a new
symbol is announced and mentioned and of at most one elsewhere. -/
theorem Outcome.simulates {world next : World F} {event : Event F}
    (h : Outcome world event next) (hvalid : world.ValidTexts) :
    Relation.ReflTransGen Replica.Step world.replica next.replica := by
  unfold World.replica
  cases h with
  | known hqueue hdata hknown =>
    refine .single ?_
    simp only [List.filterMap_append, filterMap_cons_toList, tells?_enhancedPackage, hdata.stored]
    exact .mention _ hknown
  | @new _ _ depth _ data hqueue hdata hnew =>
    have hsource : {symbol | symbol ∈ (world.depthData.assign depth.symbol data).keys} =
        insert depth.symbol {symbol | symbol ∈ world.depthData.keys} := by
      ext symbol
      simp [OrderedMap.keys_assign]
    have hannounced : Replica.Step world.replica ⟨insert depth.symbol world.replica.source,
        world.replica.log ++ [.add depth.symbol], world.replica.held⟩ := .announce _ hnew
    have hmentioned : Replica.Step ⟨insert depth.symbol world.replica.source,
        world.replica.log ++ [.add depth.symbol], world.replica.held⟩
        ⟨insert depth.symbol world.replica.source,
          world.replica.log ++ [.add depth.symbol] ++ [.mention depth.symbol],
          world.replica.held⟩ := .mention _ (Set.mem_insert _ _)
    rw [List.append_assoc] at hmentioned
    simp only [hsource, List.filterMap_append, filterMap_cons_toList, tells?_enhancedPackage,
      tells?_announcement, hdata.stored]
    exact .tail (.single hannounced) hmentioned
  | serve hqueue =>
    refine .single ?_
    simp only [List.filterMap_append, filterMap_cons_toList, tells?_answer]
    exact .list
  | publish hqueue hdepth hpackage =>
    obtain ⟨packageId, data, rfl, _⟩ := hpackage.eq_enhanced hdepth
    simp only [hqueue, filterMap_cons_toList, tells?_enhancedPackage]
    exact .single .read
  | merge hqueue hdata hpackage =>
    refine .single ?_
    obtain ⟨entry, hentry⟩ := hpackage.tells?_isSome
    simp only [merge_read hpackage hdata hentry, hqueue, filterMap_cons_toList, hentry]
    exact .read
  | fail hqueue hpackage hinvalid =>
    exact absurd (hvalid.head hqueue) hinvalid
  | _ => exact .refl

omit [Double F] in
theorem consistent_initial : Replica.Consistent (World.initial F).replica := by
  have hinitial : (World.initial F).replica = Replica.State.initial := by
    simp [World.replica, World.initial, Replica.State.initial]
  rw [hinitial]
  exact Replica.consistent_initial

theorem run_consistent {events : List (Event F)} {world : World F}
    (hvalid : ∀ event ∈ events, event.ValidTexts)
    (hrun : run (World.initial F) events = some world) : Replica.Consistent world.replica :=
  run_invariant_valid (P := fun world => Replica.Consistent world.replica) consistent_initial
    (fun hvalid hworld houtcome =>
      Replica.consistent_of_steps (houtcome.simulates hvalid) hworld) hvalid hrun

/-! What the package at the head of the queue says, now that both stores agree. -/
section Head

variable {world : World F} {rest : List (Package F)}

omit [Double F] in
theorem announcement_fresh (h : Replica.Consistent world.replica) {packageId : Int32}
    {symbol : Bytes} (hqueue : world.frontService = announcement F packageId symbol :: rest) :
    symbol ∉ world.symbols := by
  simp only [Replica.Consistent, World.replica, hqueue, filterMap_cons_toList,
    tells?_announcement] at h
  exact h.1

omit [Double F] in
theorem answer_eq_symbols (h : Replica.Consistent world.replica) {keys : OrderedSet Bytes}
    (hqueue : world.frontService = answer F keys :: rest) : keys = world.symbols := by
  simp only [Replica.Consistent, World.replica, hqueue, filterMap_cons_toList,
    tells?_answer] at h
  ext symbol
  exact Set.ext_iff.mp h.1 symbol

omit [Double F] in
/-- An announced symbol moves over, and nothing is left in the package. -/
theorem merge_announcement (h : Replica.Consistent world.replica) {packageId : Int32}
    {symbol : Bytes} (hqueue : world.frontService = announcement F packageId symbol :: rest) :
    (world.symbols.merge (.singleton symbol)).2 = ∅ := by
  apply OrderedSet.merge_snd_of_disjoint
  intro other hother
  rw [OrderedSet.mem_singleton.mp hother]
  exact announcement_fresh h hqueue

omit [Double F] in
/-- An answer lists what is known already, so everything is left in the package. -/
theorem merge_answer (h : Replica.Consistent world.replica) {keys : OrderedSet Bytes}
    (hqueue : world.frontService = answer F keys :: rest) :
    world.symbols.merge keys = (world.symbols, keys) := by
  apply OrderedSet.merge_of_subset
  intro symbol hsymbol
  exact answer_eq_symbols h hqueue ▸ hsymbol

theorem depth_symbol_known (h : Replica.Consistent world.replica) {package : Package F}
    {depth : SDepthData F} (hpackage : FrontPackage package)
    (hdepth : package.depth? = some depth) (hqueue : world.frontService = package :: rest) :
    depth.symbol ∈ world.symbols := by
  obtain ⟨packageId, data, rfl, hdata⟩ := hpackage.eq_enhanced hdepth
  simp only [Replica.Consistent, World.replica, hqueue, filterMap_cons_toList,
    tells?_enhancedPackage, hdata.stored] at h
  exact h.1

end Head

end MarketServer
