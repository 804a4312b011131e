import MarketServer.Outcome
import MarketServer.Exact

/-! What the clients are sent when symbols arrive. The package is encoded once
before the merge and once after it, and the merge takes the new symbols out of
the package in between. -/
namespace MarketServer
open Library

variable {F : Type} [Component F]

/-- A text lists one set only. -/
theorem listDocument_dump_inj {key : String} {left right : OrderedSet Bytes} {text : Text F}
    (hkey : key = "symbols" ∨ key = "symbol")
    (hleft : (listDocument F key left).dump = .ok text)
    (hright : (listDocument F key right).dump = .ok text) : left = right := by
  apply OrderedSet.ext
  intro symbol
  rw [OrderedSet.mem_def, OrderedSet.mem_def, ← symbolsRead_of_dump hkey hleft,
    symbolsRead_of_dump hkey hright]

theorem merge_snd_eq_iff {known update : OrderedSet Bytes} :
    (known.merge update).2 = update ↔ ∀ symbol ∈ update, symbol ∈ known := by
  constructor
  · intro heq symbol hsymbol
    rw [← heq] at hsymbol
    exact (OrderedSet.mem_merge_snd.mp hsymbol).2
  · intro hsub
    rw [OrderedSet.merge_of_subset hsub]

/-- The update is merged into the known symbols, and what is broadcast is the text
it was encoded to on arrival. -/
def UpdateBroadcast (package : Package F) (data : SymbolData) (world : World F) : Prop :=
  ∃ updatedSymbolsStr next,
    data.getJsonStr F = .ok updatedSymbolsStr ∧
      (FrontServer.processSymbolsPackage package data).run world = .ok () next ∧
      (∀ symbol, symbol ∈ next.symbols ↔ symbol ∈ world.symbols ∨ symbol ∈ data.symbols) ∧
      Log.broadcasts next.log =
        Log.broadcasts world.log ++ [⟨some package, updatedSymbolsStr⟩]

/-- A new symbol leaves the package before the text that is sent is made. -/
theorem UpdateBroadcast.subset {package : Package F} {data : SymbolData} {world : World F}
    (hvalid : ∀ symbol ∈ data.symbols, symbol.ValidUtf8)
    (h : UpdateBroadcast package data world) :
    ∀ symbol ∈ data.symbols, symbol ∈ world.symbols := by
  obtain ⟨updated, next, hupdated, hnext, _, hbroadcast⟩ := h
  obtain ⟨text, htext, hrun⟩ := run_processSymbolsPackage_valid package hvalid world
  cases hrun.symm.trans hnext
  have hsame : text = updated := by simpa using hbroadcast
  rw [SymbolData.getJsonStr_eq, ← hsame] at hupdated
  exact merge_snd_eq_iff.mp (listDocument_dump_inj (.inl rfl) htext hupdated)

/-- Every valid update is merged, and it is broadcast as received exactly when it
brings no new symbol. -/
theorem symbol_update_broadcast_iff (package : Package F) {data : SymbolData} (world : World F)
    (hvalid : ∀ symbol ∈ data.symbols, symbol.ValidUtf8) :
    (∃ next, (FrontServer.processSymbolsPackage package data).run world = .ok () next ∧
      ∀ symbol, symbol ∈ next.symbols ↔ symbol ∈ world.symbols ∨ symbol ∈ data.symbols) ∧
      (UpdateBroadcast package data world ↔ ∀ symbol ∈ data.symbols, symbol ∈ world.symbols) := by
  obtain ⟨text, htext, hrun⟩ := run_processSymbolsPackage_valid package hvalid world
  have hunion : ∀ symbol, symbol ∈ (world.symbols.merge data.symbols).1 ↔
      symbol ∈ world.symbols ∨ symbol ∈ data.symbols := fun _ => OrderedSet.mem_merge_fst
  refine ⟨⟨_, hrun, hunion⟩, fun h => h.subset hvalid, fun hsub => ?_⟩
  rw [merge_snd_eq_iff.mpr hsub] at htext
  have hencoded : data.getJsonStr F = .ok text := by rw [SymbolData.getJsonStr_eq, htext]
  exact ⟨text, _, hencoded, hrun, hunion, by simp⟩

/-- The only symbol of the sample update. -/
def btcUpdate : SymbolData := ⟨.singleton (.ofLiteral "BTC")⟩

theorem btcUpdate_valid : ∀ symbol ∈ btcUpdate.symbols, symbol.ValidUtf8 := by
  decide

theorem symbol_update_broadcast_iff_sample :
    (∀ symbol ∈ btcUpdate.symbols, symbol.ValidUtf8) ∧
      UpdateBroadcast (answer ℚ btcUpdate.symbols) btcUpdate
        { World.initial ℚ with symbols := btcUpdate.symbols } :=
  ⟨btcUpdate_valid, (symbol_update_broadcast_iff _ _ btcUpdate_valid).2.mpr fun _ h => h⟩

/-- The first update of all is merged and then broadcast as an empty list. -/
theorem symbol_update_not_broadcast :
    (∀ symbol ∈ btcUpdate.symbols, symbol.ValidUtf8) ∧
      ¬ UpdateBroadcast (announcement ℚ 0 (.ofLiteral "BTC")) btcUpdate (World.initial ℚ) := by
  refine ⟨btcUpdate_valid, fun h => ?_⟩
  have hknown := h.subset btcUpdate_valid (.ofLiteral "BTC") (OrderedSet.mem_singleton.mpr rfl)
  exact OrderedSet.not_mem_empty _ hknown

end MarketServer
