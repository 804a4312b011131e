import MarketServer.DataStruct

/-! What `init` leaves in an object and which documents the encoders build.
A depth update is encoded as a function of the update alone: neither the memory
`init` overwrites nor the array entries past the declared lengths show. -/
namespace MarketServer
open Library

theorem range_split {first length : Nat} (h : first < length) :
    ∃ rest, List.range length = List.range first ++ first :: rest := by
  refine ⟨(List.range (length - first - 1)).map (first + 1 + ·), ?_⟩
  have hlength : length = first + 1 + (length - first - 1) := by omega
  conv_lhs => rw [hlength, List.range_add, List.range_succ]
  simp

variable {F : Type} [Double F]

namespace EnhancedDepthData

/-- The volume of levels `0..i`, added in the order of the loop. -/
def runningVolume (levels : Levels (SDepthLevelData F)) : Nat → F
  | 0 => (levels.entry .empty 0).volume
  | i + 1 => (levels.entry .empty (i + 1)).volume + runningVolume levels i

theorem accumulateLevel_eq {levels : Levels (SDepthLevelData F)} {accumulated : Levels F} {i : Nat}
    (hi : i < depchLevelCount)
    (hprevious : ∀ j, i = j + 1 → accumulated.entry 0 j = runningVolume levels j) :
    accumulateLevel levels accumulated i = .ok (accumulated.set i (runningVolume levels i)) := by
  unfold accumulateLevel
  rw [levels.read_of_lt .empty hi]
  cases i with
  | zero => exact accumulated.write_of_lt _ hi
  | succ j =>
    have hj : j < depchLevelCount := by omega
    change (accumulated.read j >>= _) = _
    rw [accumulated.read_of_lt 0 hj, hprevious j rfl]
    exact accumulated.write_of_lt _ hi

theorem foldlM_accumulateLevel (levels : Levels (SDepthLevelData F)) (accumulated : Levels F)
    (n : Nat) (hn : n ≤ depchLevelCount) :
    ∃ result, (List.range n).foldlM (accumulateLevel levels) accumulated = .ok result ∧
      ∀ i, result.entry 0 i =
        if i < n then runningVolume levels i else accumulated.entry 0 i := by
  induction n with
  | zero => exact ⟨accumulated, rfl, fun i => by simp⟩
  | succ n ih =>
    obtain ⟨middle, hmiddle, hentries⟩ := ih (by omega)
    have hlevel : accumulateLevel levels middle n =
        .ok (middle.set n (runningVolume levels n)) := by
      apply accumulateLevel_eq hn
      intro j hj
      rw [hentries j, if_pos (by omega)]
    refine ⟨middle.set n (runningVolume levels n), ?_, ?_⟩
    · rw [List.range_succ, List.foldlM_append, hmiddle]
      change (accumulateLevel levels middle n >>= fun result => pure result) = _
      rw [hlevel]
      rfl
    · intro i
      rw [Levels.entry_set 0 middle _ hn, hentries i]
      by_cases heq : n = i
      · simp [heq]
      · have hiff : i < n + 1 ↔ i < n := by omega
        simp [heq, hiff]

theorem accumulate_ok (levels : Levels (SDepthLevelData F)) {length : UInt16}
    (hlength : length.toNat ≤ depchLevelCount) (accumulated : Levels F) :
    ∃ result, accumulate levels length accumulated = .ok result ∧
      ∀ i < length.toNat, result.entry 0 i = runningVolume levels i := by
  obtain ⟨result, hresult, hentries⟩ :=
    foldlM_accumulateLevel levels accumulated length.toNat hlength
  exact ⟨result, hresult, fun i hi => by rw [hentries i, if_pos hi]⟩

/-- A longer book makes the loop read the level right behind the array. -/
theorem accumulate_undefined (levels : Levels (SDepthLevelData F)) {length : UInt16}
    (hlength : depchLevelCount < length.toNat) (accumulated : Levels F) :
    accumulate levels length accumulated = .error .undefined := by
  obtain ⟨middle, hmiddle, _⟩ :=
    foldlM_accumulateLevel levels accumulated depchLevelCount le_rfl
  obtain ⟨rest, hsplit⟩ := range_split hlength
  have hlevel : accumulateLevel levels middle depchLevelCount = .error .undefined := by
    unfold accumulateLevel
    rw [levels.read_of_le le_rfl]
    rfl
  unfold accumulate
  rw [hsplit]
  exact foldlM_append_error hmiddle hlevel

/-- The object stores the update and, below the declared lengths, its accumulated
volumes. -/
structure Holds (object : EnhancedDepthData F) (depth : SDepthData F) : Prop where
  stored : object.depthData = depth
  inBounds : depth.InBounds
  asks : ∀ i < depth.askLength.toNat,
    object.askAccumulatedVolume.entry 0 i = runningVolume depth.asks i
  bids : ∀ i < depth.bidLength.toNat,
    object.bidAccumulatedVolume.entry 0 i = runningVolume depth.bids i

theorem init_ok (self : EnhancedDepthData F) {depth : SDepthData F} (h : depth.InBounds) :
    ∃ result, self.init depth = .ok result ∧ result.Holds depth := by
  obtain ⟨ask, hask, haskEntries⟩ := accumulate_ok depth.asks h.1 self.askAccumulatedVolume
  obtain ⟨bid, hbid, hbidEntries⟩ := accumulate_ok depth.bids h.2 self.bidAccumulatedVolume
  refine ⟨⟨ask, bid, depth⟩, ?_, rfl, h, haskEntries, hbidEntries⟩
  unfold init
  rw [hask, hbid]
  rfl

theorem init_undefined (self : EnhancedDepthData F) {depth : SDepthData F}
    (h : ¬ depth.InBounds) : self.init depth = .error .undefined := by
  unfold init
  by_cases hask : depth.askLength.toNat ≤ depchLevelCount
  · obtain ⟨ask, haskOk, _⟩ := accumulate_ok depth.asks hask self.askAccumulatedVolume
    have hbid : depchLevelCount < depth.bidLength.toNat := by
      by_contra hle
      exact h ⟨hask, Nat.le_of_not_lt hle⟩
    rw [haskOk, accumulate_undefined depth.bids hbid]
    rfl
  · rw [accumulate_undefined depth.asks (Nat.lt_of_not_le hask)]
    rfl

theorem holds_of_init {self result : EnhancedDepthData F} {depth : SDepthData F}
    (h : self.init depth = .ok result) : result.Holds depth := by
  by_cases hbounds : depth.InBounds
  · obtain ⟨other, hother, hholds⟩ := init_ok self hbounds
    cases hother.symm.trans h
    exact hholds
  · rw [init_undefined self hbounds] at h
    cases h

/-- Level `i` as it appears in a depth message. -/
def levelJson (levels : Levels (SDepthLevelData F)) (i : Nat) : Json F :=
  .array [.float (levels.entry .empty i).price.getValue, .float (levels.entry .empty i).volume,
    .float (runningVolume levels i)]

/-- The document of a depth message. -/
def document (depth : SDepthData F) : Json F :=
  .object [
    (.ofLiteral "ask_length", .unsigned depth.askLength.toUInt64),
    (.ofLiteral "asks", .ofItems ((List.range depth.askLength.toNat).map (levelJson depth.asks))),
    (.ofLiteral "bid_length", .unsigned depth.bidLength.toUInt64),
    (.ofLiteral "bids", .ofItems ((List.range depth.bidLength.toNat).map (levelJson depth.bids))),
    (.ofLiteral "exchange", .string depth.exchange),
    (.ofLiteral "seqno", .unsigned depth.seqno),
    (.ofLiteral "symbol", .string depth.symbol),
    (.ofLiteral "tick", .unsigned depth.tick)]

theorem fill_levelAtom {levels : Levels (SDepthLevelData F)} {length : UInt16}
    {accumulated : Levels F} (hlength : length.toNat ≤ depchLevelCount)
    (hentries : ∀ i < length.toNat, accumulated.entry 0 i = runningVolume levels i) :
    Json.fill (List.range length.toNat) (levelAtom levels accumulated) =
      .ok (.ofItems ((List.range length.toNat).map (levelJson levels))) := by
  apply Json.fill_eq
  intro i hi
  have hi : i < length.toNat := List.mem_range.mp hi
  have hcount : i < depchLevelCount := by omega
  unfold levelAtom
  rw [levels.read_of_lt .empty hcount, accumulated.read_of_lt 0 hcount, hentries i hi]
  rfl

theorem Holds.toJson_eq {self : EnhancedDepthData F} {depth : SDepthData F}
    (h : self.Holds depth) : self.toJson = .ok (document depth) := by
  unfold toJson depthJson
  rw [h.stored, fill_levelAtom h.inBounds.1 h.asks, fill_levelAtom h.inBounds.2 h.bids]
  rfl

theorem valid_levels {levels : Levels (SDepthLevelData F)} {indices : List Nat} :
    (Json.ofItems (indices.map (levelJson levels))).ValidUtf8 := by
  intro scalar hscalar
  rcases Json.mem_scalars_ofItems hscalar with rfl | ⟨item, hitem, hscalar⟩
  · trivial
  · obtain ⟨i, _, rfl⟩ := List.mem_map.mp hitem
    simp only [levelJson, Json.scalars, Json.itemScalars, List.append_nil, List.cons_append,
      List.nil_append, List.mem_cons, List.not_mem_nil, or_false] at hscalar
    rcases hscalar with rfl | rfl | rfl <;> trivial

theorem objectFree_levels {levels : Levels (SDepthLevelData F)} {indices : List Nat} :
    (Json.ofItems (indices.map (levelJson levels))).objectFree := by
  refine Json.objectFree_ofItems fun item hitem => ?_
  obtain ⟨i, _, rfl⟩ := List.mem_map.mp hitem
  rfl

/-- The keys of a depth message. -/
def documentKeys : List Bytes :=
  [.ofLiteral "ask_length", .ofLiteral "asks", .ofLiteral "bid_length", .ofLiteral "bids",
    .ofLiteral "exchange", .ofLiteral "seqno", .ofLiteral "symbol", .ofLiteral "tick"]

theorem documentKeys_ascending : documentKeys.Pairwise (· < ·) := by decide +kernel

theorem documentKeys_valid : ∀ key ∈ documentKeys, key.ValidUtf8 := by decide +kernel

theorem document_built (depth : SDepthData F) : (document depth).Built := by
  refine ⟨documentKeys_ascending, documentKeys_valid, ?_⟩
  simp only [List.forall_mem_cons]
  exact ⟨rfl, objectFree_levels, rfl, objectFree_levels, rfl, rfl, rfl, rfl,
    fun _ h => absurd h List.not_mem_nil⟩

theorem document_valid_iff {depth : SDepthData F} :
    (document depth).ValidUtf8 ↔ depth.ValidTexts := by
  have hscalars : (document depth).scalars =
      .unsigned depth.askLength.toUInt64 ::
        ((Json.ofItems ((List.range depth.askLength.toNat).map (levelJson depth.asks))).scalars ++
      .unsigned depth.bidLength.toUInt64 ::
        ((Json.ofItems ((List.range depth.bidLength.toNat).map (levelJson depth.bids))).scalars ++
      [.string depth.exchange, .unsigned depth.seqno, .string depth.symbol,
        .unsigned depth.tick])) := by
    simp [document, Json.scalars, Json.memberScalars, Json.valueScalars]
  unfold Json.ValidUtf8
  rw [hscalars]
  simp only [List.forall_mem_cons, List.forall_mem_append, Json.StringValid]
  constructor
  · rintro ⟨_, _, _, _, hexchange, _, hsymbol, _⟩
    exact ⟨hsymbol, hexchange⟩
  · rintro ⟨hsymbol, hexchange⟩
    exact ⟨trivial, valid_levels, trivial, valid_levels, hexchange, trivial, hsymbol, trivial,
      fun _ h => absurd h List.not_mem_nil⟩

variable [Component F]

/-- The text sent for an update, whatever memory its object was built in. -/
def encode (depth : SDepthData F) : Except Failure (Text F) := (document depth).dump

theorem Holds.getJsonStr_eq {self : EnhancedDepthData F} {depth : SDepthData F}
    (h : self.Holds depth) : self.getJsonStr = encode depth := by
  rw [getJsonStr, h.toJson_eq]
  rfl

theorem init_getJsonStr (self : EnhancedDepthData F) {depth : SDepthData F}
    (h : depth.InBounds) : (self.init depth >>= getJsonStr) = encode depth := by
  obtain ⟨result, hresult, hholds⟩ := self.init_ok h
  rw [hresult]
  exact hholds.getJsonStr_eq

end EnhancedDepthData

/-- A document with one member that lists a set of symbols in ascending order. -/
def listDocument (F : Type) (key : String) (symbols : OrderedSet Bytes) : Json F :=
  .object [(.ofLiteral key, .ofItems (symbols.toList.map .string))]

theorem fill_symbols (F : Type) (symbols : OrderedSet Bytes) :
    Json.fill symbols.toList (fun symbol => .ok (.string symbol)) =
      .ok (Json.ofItems (symbols.toList.map (.string (F := F)))) :=
  Json.fill_eq fun _ _ => rfl

theorem SymbolData.toJson_eq (F : Type) (data : SymbolData) :
    data.toJson F = .ok (listDocument F "symbols" data.symbols) := by
  unfold SymbolData.toJson
  rw [fill_symbols]
  rfl

theorem scalars_listDocument (F : Type) (key : String) (symbols : OrderedSet Bytes) :
    (listDocument F key symbols).scalars =
      (Json.ofItems (symbols.toList.map (.string (F := F)))).scalars := by
  simp [listDocument, Json.scalars, Json.memberScalars, Json.valueScalars]

theorem listDocument_valid_iff {F : Type} {key : String} {symbols : OrderedSet Bytes} :
    (listDocument F key symbols).ValidUtf8 ↔ ∀ symbol ∈ symbols, symbol.ValidUtf8 := by
  unfold Json.ValidUtf8
  rw [scalars_listDocument]
  constructor
  · intro h symbol hsymbol
    exact h (.string symbol) (Json.mem_scalars_ofItems_of_mem
      (List.mem_map.mpr ⟨symbol, hsymbol, rfl⟩) (List.mem_singleton.mpr rfl))
  · intro h scalar hscalar
    rcases Json.mem_scalars_ofItems hscalar with rfl | ⟨item, hitem, hscalar⟩
    · trivial
    · obtain ⟨symbol, hsymbol, rfl⟩ := List.mem_map.mp hitem
      cases List.mem_singleton.mp hscalar
      exact h symbol hsymbol

theorem listDocument_built (F : Type) (key : String) (symbols : OrderedSet Bytes) :
    (listDocument F key symbols).Built := by
  refine ⟨List.pairwise_singleton _ _, ?_, ?_⟩
  · rintro _ hkey
    cases List.mem_singleton.mp hkey
    exact Bytes.validUtf8_ofLiteral key
  · intro member hmember
    cases List.mem_singleton.mp hmember
    refine Json.objectFree_ofItems fun item hitem => ?_
    obtain ⟨symbol, _, rfl⟩ := List.mem_map.mp hitem
    rfl

theorem listDocument_lossless {F : Type} {key : String} {symbols : OrderedSet Bytes} :
    (listDocument F key symbols).Lossless := by
  unfold Json.Lossless
  rw [scalars_listDocument]
  intro scalar hscalar
  rcases Json.mem_scalars_ofItems hscalar with rfl | ⟨item, hitem, hscalar⟩
  · trivial
  · obtain ⟨symbol, _, rfl⟩ := List.mem_map.mp hitem
    cases List.mem_singleton.mp hscalar
    trivial

theorem listDocument_dump_ok {F : Type} [Component F] (key : String) {symbols : OrderedSet Bytes}
    (hvalid : ∀ symbol ∈ symbols, symbol.ValidUtf8) :
    ∃ text, (listDocument F key symbols).dump = .ok text :=
  Json.dump_ok_of_valid (listDocument_built F key symbols) (listDocument_valid_iff.mpr hvalid)

theorem listDocument_dump_error {F : Type} [Component F] {key : String}
    {symbols : OrderedSet Bytes} (hinvalid : ¬ ∀ symbol ∈ symbols, symbol.ValidUtf8) :
    (listDocument F key symbols).dump = .error (.typeError 316) :=
  Json.dump_of_invalid (listDocument_built F key symbols) (mt listDocument_valid_iff.mp hinvalid)

/-- The strings of an array, in order; a null is read as the empty list. -/
def Json.strings {F : Type} : Json F → List Bytes
  | .array items => items.filterMap fun
    | .string value => some value
    | _ => none
  | _ => []

/-- How a client reads a symbol list, under either of the keys the server uses. -/
def Json.symbolList {F : Type} (json : Json F) : List Bytes :=
  (((json.member "symbols").or (json.member "symbol")).map strings).getD []

theorem strings_ofItems {F : Type} (symbols : List Bytes) :
    (Json.ofItems (symbols.map (.string (F := F)))).strings = symbols := by
  cases symbols with
  | nil => rfl
  | cons symbol rest => simp [Json.ofItems, Json.strings, List.filterMap_map]

theorem symbolList_listDocument {F : Type} {key : String} (symbols : OrderedSet Bytes)
    (hkey : key = "symbols" ∨ key = "symbol") :
    (listDocument F key symbols).symbolList = symbols.toList := by
  have hmember : (listDocument F key symbols).symbolList =
      (Json.ofItems (symbols.toList.map (.string (F := F)))).strings := by
    rcases hkey with rfl | rfl <;> rfl
  rw [hmember, strings_ofItems]

/-- The symbols a client reads in a text. -/
def symbolsRead {F : Type} [Component F] (text : Text F) : List Bytes :=
  ((Component.parse text).map Json.symbolList).getD []

theorem symbolsRead_of_dump {F : Type} [Component F] {key : String} {symbols : OrderedSet Bytes}
    {text : Text F} (hkey : key = "symbols" ∨ key = "symbol")
    (h : (listDocument F key symbols).dump = .ok text) : symbolsRead text = symbols.toList := by
  unfold symbolsRead
  rw [Json.parse_of_dump h (listDocument_built F key symbols) listDocument_lossless]
  exact symbolList_listDocument symbols hkey

end MarketServer
