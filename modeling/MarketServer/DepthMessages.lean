import MarketServer.Tools
import MarketServer.Exact
import Mathlib.Algebra.BigOperators.Group.Finset.Basic

/-! What a depth message lists: its levels with the accumulated volumes, and how the
message of the plain encoder follows from it. -/
namespace MarketServer
open Library

variable {F : Type}

/-- The element of an array a reader finds at an index. -/
def Json.item (index : Nat) : Json F → Option (Json F)
  | .array items => items[index]?
  | _ => none

theorem Json.ofItems_eq_array_iff {items others : List (Json F)} :
    ofItems items = .array others ↔ items ≠ [] ∧ items = others := by
  cases items with
  | nil => simp [ofItems]
  | cons item rest => simp [ofItems]

theorem Json.item_ofItems (items : List (Json F)) (index : Nat) :
    (ofItems items).item index = items[index]? := by
  cases items with
  | nil => rfl
  | cons item rest => rfl

/-- The array without its third entry. -/
def Json.withoutThird : Json F → Json F
  | .array entries => .array (entries.eraseIdx 2)
  | other => other

/-- Every element of an array is changed. -/
def Json.mapItems (change : Json F → Json F) : Json F → Json F
  | .array items => .array (items.map change)
  | other => other

/-- A depth document without the third entry of every level. -/
def Json.withoutAccumulated : Json F → Json F
  | .object members => .object (members.map fun entry =>
      if entry.1 = .ofLiteral "asks" ∨ entry.1 = .ofLiteral "bids" then
        (entry.1, entry.2.mapItems withoutThird)
      else entry)
  | other => other

theorem Json.mapItems_ofItems (change : Json F → Json F) (items : List (Json F)) :
    (ofItems items).mapItems change = ofItems (items.map change) := by
  cases items with
  | nil => rfl
  | cons item rest => rfl

/-! What is deleted from a document takes no new scalar into it. -/

theorem Json.scalars_withoutThird_subset (json : Json F) :
    json.withoutThird.scalars ⊆ json.scalars := by
  cases json with
  | array entries =>
    intro scalar hscalar
    simp only [withoutThird, scalars, itemScalars_eq, List.mem_flatMap] at hscalar ⊢
    obtain ⟨entry, hentry, hscalar⟩ := hscalar
    exact ⟨entry, List.mem_of_mem_eraseIdx hentry, hscalar⟩
  | _ => exact List.Subset.refl _

theorem Json.scalars_mapItems_subset {change : Json F → Json F}
    (hchange : ∀ item, (change item).scalars ⊆ item.scalars) (json : Json F) :
    (json.mapItems change).scalars ⊆ json.scalars := by
  cases json with
  | array items =>
    intro scalar hscalar
    simp only [mapItems, scalars, itemScalars_eq, List.mem_flatMap, List.mem_map] at hscalar ⊢
    obtain ⟨_, ⟨item, hitem, rfl⟩, hscalar⟩ := hscalar
    exact ⟨item, hitem, hchange item hscalar⟩
  | _ => exact List.Subset.refl _

theorem Json.ValidUtf8.withoutAccumulated {json : Json F} (h : json.ValidUtf8) :
    json.withoutAccumulated.ValidUtf8 := by
  cases json with
  | object members =>
    intro scalar hscalar
    simp only [Json.withoutAccumulated, scalars, memberScalars_eq, List.mem_flatMap,
      List.mem_map] at hscalar
    obtain ⟨_, ⟨entry, hentry, rfl⟩, hscalar⟩ := hscalar
    apply h
    simp only [scalars, memberScalars_eq, List.mem_flatMap]
    refine ⟨entry, hentry, ?_⟩
    split at hscalar
    · exact scalars_mapItems_subset scalars_withoutThird_subset entry.2 hscalar
    · exact hscalar
  | _ => exact h

/-! Nor does it take an object in, and the keys stay. -/

theorem Json.objectFree_withoutThird {json : Json F} (h : json.objectFree) :
    json.withoutThird.objectFree := by
  cases json with
  | array entries =>
    exact itemsObjectFree_iff.mpr fun entry hentry =>
      itemsObjectFree_iff.mp h entry (List.mem_of_mem_eraseIdx hentry)
  | _ => exact h

theorem Json.objectFree_mapItems {change : Json F → Json F}
    (hchange : ∀ {item : Json F}, item.objectFree → (change item).objectFree) {json : Json F}
    (h : json.objectFree) : (json.mapItems change).objectFree := by
  cases json with
  | array items =>
    refine itemsObjectFree_iff.mpr fun _ hchanged => ?_
    obtain ⟨item, hitem, rfl⟩ := List.mem_map.mp hchanged
    exact hchange (itemsObjectFree_iff.mp h item hitem)
  | _ => exact h

theorem Json.Built.withoutAccumulated {json : Json F} (h : json.Built) :
    json.withoutAccumulated.Built := by
  cases json with
  | object members =>
    obtain ⟨hascending, hvalid, hfree⟩ := h
    have hkeys : (members.map fun entry =>
        if entry.1 = .ofLiteral "asks" ∨ entry.1 = .ofLiteral "bids" then
          (entry.1, entry.2.mapItems withoutThird)
        else entry).map Prod.fst = members.map Prod.fst := by
      rw [List.map_map]
      refine List.map_congr_left fun entry _ => ?_
      simp only [Function.comp_apply]
      split <;> rfl
    refine ⟨by rwa [hkeys], by rwa [hkeys], fun member hmember => ?_⟩
    obtain ⟨entry, hentry, rfl⟩ := List.mem_map.mp hmember
    split
    · exact objectFree_mapItems objectFree_withoutThird (hfree entry hentry)
    · exact hfree entry hentry
  | _ => exact h

variable [Double F]

/-! The schema of a depth message. -/

/-- Under a key stands an array with one element for each level. -/
def ListsLevels (json : Json F) (key : String) (levels : Levels (SDepthLevelData F))
    (length : UInt16) : Prop :=
  ∃ items, json.member key = some (.array items) ∧ items.length = length.toNat ∧
    ∀ i < length.toNat, items[i]? = some (EnhancedDepthData.levelJson levels i)

structure HasSchema (depth : SDepthData F) (json : Json F) : Prop where
  symbol : json.member "symbol" = some (.string depth.symbol)
  exchange : json.member "exchange" = some (.string depth.exchange)
  tick : json.member "tick" = some (.unsigned depth.tick)
  seqno : json.member "seqno" = some (.unsigned depth.seqno)
  askLength : json.member "ask_length" = some (.unsigned depth.askLength.toUInt64)
  bidLength : json.member "bid_length" = some (.unsigned depth.bidLength.toUInt64)
  asks : ListsLevels json "asks" depth.asks depth.askLength
  bids : ListsLevels json "bids" depth.bids depth.bidLength

/-- Whatever memory `init` overwrites, the object is encoded with the full schema. -/
def SendsSchema [Component F] (depth : SDepthData F) : Prop :=
  ∀ memory : EnhancedDepthData F, ∃ object json text, memory.init depth = .ok object ∧
    object.toJson = .ok json ∧ json.dump = .ok text ∧ object.getJsonStr = .ok text ∧
    HasSchema depth json

theorem listsLevels_iff {json : Json F} {key : String} {levels : Levels (SDepthLevelData F)}
    {length : UInt16}
    (hmember : json.member key = some (.ofItems ((List.range length.toNat).map
      (EnhancedDepthData.levelJson levels)))) :
    ListsLevels json key levels length ↔ length ≠ 0 := by
  have hzero : length = 0 ↔ length.toNat = 0 := UInt16.toNat_inj.symm
  unfold ListsLevels
  rw [hmember, Ne, hzero]
  constructor
  · rintro ⟨items, hitems, -, -⟩ hlength
    have hne := (Json.ofItems_eq_array_iff.mp (Option.some.inj hitems)).1
    simp [hlength] at hne
  · intro hlength
    refine ⟨_, congrArg some (Json.ofItems_eq_array_iff.mpr ⟨?_, rfl⟩), by simp, ?_⟩
    · simpa using hlength
    · intro i hi
      simp [hi]

theorem hasSchema_document_iff (depth : SDepthData F) :
    HasSchema depth (EnhancedDepthData.document depth) ↔
      depth.askLength ≠ 0 ∧ depth.bidLength ≠ 0 := by
  have hasks : ListsLevels (EnhancedDepthData.document depth) "asks" depth.asks depth.askLength ↔
      depth.askLength ≠ 0 := listsLevels_iff rfl
  have hbids : ListsLevels (EnhancedDepthData.document depth) "bids" depth.bids depth.bidLength ↔
      depth.bidLength ≠ 0 := listsLevels_iff rfl
  constructor
  · intro h
    exact ⟨hasks.mp h.asks, hbids.mp h.bids⟩
  · rintro ⟨hask, hbid⟩
    exact ⟨rfl, rfl, rfl, rfl, rfl, rfl, hasks.mpr hask, hbids.mpr hbid⟩

/-- A valid update within its arrays is sent with the full schema exactly when it has
a level on either side: the value of a loop that makes no pass is still null. -/
theorem sends_schema_iff [Component F] {depth : SDepthData F} (hbounds : depth.InBounds)
    (hvalid : depth.ValidTexts) :
    SendsSchema depth ↔ depth.askLength ≠ 0 ∧ depth.bidLength ≠ 0 := by
  rw [← hasSchema_document_iff]
  constructor
  · intro h
    let memory : EnhancedDepthData F := ⟨.replicate _ 0, .replicate _ 0, depth⟩
    obtain ⟨object, json, text, hinit, hjson, -, -, hschema⟩ := h memory
    have hdocument := (EnhancedDepthData.holds_of_init hinit).toJson_eq
    cases hdocument.symm.trans hjson
    exact hschema
  · intro hschema memory
    obtain ⟨object, hinit, hholds⟩ := memory.init_ok hbounds
    obtain ⟨text, htext⟩ :=
      Json.dump_ok_of_valid (EnhancedDepthData.document_built depth)
        (EnhancedDepthData.document_valid_iff.mpr hvalid)
    exact ⟨object, _, text, hinit, hholds.toJson_eq, htext, hholds.getJsonStr_eq.trans htext,
      hschema⟩

/-- Levels at the prices 1.5 and 1.6. -/
def sampleLevels : Levels (SDepthLevelData ℚ) :=
  (emptyLevels.set 0 ⟨⟨15, 1⟩, 2⟩).set 1 ⟨⟨16, 1⟩, 3⟩

/-- A book of two asks and one bid. -/
def ethDepth : SDepthData ℚ :=
  ⟨.ofLiteral "ETH", .ofLiteral "X", 7, 8, sampleLevels, 2, sampleLevels, 1⟩

theorem sends_schema_iff_sample :
    ethDepth.InBounds ∧ ethDepth.ValidTexts ∧ SendsSchema ethDepth := by
  have hbounds : ethDepth.InBounds := by decide
  have hvalid : ethDepth.ValidTexts := by decide
  exact ⟨hbounds, hvalid, (sends_schema_iff hbounds hvalid).mpr (by decide)⟩

/-- A book without levels is sent with a null in place of both arrays. -/
theorem empty_book_sent_as_null :
    btcDepth.InBounds ∧ btcDepth.ValidTexts ∧
      (EnhancedDepthData.document btcDepth).member "asks" = some .null ∧
      ¬ SendsSchema btcDepth := by
  have hbounds : btcDepth.InBounds := by decide
  have hvalid : btcDepth.ValidTexts := by decide
  refine ⟨hbounds, hvalid, rfl, fun h => ?_⟩
  obtain ⟨object, json, text, hinit, hjson, -, -, hschema⟩ := h zeroMemory
  cases (EnhancedDepthData.holds_of_init hinit).toJson_eq.symm.trans hjson
  exact ((hasSchema_document_iff btcDepth).mp hschema).1 rfl

/-! The plain encoder. -/

/-- The document `sDepthDataToJsonStr` builds before it is dumped. -/
def sDepthDataToJson (depth : SDepthData F) : Except Failure (Json F) :=
  depthJson depth (plainAtom depth.asks) (plainAtom depth.bids)

theorem sDepthDataToJsonStr_eq [Component F] (depth : SDepthData F) :
    sDepthDataToJsonStr depth = sDepthDataToJson depth >>= Json.dump := rfl

/-- The texts of both encoders are defined, and the documents differ in the third
entries only. -/
def EncodersAgree [Component F] (depth : SDepthData F) : Prop :=
  ∀ memory : EnhancedDepthData F, ∃ object enhanced enhancedText plain plainText,
    memory.init depth = .ok object ∧
      object.toJson = .ok enhanced ∧ enhanced.dump = .ok enhancedText ∧
      object.getJsonStr = .ok enhancedText ∧
      sDepthDataToJson depth = .ok plain ∧ plain.dump = .ok plainText ∧
      sDepthDataToJsonStr depth = .ok plainText ∧ enhanced.withoutAccumulated = plain

theorem fill_plainAtom {levels : Levels (SDepthLevelData F)} {length : UInt16}
    (hlength : length.toNat ≤ depchLevelCount) :
    Json.fill (List.range length.toNat) (plainAtom levels) =
      .ok (.ofItems ((List.range length.toNat).map fun i =>
        (EnhancedDepthData.levelJson levels i).withoutThird)) := by
  apply Json.fill_eq
  intro i hi
  have hcount : i < depchLevelCount := (List.mem_range.mp hi).trans_le hlength
  unfold plainAtom
  rw [levels.read_of_lt .empty hcount]
  rfl

theorem sDepthDataToJson_eq {depth : SDepthData F} (h : depth.InBounds) :
    sDepthDataToJson depth = .ok (EnhancedDepthData.document depth).withoutAccumulated := by
  have hlevels : ∀ (levels : Levels (SDepthLevelData F)) (length : UInt16),
      (Json.ofItems ((List.range length.toNat).map
        (EnhancedDepthData.levelJson levels))).mapItems Json.withoutThird =
      .ofItems ((List.range length.toNat).map fun i =>
        (EnhancedDepthData.levelJson levels i).withoutThird) := by
    intro levels length
    rw [Json.mapItems_ofItems, List.map_map]
    rfl
  unfold sDepthDataToJson depthJson
  rw [fill_plainAtom h.1, fill_plainAtom h.2, ← hlevels depth.asks, ← hlevels depth.bids]
  rfl

theorem encoders_agree [Component F] {depth : SDepthData F} (hbounds : depth.InBounds)
    (hvalid : depth.ValidTexts) : EncodersAgree depth := by
  intro memory
  obtain ⟨object, hinit, hholds⟩ := memory.init_ok hbounds
  have hbuilt := EnhancedDepthData.document_built depth
  have hdocument := EnhancedDepthData.document_valid_iff.mpr hvalid
  obtain ⟨enhancedText, henhanced⟩ := Json.dump_ok_of_valid hbuilt hdocument
  obtain ⟨plainText, hplain⟩ :=
    Json.dump_ok_of_valid hbuilt.withoutAccumulated hdocument.withoutAccumulated
  have hstr : sDepthDataToJsonStr depth = .ok plainText := by
    rw [sDepthDataToJsonStr_eq, sDepthDataToJson_eq hbounds]
    exact hplain
  exact ⟨object, _, enhancedText, _, plainText, hinit, hholds.toJson_eq, henhanced,
    hholds.getJsonStr_eq.trans henhanced, sDepthDataToJson_eq hbounds, hplain, hstr, rfl⟩

theorem encoders_agree_sample : EncodersAgree ethDepth :=
  encoders_agree (by decide) (by decide)

/-! The accumulated volumes. -/

variable {M : Type} [AddCommMonoid M] {val : F → M}

/-- Volumes are exact numbers, which `val` reads. -/
def AddsExactly (val : F → M) : Prop := ∀ left right : F, val (left + right) = val left + val right

/-- The entries below the declared length are the sums of the volumes up to their level. -/
def PrefixSums (val : F → M) (levels : Levels (SDepthLevelData F)) (length : UInt16)
    (accumulated : Levels F) : Prop :=
  ∀ i < length.toNat, ∃ volume, accumulated.read i = .ok volume ∧
    val volume = ∑ j ∈ Finset.range (i + 1), val (levels.entry .empty j).volume

/-- The third entry of every level is the entry of the array. -/
def CarriesVolumes (json : Json F) (key : String) (length : UInt16) (accumulated : Levels F) :
    Prop :=
  ∀ i < length.toNat, ∃ volume, accumulated.read i = .ok volume ∧
    ((json.member key).bind (·.item i)).bind (·.item 2) = some (.float volume)

/-- What `init` makes of an update, and what the message shows of it: the same whatever
memory an object is built in. -/
structure AccumulatesVolumes (val : F → M) (depth : SDepthData F) (object : EnhancedDepthData F)
    (json : Json F) : Prop where
  stored : object.depthData = depth
  asks : PrefixSums val depth.asks depth.askLength object.askAccumulatedVolume
  bids : PrefixSums val depth.bids depth.bidLength object.bidAccumulatedVolume
  asksCarried : CarriesVolumes json "asks" depth.askLength object.askAccumulatedVolume
  bidsCarried : CarriesVolumes json "bids" depth.bidLength object.bidAccumulatedVolume
  unaffected : ∀ memory : EnhancedDepthData F,
    (memory.init depth >>= EnhancedDepthData.toJson) = .ok json

theorem val_runningVolume (hadd : AddsExactly val) (levels : Levels (SDepthLevelData F)) (i : Nat) :
    val (EnhancedDepthData.runningVolume levels i) =
      ∑ j ∈ Finset.range (i + 1), val (levels.entry .empty j).volume := by
  induction i with
  | zero => simp [EnhancedDepthData.runningVolume]
  | succ i ih =>
    rw [EnhancedDepthData.runningVolume, hadd, ih, Finset.sum_range_succ _ (i + 1), add_comm]

section Side

variable {levels : Levels (SDepthLevelData F)} {length : UInt16} {accumulated : Levels F}

theorem read_of_entries (hlength : length.toNat ≤ depchLevelCount)
    (hentries : ∀ i < length.toNat,
      accumulated.entry 0 i = EnhancedDepthData.runningVolume levels i)
    {i : Nat} (hi : i < length.toNat) :
    accumulated.read i = .ok (EnhancedDepthData.runningVolume levels i) := by
  rw [← hentries i hi]
  exact accumulated.read_of_lt 0 (hi.trans_le hlength)

theorem prefixSums_of_read (hadd : AddsExactly val)
    (hread : ∀ i < length.toNat,
      accumulated.read i = .ok (EnhancedDepthData.runningVolume levels i)) :
    PrefixSums val levels length accumulated :=
  fun i hi => ⟨_, hread i hi, val_runningVolume hadd levels i⟩

theorem carriesVolumes_of_read {json : Json F} {key : String}
    (hmember : json.member key = some (.ofItems ((List.range length.toNat).map
      (EnhancedDepthData.levelJson levels))))
    (hread : ∀ i < length.toNat,
      accumulated.read i = .ok (EnhancedDepthData.runningVolume levels i)) :
    CarriesVolumes json key length accumulated := by
  intro i hi
  refine ⟨_, hread i hi, ?_⟩
  rw [hmember, Option.bind_some, Json.item_ofItems]
  simp [hi, EnhancedDepthData.levelJson, Json.item]

end Side

theorem volumes_accumulated (hadd : AddsExactly val) {depth : SDepthData F}
    (hbounds : depth.InBounds) (memory : EnhancedDepthData F) :
    ∃ object json, memory.init depth = .ok object ∧ object.toJson = .ok json ∧
      AccumulatesVolumes val depth object json := by
  obtain ⟨object, hinit, hholds⟩ := memory.init_ok hbounds
  have hasks := fun i => read_of_entries (i := i) hbounds.1 hholds.asks
  have hbids := fun i => read_of_entries (i := i) hbounds.2 hholds.bids
  refine ⟨object, _, hinit, hholds.toJson_eq, hholds.stored, prefixSums_of_read hadd hasks,
    prefixSums_of_read hadd hbids, carriesVolumes_of_read rfl hasks,
    carriesVolumes_of_read rfl hbids, fun other => ?_⟩
  obtain ⟨result, hresult, hother⟩ := other.init_ok hbounds
  rw [hresult]
  exact hother.toJson_eq

theorem volumes_accumulated_sample :
    ∃ object json, zeroMemory.init ethDepth = .ok object ∧ object.toJson = .ok json ∧
      AccumulatesVolumes id ethDepth object json :=
  volumes_accumulated (fun _ _ => rfl) (by decide) zeroMemory

end MarketServer
