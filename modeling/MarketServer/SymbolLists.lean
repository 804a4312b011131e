import MarketServer.Tools
import MarketServer.Exact

/-! The two encoders of symbol lists, one for the snapshot of a new connection and one
for the packages that are broadcast. They write the same list under different keys. -/
namespace MarketServer
open Library

variable {F : Type}

/-- One member is an array of the symbols, each of them once and in ascending order. -/
def Json.ListsAscending (json : Json F) (symbols : OrderedSet Bytes) : Prop :=
  ∃ (key : String) (items : List Bytes), json.member key = some (.array (items.map .string)) ∧
    items.Pairwise (· < ·) ∧ ∀ symbol, symbol ∈ items ↔ symbol ∈ symbols

/-- An array is written exactly for the sets that are not empty. -/
theorem listsAscending_listDocument_iff {key : String} {symbols : OrderedSet Bytes} :
    (listDocument F key symbols).ListsAscending symbols ↔ symbols.toList ≠ [] := by
  have hmember : ∀ other : String, (listDocument F key symbols).member other =
      if Bytes.ofLiteral key = .ofLiteral other then
        some (.ofItems (symbols.toList.map .string))
      else none := by
    intro other
    simp [listDocument, Json.member, OrderedMap.lookup]
  constructor
  · rintro ⟨other, items, hitems, -, -⟩ hempty
    rw [hmember] at hitems
    split at hitems
    · simp [hempty, Json.ofItems] at hitems
    · cases hitems
  · intro hsymbols
    refine ⟨key, symbols.toList, ?_, symbols.sorted, fun _ => Iff.rfl⟩
    rw [hmember, if_pos rfl]
    cases hlist : symbols.toList with
    | nil => exact absurd hlist hsymbols
    | cons symbol rest => rfl

theorem listDocument_ne (left right : OrderedSet Bytes) :
    listDocument F "symbol" left ≠ listDocument F "symbols" right := by
  have hkeys : Bytes.ofLiteral "symbol" ≠ .ofLiteral "symbols" := by decide
  simp [listDocument, hkeys]

variable [Component F]

theorem parse_symbolsToJsonStr {symbols : OrderedSet Bytes} {text : Text F}
    (h : symbolsToJsonStr F symbols = .ok text) :
    Component.parse text = some (listDocument F "symbol" symbols) := by
  rw [symbolsToJsonStr_eq] at h
  exact Json.parse_of_dump h (listDocument_built F _ _) listDocument_lossless

theorem parse_getJsonStr {data : SymbolData} {text : Text F} (h : data.getJsonStr F = .ok text) :
    Component.parse text = some (listDocument F "symbols" data.symbols) := by
  rw [SymbolData.getJsonStr_eq] at h
  exact Json.parse_of_dump h (listDocument_built F _ _) listDocument_lossless

variable (F) in
/-- Both encoders write the same document, which lists the set. -/
def ListEncodersAgree (symbols : OrderedSet Bytes) : Prop :=
  ∃ snapshot update json, symbolsToJsonStr F symbols = .ok snapshot ∧
    SymbolData.getJsonStr F ⟨symbols⟩ = .ok update ∧ Component.parse snapshot = some json ∧
    Component.parse update = some json ∧ json.ListsAscending symbols

theorem ListEncodersAgree.documents_eq {symbols : OrderedSet Bytes}
    (h : ListEncodersAgree F symbols) :
    listDocument F "symbol" symbols = listDocument F "symbols" symbols := by
  obtain ⟨snapshot, update, json, hsnapshot, hupdate, hparsed, hparsed', -⟩ := h
  rw [parse_symbolsToJsonStr hsnapshot] at hparsed
  rw [parse_getJsonStr hupdate] at hparsed'
  exact Option.some.inj (hparsed.trans hparsed'.symm)

/-- The snapshot and the updates never have the same document: the key of one is
"symbol", that of the other one "symbols". -/
theorem list_encoders_disagree (symbols : OrderedSet Bytes) : ¬ ListEncodersAgree F symbols :=
  fun h => listDocument_ne symbols symbols h.documents_eq

/-- Each encoder for itself loses nothing, apart from the array when the set is empty. -/
theorem encoded_lists_iff {symbols : OrderedSet Bytes}
    (hvalid : ∀ symbol ∈ symbols, symbol.ValidUtf8) :
    ∃ snapshot update list list', symbolsToJsonStr F symbols = .ok snapshot ∧
      SymbolData.getJsonStr F ⟨symbols⟩ = .ok update ∧
      Component.parse snapshot = some list ∧ Component.parse update = some list' ∧
      (list.ListsAscending symbols ↔ symbols.toList ≠ []) ∧
      (list'.ListsAscending symbols ↔ symbols.toList ≠ []) := by
  obtain ⟨snapshot, hsnapshot⟩ := listDocument_dump_ok (F := F) "symbol" hvalid
  obtain ⟨update, hupdate⟩ := listDocument_dump_ok (F := F) "symbols" hvalid
  rw [← symbolsToJsonStr_eq] at hsnapshot
  rw [← SymbolData.getJsonStr_eq F ⟨symbols⟩] at hupdate
  exact ⟨snapshot, update, _, _, hsnapshot, hupdate, parse_symbolsToJsonStr hsnapshot,
    parse_getJsonStr hupdate, listsAscending_listDocument_iff, listsAscending_listDocument_iff⟩

def btcSymbols : OrderedSet Bytes := .singleton (.ofLiteral "BTC")

theorem list_encoders_differ_on_btc :
    (∀ symbol ∈ btcSymbols, symbol.ValidUtf8) ∧
      (∃ text, symbolsToJsonStr ℚ btcSymbols = .ok text ∧ Component.parse text =
        some (.object [(.ofLiteral "symbol", .array [.string (.ofLiteral "BTC")])])) ∧
      (∃ text, SymbolData.getJsonStr ℚ ⟨btcSymbols⟩ = .ok text ∧ Component.parse text =
        some (.object [(.ofLiteral "symbols", .array [.string (.ofLiteral "BTC")])])) ∧
      ¬ ListEncodersAgree ℚ btcSymbols := by
  have hvalid : ∀ symbol ∈ btcSymbols, symbol.ValidUtf8 := by decide
  obtain ⟨snapshot, update, _, _, hsnapshot, hupdate, -⟩ := encoded_lists_iff (F := ℚ) hvalid
  exact ⟨hvalid, ⟨snapshot, hsnapshot, parse_symbolsToJsonStr hsnapshot⟩,
    ⟨update, hupdate, parse_getJsonStr hupdate⟩,
    fun h => listDocument_ne btcSymbols btcSymbols h.documents_eq⟩

end MarketServer
