import MarketServer.Config
import MarketServer.Exact

/-! What is left of a load that fails. A document is read as three fields, each of which
is rejected, absent or given; a load stores what is given before the first rejection. -/
namespace MarketServer
open Library

variable {F : Type}

namespace Json

/-- The value at a path. A member that is missing is null, and so is everything below a
null; nothing is below any other scalar or an array. -/
def find : List Bytes → Json F → Option (Json F)
  | [], json => some json
  | _ :: path, .null => find path .null
  | key :: path, .object members => find path ((OrderedMap.lookup key members).getD .null)
  | _ :: _, _ => none

theorem find_null (path : List Bytes) : find path (.null : Json F) = some .null := by
  induction path with
  | nil => rfl
  | cons key path ih => exact ih

theorem find_append (path rest : List Bytes) (json : Json F) :
    find (path ++ rest) json = (find path json).bind (find rest) := by
  induction path generalizing json with
  | nil => rfl
  | cons key path ih =>
    cases json with
    | null => exact ih .null
    | object members => exact ih _
    | _ => rfl

/-- Access fails where nothing is found, and what it inserts shows on no path that is
as long. -/
theorem access_cases (path : List Bytes) (json : Json F) :
    find path json = none ∧ access path json = .error (.typeError 305) ∨
      ∃ value next, find path json = some value ∧ access path json = .ok (value, next) ∧
        ∀ other, path.length ≤ other.length → find other next = find other json := by
  induction path generalizing json with
  | nil => exact .inr ⟨json, json, rfl, rfl, fun _ _ => rfl⟩
  | cons key path ih =>
    cases json with
    | null =>
      rcases ih .null with ⟨hnone, -⟩ | ⟨value, child, hfind, haccess, hsame⟩
      · rw [find_null] at hnone
        cases hnone
      · refine .inr ⟨value, .object [(key, child)], hfind, by rw [access, haccess]; rfl, ?_⟩
        rintro (_ | ⟨first, rest⟩) hlength
        · exact absurd hlength (Nat.not_succ_le_zero _)
        · have hrest := hsame rest (Nat.le_of_succ_le_succ hlength)
          rw [find, find, OrderedMap.lookup_cons]
          split
          · exact hrest
          · rfl
    | object members =>
      rcases ih ((OrderedMap.lookup key members).getD .null) with
        ⟨hnone, herror⟩ | ⟨value, child, hfind, haccess, hsame⟩
      · exact .inl ⟨hnone, by rw [access, herror]; rfl⟩
      · refine .inr ⟨value, _, hfind, by rw [access, haccess]; rfl, ?_⟩
        rintro (_ | ⟨first, rest⟩) hlength
        · exact absurd hlength (Nat.not_succ_le_zero _)
        · have hrest := hsame rest (Nat.le_of_succ_le_succ hlength)
          rw [find, find, OrderedMap.lookup_assignSorted]
          split
          · rename_i heq
            rw [← heq]
            exact hrest
          · rfl
    | _ => exact .inl ⟨rfl, rfl⟩

end Json

/-- What a document says about one field. -/
inductive Reading (T : Type) where
  | rejected
  | absent
  | given (value : T)

namespace Reading

variable {T : Type}

/-- The configuration after the field, or the one an exception leaves. -/
def apply (store : Config → T → Config) (config : Config) : Reading T → Except Config Config
  | .rejected => .error config
  | .absent => .ok config
  | .given value => .ok (store config value)

/-- The field is not rejected, and storing what is given changes nothing. -/
def Keeps (old : T) : Reading T → Prop
  | .rejected => False
  | .absent => True
  | .given value => value = old

end Reading

/-- A null counts as absent, and a value of the wrong type is rejected. -/
def Json.readAs {T : Type} (convert : Json F → Except ConfigError T) (value : Json F) :
    Reading T :=
  if value.isNull then .absent
  else
    match convert value with
    | .ok converted => .given converted
    | .error _ => .rejected

/-- A field is rejected as well where its path leads into a value without members. -/
def Json.reading {T : Type} (convert : Json F → Except ConfigError T) (outer field : String)
    (js : Json F) : Reading T :=
  match js.find [.ofLiteral outer, .ofLiteral field] with
  | none => .rejected
  | some value => value.readAs convert

/-- Two documents have the same fields. -/
def Json.SameFields (js next : Json F) : Prop :=
  ∀ outer field, next.find [outer, field] = js.find [outer, field]

namespace Loader

theorem run_read_none {path : List Bytes} {loading : Loading F}
    (h : loading.js.find path = none) :
    (read path).run loading = .error (.typeError 305) loading := by
  rcases loading.js.access_cases path with ⟨-, herror⟩ | ⟨value, next, hfind, -⟩
  · simp only [read, EStateM.run_bind, EStateM.run_get, herror]
    rfl
  · rw [h] at hfind
    cases hfind

theorem run_read_some {path : List Bytes} {loading : Loading F} {value : Json F}
    (h : loading.js.find path = some value) :
    ∃ next, (read path).run loading = .ok value { loading with js := next } ∧
      ∀ other, path.length ≤ other.length → next.find other = loading.js.find other := by
  rcases loading.js.access_cases path with ⟨hnone, -⟩ | ⟨found, next, hfind, haccess, hsame⟩
  · rw [h] at hnone
    cases hnone
  · cases h.symm.trans hfind
    refine ⟨next, ?_, hsame⟩
    simp only [read, EStateM.run_bind, EStateM.run_get, haccess]
    rfl

theorem sameFields_of_read {path : List Bytes} {js next : Json F} (hpath : path.length ≤ 2)
    (hsame : ∀ other, path.length ≤ other.length → next.find other = js.find other) :
    js.SameFields next :=
  fun outer field => hsame [outer, field] hpath

theorem find_field (outer field : Bytes) (js : Json F) :
    js.find [outer, field] = (js.find [outer]).bind (Json.find [field]) :=
  Json.find_append [outer] [field] js

theorem run_present_none {outer field : Bytes} {loading : Loading F}
    (h : loading.js.find [outer, field] = none) :
    ∃ next, (present outer field).run loading = .error (.typeError 305) next ∧
      next.config = loading.config := by
  unfold present
  rw [EStateM.run_bind]
  cases houter : loading.js.find [outer] with
  | none =>
    rw [run_read_none houter]
    exact ⟨loading, rfl, rfl⟩
  | some found =>
    obtain ⟨next, hread, hsame⟩ := run_read_some houter
    have hfield : next.find [outer, field] = none := by
      rw [sameFields_of_read (by simp) hsame outer field, h]
    have hnull : found.isNull = false := by
      cases found with
      | null =>
        rw [find_field, houter] at h
        cases h
      | _ => rfl
    rw [hread]
    simp only [hnull, Bool.false_eq_true, if_false, EStateM.run_bind]
    rw [run_read_none hfield]
    exact ⟨_, rfl, rfl⟩

theorem run_present_some {outer field : Bytes} {loading : Loading F} {value : Json F}
    (h : loading.js.find [outer, field] = some value) :
    ∃ next, (present outer field).run loading = .ok (!value.isNull) { loading with js := next } ∧
      loading.js.SameFields next := by
  unfold present
  rw [EStateM.run_bind]
  rw [find_field] at h
  obtain ⟨found, houter, hvalue⟩ := Option.bind_eq_some_iff.mp h
  obtain ⟨next, hread, hsame⟩ := run_read_some houter
  have hfields := sameFields_of_read (by simp) hsame
  rw [hread]
  cases hnull : found.isNull with
  | true =>
    cases found with
    | null =>
      cases hvalue
      exact ⟨next, rfl, hfields⟩
    | _ => cases hnull
  | false =>
    have hfield : ({ loading with js := next } : Loading F).js.find [outer, field] =
        some value := by
      rw [hfields outer field, find_field, houter]
      exact hvalue
    obtain ⟨last, hlast, hsame'⟩ := run_read_some hfield
    have hfields' := sameFields_of_read le_rfl hsame'
    simp only [hnull, Bool.false_eq_true, if_false, EStateM.run_bind, hlast]
    exact ⟨last, rfl, fun outer field => (hfields' outer field).trans (hfields outer field)⟩

/-- A run changes the configuration as expected and keeps the fields of the document. -/
def Matches (js : Json F) :
    EStateM.Result ConfigError (Loading F) Unit → Except Config Config → Prop
  | .ok _ next, .ok config => next.config = config ∧ js.SameFields next.js
  | .error _ next, .error config => next.config = config
  | .ok _ _, .error _ | .error _ _, .ok _ => False

theorem Matches.of_sameFields {js next : Json F}
    {result : EStateM.Result ConfigError (Loading F) Unit} {expected : Except Config Config}
    (hsame : js.SameFields next) (h : Matches next result expected) :
    Matches js result expected := by
  cases result with
  | error error loading => cases expected <;> exact h
  | ok _ loading =>
    cases expected with
    | error config => exact h
    | ok config =>
      exact ⟨h.1, fun outer field => (h.2 outer field).trans (hsame outer field)⟩

theorem Matches.bind {js : Json F} {first second : Loader F Unit} {loading : Loading F}
    {expected : Except Config Config} {rest : Config → Except Config Config}
    (hfirst : Matches js (first.run loading) expected)
    (hsecond : ∀ next, js.SameFields next.js →
      Matches js (second.run next) (rest next.config)) :
    Matches js ((first >>= fun _ => second).run loading) (expected >>= rest) := by
  rw [EStateM.run_bind]
  cases hrun : first.run loading with
  | error error next =>
    rw [hrun] at hfirst
    cases expected with
    | error config => exact hfirst
    | ok config => exact hfirst.elim
  | ok _ next =>
    rw [hrun] at hfirst
    cases expected with
    | error config => exact hfirst.elim
    | ok config =>
      obtain ⟨rfl, hsame⟩ := hfirst
      exact hsecond next hsame

theorem reading_of_sameFields {T : Type} {convert : Json F → Except ConfigError T}
    {js next : Json F} (hsame : js.SameFields next) (outer field : String) :
    next.reading convert outer field = js.reading convert outer field := by
  unfold Json.reading
  rw [hsame]

theorem matches_loadField {T : Type} (convert : Json F → Except ConfigError T)
    (store : Config → T → Config) (outer field : String) (fileName : Bytes)
    (loading : Loading F) :
    Matches loading.js ((loadField convert store outer field fileName).run loading)
      ((loading.js.reading convert outer field).apply store loading.config) := by
  unfold loadField Json.reading
  rw [EStateM.run_bind]
  cases hfind : loading.js.find [.ofLiteral outer, .ofLiteral field] with
  | none =>
    obtain ⟨next, hrun, hconfig⟩ := run_present_none hfind
    rw [hrun]
    exact hconfig
  | some value =>
    obtain ⟨next, hrun, hsame⟩ := run_present_some hfind
    rw [hrun]
    cases hnull : value.isNull with
    | true =>
      simp only [Json.readAs, hnull, if_true]
      exact ⟨rfl, hsame⟩
    | false =>
      have hfield : ({ loading with js := next } : Loading F).js.find
          [.ofLiteral outer, .ofLiteral field] = some value := (hsame _ _).trans hfind
      obtain ⟨last, hlast, hsame'⟩ := run_read_some hfield
      have hfields := sameFields_of_read le_rfl hsame'
      simp only [Json.readAs, hnull, Bool.not_false, if_true, Bool.false_eq_true, if_false,
        EStateM.run_bind, hlast]
      cases convert value with
      | error error => exact rfl
      | ok converted =>
        exact ⟨rfl, fun outer field => (hfields outer field).trans (hsame outer field)⟩

end Loader

namespace Config

variable [Double F]

def hubReading (js : Json F) : Reading Bytes := js.reading Json.getString "hub" "addr"

def wsReading (js : Json F) : Reading Int32 := js.reading Json.getInt "ws_server" "port"

def restReading (js : Json F) : Reading Int32 := js.reading Json.getInt "rest_server" "port"

/-- What a document makes of a configuration: an error is the configuration that a load
leaves when it fails. -/
def afterLoad (self : Config) (js : Json F) : Except Config Config := do
  let config ← (hubReading js).apply setHubAddress self
  let config ← (wsReading js).apply setWsPort config
  (restReading js).apply setRestPort config

variable {parse : Bytes → Option (Json F)} {fileName contents : Bytes} {js : Json F}

theorem load_matches (self : Config) (hparse : parse contents = some js) :
    Loader.Matches js (self.load parse fileName (some contents)) (self.afterLoad js) := by
  simp only [load, loadBody, hparse, EStateM.run_bind (modify _), EStateM.run_modify]
  apply Loader.Matches.bind (Loader.matches_loadField ..)
  intro next hnext
  apply Loader.Matches.bind
  · rw [wsReading, ← Loader.reading_of_sameFields hnext]
    exact (Loader.matches_loadField ..).of_sameFields hnext
  · intro last hlast
    rw [restReading, ← Loader.reading_of_sameFields hlast]
    exact (Loader.matches_loadField ..).of_sameFields hlast

/-- The load ends in the handler of the exception. -/
def EndsInCatch (self : Config) (parse : Bytes → Option (Json F)) (fileName : Bytes)
    (file : Option Bytes) : Prop :=
  ∃ error loading, self.load parse fileName file = .error error loading

/-- A load that fails changes nothing. -/
def UnchangedOnFailure (self : Config) (parse : Bytes → Option (Json F)) (fileName : Bytes)
    (file : Option Bytes) : Prop :=
  self.EndsInCatch parse fileName file → self.loadConfig parse fileName file = self

/-- No value is stored before a section is rejected, apart from the old one. -/
def Harmless (self : Config) (js : Json F) : Prop :=
  hubReading js = .rejected ∨
    (hubReading js).Keeps self.hubAddress ∧
      (wsReading js = .rejected ∨ (wsReading js).Keeps self.wsPort) ∨
    hubReading js ≠ .rejected ∧ wsReading js ≠ .rejected ∧ restReading js ≠ .rejected

theorem unchangedOnFailure_iff_afterLoad (self : Config) (hparse : parse contents = some js) :
    self.UnchangedOnFailure parse fileName (some contents) ↔
      ∀ config, self.afterLoad js = .error config → config = self := by
  have hmatches : Loader.Matches js (self.load parse fileName (some contents))
      (self.afterLoad js) := self.load_matches hparse
  unfold UnchangedOnFailure EndsInCatch loadConfig
  cases hload : self.load parse fileName (some contents) with
  | ok _ loading =>
    rw [hload] at hmatches
    cases hafter : self.afterLoad js with
    | error config =>
      rw [hafter] at hmatches
      exact hmatches.elim
    | ok config => simp
  | error error loading =>
    rw [hload] at hmatches
    cases hafter : self.afterLoad js with
    | error config =>
      rw [hafter] at hmatches
      cases hmatches
      simp
    | ok config =>
      rw [hafter] at hmatches
      exact hmatches.elim

theorem afterLoad_error_iff (self : Config) (js : Json F) :
    (∀ config, self.afterLoad js = .error config → config = self) ↔ self.Harmless js := by
  obtain ⟨hubAddress, wsPort, restPort⟩ := self
  unfold afterLoad Harmless
  cases hubReading js <;> cases wsReading js <;> cases restReading js <;>
    simp [Reading.apply, Reading.Keeps, setHubAddress, setWsPort, bind, Except.bind]

/-- Without a document nothing is stored. -/
theorem loadConfig_unread (self : Config) {file : Option Bytes} (h : file.bind parse = none) :
    self.loadConfig parse fileName file = self := by
  cases file with
  | none => rfl
  | some contents =>
    have hparse : parse contents = none := h
    have hload : self.load parse fileName (some contents) =
        .error .parseError ⟨self, .null, []⟩ := by
      simp only [load, loadBody, hparse]
      rfl
    rw [loadConfig, hload]

/-- A failed load changes nothing exactly when the file does not open, its text is
malformed, or the document is `Harmless`. -/
theorem unchanged_on_failure_iff (self : Config) (parse : Bytes → Option (Json F))
    (fileName : Bytes) (file : Option Bytes) :
    self.UnchangedOnFailure parse fileName file ↔
      ∀ js, file.bind parse = some js → self.Harmless js := by
  cases hread : file.bind parse with
  | none =>
    constructor
    · rintro - js hjs
      cases hjs
    · rintro - -
      exact self.loadConfig_unread hread
  | some js =>
    obtain ⟨contents, rfl, hparse⟩ := Option.bind_eq_some_iff.mp hread
    rw [self.unchangedOnFailure_iff_afterLoad hparse, afterLoad_error_iff]
    constructor
    · rintro hharmless other hother
      cases hother
      exact hharmless
    · intro h
      exact h js rfl

/-- A file with a new address and a port that is a string. -/
def mixedText : Bytes :=
  .ofLiteral "\x7b\"hub\": \x7b\"addr\": \"new\"\x7d, \"ws_server\": \x7b\"port\": \"x\"\x7d\x7d"

def mixedDocument : Json ℚ :=
  .object [
    (.ofLiteral "hub", .object [(.ofLiteral "addr", .string (.ofLiteral "new"))]),
    (.ofLiteral "ws_server", .object [(.ofLiteral "port", .string (.ofLiteral "x"))])]

def parseMixed (text : Bytes) : Option (Json ℚ) :=
  if text = mixedText then some mixedDocument else none

def oldConfig : Config := ⟨.ofLiteral "old", 9000, 9001⟩

/-- The port is rejected after the address is stored. -/
theorem failed_load_changes_address :
    oldConfig.EndsInCatch parseMixed (.ofLiteral "config.json") (some mixedText) ∧
      oldConfig.loadConfig parseMixed (.ofLiteral "config.json") (some mixedText) =
        ⟨.ofLiteral "new", 9000, 9001⟩ ∧
      ¬ oldConfig.UnchangedOnFailure parseMixed (.ofLiteral "config.json") (some mixedText) := by
  have hcatch : oldConfig.EndsInCatch parseMixed (.ofLiteral "config.json") (some mixedText) :=
    ⟨.typeError 302, _, rfl⟩
  have hconfig : oldConfig.loadConfig parseMixed (.ofLiteral "config.json") (some mixedText) =
      ⟨.ofLiteral "new", 9000, 9001⟩ := by
    decide +kernel
  refine ⟨hcatch, hconfig, fun h => ?_⟩
  have hsame := hconfig.symm.trans (h hcatch)
  revert hsame
  decide

end Config

end MarketServer
