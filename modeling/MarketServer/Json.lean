import MarketServer.Bytes
import MarketServer.Library.OrderedMap

/-! Documents of `nlohmann::json` and the few operations the encoders use on
them. A default-constructed value is null; it becomes an array or an object on
the first indexed assignment. Floating-point numbers are a parameter `F`. -/
namespace MarketServer
open Library

/-- How a computation of the server can fail. -/
inductive Failure where
  /-- A `nlohmann::json::type_error`, which is a `std::exception`. -/
  | typeError (id : Nat)
  /-- An access without defined behaviour: past the end of an array, or through
  a null pointer. -/
  | undefined
  deriving DecidableEq

theorem foldlM_append_error {ε σ α : Type} {body : σ → α → Except ε σ} {before after : List α}
    {item : α} {start middle : σ} {failure : ε} (hbefore : before.foldlM body start = .ok middle)
    (hitem : body middle item = .error failure) :
    (before ++ item :: after).foldlM body start = .error failure := by
  rw [List.foldlM_append, hbefore]
  simp only [bind, Except.bind, List.foldlM_cons, hitem]

inductive Json (F : Type) where
  | null
  | boolean (value : Bool)
  | integer (value : Int64)
  | unsigned (value : UInt64)
  | float (value : F)
  | string (value : Bytes)
  | array (items : List (Json F))
  | object (members : List (Bytes × Json F))

namespace Json

variable {F : Type}

mutual
/-- The values at the leaves of a document, from left to right. -/
def scalars : Json F → List (Json F)
  | .array items => itemScalars items
  | .object members => memberScalars members
  | scalar => [scalar]

def itemScalars : List (Json F) → List (Json F)
  | [] => []
  | item :: rest => item.scalars ++ itemScalars rest

def memberScalars : List (Bytes × Json F) → List (Json F)
  | [] => []
  | member :: rest => valueScalars member ++ memberScalars rest

def valueScalars : Bytes × Json F → List (Json F)
  | (_, value) => value.scalars
end

def StringValid : Json F → Prop
  | .string value => value.ValidUtf8
  | _ => True

instance : DecidablePred (StringValid (F := F))
  | .string value => inferInstanceAs (Decidable value.ValidUtf8)
  | .null | .boolean _ | .integer _ | .unsigned _ | .float _ | .array _ | .object _ =>
    .isTrue trivial

/-- Every string in the document is valid UTF-8. -/
def ValidUtf8 (json : Json F) : Prop := ∀ scalar ∈ json.scalars, scalar.StringValid

instance (json : Json F) : Decidable json.ValidUtf8 :=
  inferInstanceAs (Decidable (∀ scalar ∈ json.scalars, scalar.StringValid))

/-- A number that is not finite is written as null, and a signed one that is not
negative is read as unsigned. -/
def ReadBack : Json F → Prop
  | .float _ | .integer _ => False
  | _ => True

/-- Every scalar of the document is read as it was written. -/
def Lossless (json : Json F) : Prop := ∀ scalar ∈ json.scalars, scalar.ReadBack

mutual
/-- No object occurs in the value. -/
def objectFree : Json F → Bool
  | .array items => itemsObjectFree items
  | .object _ => false
  | _ => true

def itemsObjectFree : List (Json F) → Bool
  | [] => true
  | item :: rest => item.objectFree && itemsObjectFree rest
end

/-- The documents the server writes: one object with different keys in ascending
order, all of them UTF-8, and no object in it. -/
def Built : Json F → Prop
  | .object members => (members.map Prod.fst).Pairwise (· < ·) ∧
      (∀ key ∈ members.map Prod.fst, key.ValidUtf8) ∧ ∀ member ∈ members, member.2.objectFree
  | _ => False

/-- `json[index] = value`: a null becomes an array, and an array that is too
short is filled up with nulls. -/
def setIndex (json : Json F) (index : Nat) (value : Json F) : Except Failure (Json F) :=
  match json with
  | .null => .ok (.array (List.replicate index .null ++ [value]))
  | .array items =>
    if index < items.length then .ok (.array (items.set index value))
    else .ok (.array (items ++ List.replicate (index - items.length) .null ++ [value]))
  | _ => .error (.typeError 305)

/-- `json[key] = value`: a null becomes an object, whose members are ordered by key. -/
def setKey (json : Json F) (key : String) (value : Json F) : Except Failure (Json F) :=
  match json with
  | .null => .ok (.object [(.ofLiteral key, value)])
  | .object members => .ok (.object (OrderedMap.assignSorted (.ofLiteral key) value members))
  | _ => .error (.typeError 305)

/-- The member a reader of an object finds under a key. -/
def member (key : String) : Json F → Option (Json F)
  | .object members => OrderedMap.lookup (.ofLiteral key) members
  | _ => none

/-- One pass of an encoding loop: the item with its index is rendered and stored. -/
def store {α : Type} (render : α → Except Failure (Json F)) (json : Json F) (entry : α × Nat) :
    Except Failure (Json F) :=
  render entry.1 >>= json.setIndex entry.2

/-- A loop that stores item `i` at index `i` of a default-constructed value. -/
def fill {α : Type} (items : List α) (render : α → Except Failure (Json F)) :
    Except Failure (Json F) :=
  items.zipIdx.foldlM (store render) .null

/-- What such a loop leaves: without a single pass the value is still null. -/
def ofItems : List (Json F) → Json F
  | [] => .null
  | items => .array items

theorem setIndex_length (items : List (Json F)) (value : Json F) :
    (ofItems items).setIndex items.length value = .ok (ofItems (items ++ [value])) := by
  cases items with
  | nil => rfl
  | cons item rest => simp [ofItems, setIndex]

theorem foldlM_store {α : Type} {items : List α} {render : α → Except Failure (Json F)}
    {value : α → Json F} (hrender : ∀ item ∈ items, render item = .ok (value item))
    (done : List (Json F)) :
    (items.zipIdx done.length).foldlM (store render) (ofItems done) =
      .ok (ofItems (done ++ items.map value)) := by
  induction items generalizing done with
  | nil => simp; rfl
  | cons item rest ih =>
    have hstore : store render (ofItems done) (item, done.length) =
        .ok (ofItems (done ++ [value item])) := by
      rw [store, hrender item List.mem_cons_self]
      exact setIndex_length done (value item)
    have hrest := ih (fun other h => hrender other (List.mem_cons_of_mem item h))
      (done ++ [value item])
    rw [List.length_append, List.length_singleton] at hrest
    rw [List.zipIdx_cons, List.foldlM_cons, hstore]
    exact hrest.trans (by simp)

theorem fill_eq {α : Type} {items : List α} {render : α → Except Failure (Json F)}
    {value : α → Json F} (hrender : ∀ item ∈ items, render item = .ok (value item)) :
    fill items render = .ok (ofItems (items.map value)) :=
  foldlM_store hrender []

/-- A loop fails at its first item that cannot be rendered. -/
theorem fill_error {α : Type} {before after : List α} {item : α} {failure : Failure}
    {render : α → Except Failure (Json F)} {value : α → Json F}
    (hbefore : ∀ other ∈ before, render other = .ok (value other))
    (hitem : render item = .error failure) :
    fill (before ++ item :: after) render = .error failure := by
  have hstore : ∀ json : Json F, store render json (item, before.length) = .error failure := by
    intro json
    rw [store, hitem]
    rfl
  have hdone : before.zipIdx.foldlM (store render) .null = .ok (ofItems (before.map value)) :=
    fill_eq hbefore
  unfold fill
  rw [List.zipIdx_append, List.zipIdx_cons, Nat.zero_add]
  exact foldlM_append_error hdone (hstore _)

theorem itemScalars_eq (items : List (Json F)) : itemScalars items = items.flatMap scalars := by
  induction items with
  | nil => rfl
  | cons item rest ih => simp [itemScalars, ih]

theorem memberScalars_eq (members : List (Bytes × Json F)) :
    memberScalars members = members.flatMap fun entry => entry.2.scalars := by
  induction members with
  | nil => rfl
  | cons member rest ih =>
    obtain ⟨key, value⟩ := member
    simp [memberScalars, valueScalars, ih]

theorem mem_scalars_ofItems {items : List (Json F)} {scalar : Json F}
    (h : scalar ∈ (ofItems items).scalars) :
    scalar = .null ∨ ∃ item ∈ items, scalar ∈ item.scalars := by
  cases items with
  | nil => exact .inl (List.mem_singleton.mp h)
  | cons item rest =>
    right
    simpa [ofItems, scalars, itemScalars_eq, or_and_right, exists_or] using h

theorem mem_scalars_ofItems_of_mem {items : List (Json F)} {item scalar : Json F}
    (hitem : item ∈ items) (hscalar : scalar ∈ item.scalars) :
    scalar ∈ (ofItems items).scalars := by
  cases items with
  | nil => cases hitem
  | cons first rest =>
    simp only [ofItems, scalars, itemScalars_eq]
    exact List.mem_flatMap.mpr ⟨item, hitem, hscalar⟩

theorem itemsObjectFree_iff {items : List (Json F)} :
    itemsObjectFree items ↔ ∀ item ∈ items, item.objectFree := by
  induction items with
  | nil => simp [itemsObjectFree]
  | cons item rest ih => simp [itemsObjectFree, ih]

theorem objectFree_ofItems {items : List (Json F)} (h : ∀ item ∈ items, item.objectFree) :
    (ofItems items).objectFree := by
  cases items with
  | nil => rfl
  | cons item rest => exact itemsObjectFree_iff.mpr h

end Json

/-- The code outside the repository that the server calls, with what is assumed
of it for the documents the server writes. `dump json = none` stands for
`json.dump()` throwing. -/
class Component (F : Type) where
  Text : Type
  dump : Json F → Option Text
  parse : Text → Option (Json F)
  dump_isSome : ∀ json, json.Built → ((dump json).isSome = true ↔ json.ValidUtf8)
  parse_dump : ∀ {json text}, dump json = some text → json.Built → json.Lossless →
    parse text = some json
  RtnDepth : Type
  convertUTData : RtnDepth → Text

abbrev Text (F : Type) [Component F] : Type := Component.Text F

/-- `json.dump()`, a `type_error.316` for a string that is not valid UTF-8. -/
def Json.dump {F : Type} [Component F] (json : Json F) : Except Failure (Text F) :=
  match Component.dump json with
  | some text => .ok text
  | none => .error (.typeError 316)

section Dump

variable {F : Type} [Component F] {json : Json F}

theorem Json.dump_ok_of_valid (hbuilt : json.Built) (h : json.ValidUtf8) :
    ∃ text, json.dump = .ok text := by
  obtain ⟨text, htext⟩ :=
    Option.isSome_iff_exists.mp ((Component.dump_isSome json hbuilt).mpr h)
  exact ⟨text, by simp [Json.dump, htext]⟩

theorem Json.valid_of_dump {text : Text F} (hbuilt : json.Built) (h : json.dump = .ok text) :
    json.ValidUtf8 := by
  apply (Component.dump_isSome json hbuilt).mp
  unfold Json.dump at h
  split at h
  · rename_i heq
    rw [heq]
    rfl
  · cases h

theorem Json.dump_of_invalid (hbuilt : json.Built) (h : ¬ json.ValidUtf8) :
    json.dump = .error (.typeError 316) := by
  have hnone : Component.dump json = none := by
    rw [← Option.not_isSome_iff_eq_none]
    exact fun hsome => h ((Component.dump_isSome json hbuilt).mp hsome)
  simp [Json.dump, hnone]

theorem Json.dump_ne_undefined (json : Json F) : json.dump ≠ .error .undefined := by
  unfold Json.dump
  split <;> nofun

theorem Json.parse_of_dump {text : Text F} (h : json.dump = .ok text) (hbuilt : json.Built)
    (hlossless : json.Lossless) : Component.parse text = some json := by
  apply Component.parse_dump _ hbuilt hlossless
  unfold Json.dump at h
  split at h
  · rename_i heq
    cases h
    exact heq
  · cases h

end Dump

end MarketServer
