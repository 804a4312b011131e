import MarketServer.Library.OrderedSet

/-! Finite maps as association lists with strictly increasing keys. A map is
read through `find`; its key set is an `OrderedSet` by construction. -/
namespace Library

structure OrderedMap (κ ν : Type) [LinearOrder κ] where
  entries : List (κ × ν)
  sorted : (entries.map Prod.fst).Pairwise (· < ·)

namespace OrderedMap

variable {κ ν : Type} [LinearOrder κ]

def empty : OrderedMap κ ν where
  entries := []
  sorted := (∅ : OrderedSet κ).sorted

instance : EmptyCollection (OrderedMap κ ν) := ⟨empty⟩

def keys (map : OrderedMap κ ν) : OrderedSet κ := ⟨map.entries.map Prod.fst, map.sorted⟩

/-- The value of the first entry with the key. -/
def lookup (key : κ) (entries : List (κ × ν)) : Option ν :=
  (entries.find? fun entry => decide (entry.1 = key)).map Prod.snd

def find (map : OrderedMap κ ν) (key : κ) : Option ν := lookup key map.entries

theorem lookup_cons (key : κ) (entry : κ × ν) (rest : List (κ × ν)) :
    lookup key (entry :: rest) = if entry.1 = key then some entry.2 else lookup key rest := by
  by_cases h : entry.1 = key <;> simp [lookup, h]

@[simp] theorem keys_empty : (∅ : OrderedMap κ ν).keys = ∅ := rfl

/-- The entry for `key` is replaced, or placed before the first larger key. -/
def assignSorted (key : κ) (value : ν) : List (κ × ν) → List (κ × ν)
  | [] => [(key, value)]
  | entry :: rest =>
    if key < entry.1 then (key, value) :: entry :: rest
    else if entry.1 < key then entry :: assignSorted key value rest
    else (key, value) :: rest

theorem keys_assignSorted (key : κ) (value : ν) (entries : List (κ × ν)) :
    (assignSorted key value entries).map Prod.fst =
      OrderedSet.insertSorted key (entries.map Prod.fst) := by
  induction entries with
  | nil => rfl
  | cons entry rest ih =>
    simp only [assignSorted, List.map_cons, OrderedSet.insertSorted]
    split
    · rfl
    · rename_i hke
      split
      · simp [ih]
      · rename_i hek
        have heq : key = entry.1 := le_antisymm (not_lt.mp hek) (not_lt.mp hke)
        simp [heq]

def assign (map : OrderedMap κ ν) (key : κ) (value : ν) : OrderedMap κ ν where
  entries := assignSorted key value map.entries
  sorted := by
    rw [keys_assignSorted]
    exact OrderedSet.insertSorted_sorted key map.sorted

theorem keys_assign (map : OrderedMap κ ν) (key : κ) (value : ν) :
    (map.assign key value).keys = map.keys.emplace key := by
  ext a
  simp only [keys, assign, OrderedSet.emplace, OrderedSet.mem_def, keys_assignSorted]

theorem lookup_assignSorted (key : κ) (value : ν) (entries : List (κ × ν)) (other : κ) :
    lookup other (assignSorted key value entries) =
      if key = other then some value else lookup other entries := by
  induction entries with
  | nil => rw [assignSorted, lookup_cons]
  | cons entry rest ih =>
    unfold assignSorted
    split
    · rw [lookup_cons]
    · rename_i hke
      split
      · rename_i hek
        rw [lookup_cons, lookup_cons, ih]
        by_cases h : entry.1 = other
        · have hne : key ≠ other := fun hk => hek.ne (h.trans hk.symm)
          simp [h, hne]
        · simp [h]
      · rename_i hek
        have heq : key = entry.1 := le_antisymm (not_lt.mp hek) (not_lt.mp hke)
        rw [lookup_cons, lookup_cons, ← heq]
        split <;> rfl

theorem find_assign (map : OrderedMap κ ν) (key : κ) (value : ν) (other : κ) :
    (map.assign key value).find other =
      if key = other then some value else map.find other :=
  lookup_assignSorted key value map.entries other

@[simp] theorem find_assign_self (map : OrderedMap κ ν) (key : κ) (value : ν) :
    (map.assign key value).find key = some value := by
  simp [find_assign]

theorem mem_map_fst_iff_lookup {entries : List (κ × ν)} {key : κ} :
    key ∈ entries.map Prod.fst ↔ (lookup key entries).isSome := by
  induction entries with
  | nil => simp [lookup]
  | cons entry rest ih =>
    rw [List.map_cons, List.mem_cons, ih, lookup_cons]
    by_cases h : entry.1 = key
    · simp [h]
    · simp [h, Ne.symm h]

theorem mem_keys_iff {map : OrderedMap κ ν} {key : κ} :
    key ∈ map.keys ↔ (map.find key).isSome := mem_map_fst_iff_lookup

theorem find_eq_none_iff {map : OrderedMap κ ν} {key : κ} :
    map.find key = none ↔ key ∉ map.keys := by
  rw [mem_keys_iff, Option.not_isSome_iff_eq_none]

end OrderedMap

end Library
