import Mathlib.Order.Defs.LinearOrder
import Mathlib.Data.List.Sort

/-! Finite sets kept as strictly increasing lists, the way a balanced search
tree enumerates them. The order is part of the value, so iteration is
deterministic and two sets with the same members are equal. -/
namespace Library

structure OrderedSet (α : Type) [LinearOrder α] where
  toList : List α
  sorted : toList.Pairwise (· < ·)

namespace OrderedSet

variable {α : Type} [LinearOrder α]

instance : Membership α (OrderedSet α) := ⟨fun set a => a ∈ set.toList⟩

theorem mem_def {set : OrderedSet α} {a : α} : a ∈ set ↔ a ∈ set.toList := Iff.rfl

instance (set : OrderedSet α) (a : α) : Decidable (a ∈ set) :=
  inferInstanceAs (Decidable (a ∈ set.toList))

theorem nodup (set : OrderedSet α) : set.toList.Nodup :=
  set.sorted.imp fun hlt => hlt.ne

/-- The increasing enumeration is determined by the members alone. -/
@[ext] theorem ext {left right : OrderedSet α} (hmem : ∀ a, a ∈ left ↔ a ∈ right) :
    left = right := by
  cases left with
  | mk left hleft =>
    cases right with
    | mk right hright =>
      have hperm : left.Perm right :=
        (List.perm_ext_iff_of_nodup (hleft.imp fun hlt => hlt.ne)
          (hright.imp fun hlt => hlt.ne)).2 hmem
      congr 1
      exact hperm.eq_of_pairwise (fun a b _ _ hab hba => absurd hab hba.asymm) hleft hright

/-- A traversal meets each member once. -/
theorem filterMap_ite {β : Type} (set : OrderedSet α) (a : α) (b : β) :
    (set.toList.filterMap fun c => if c = a then some b else none) =
      if a ∈ set then [b] else [] := by
  have hlist : ∀ list : List α, list.Nodup →
      (list.filterMap fun c => if c = a then some b else none) =
        if a ∈ list then [b] else [] := by
    intro list hnodup
    induction list with
    | nil => rfl
    | cons c rest ih =>
      obtain ⟨hnot, hrest⟩ := List.nodup_cons.mp hnodup
      rw [List.filterMap_cons, ih hrest]
      by_cases h : c = a
      · subst h
        simp [hnot]
      · simp [h, Ne.symm h]
  exact hlist set.toList set.nodup

def empty : OrderedSet α := ⟨[], .nil⟩

instance : EmptyCollection (OrderedSet α) := ⟨empty⟩

@[simp] theorem toList_empty : (∅ : OrderedSet α).toList = [] := rfl

@[simp] theorem not_mem_empty (a : α) : a ∉ (∅ : OrderedSet α) := List.not_mem_nil

def singleton (a : α) : OrderedSet α := ⟨[a], List.pairwise_singleton _ a⟩

@[simp] theorem mem_singleton {a b : α} : b ∈ singleton a ↔ b = a := List.mem_singleton

/-- Insertion below the first larger element; an element already there stays. -/
def insertSorted (a : α) : List α → List α
  | [] => [a]
  | b :: rest =>
    if a < b then a :: b :: rest
    else if b < a then b :: insertSorted a rest
    else b :: rest

@[simp] theorem mem_insertSorted {a b : α} {list : List α} :
    b ∈ insertSorted a list ↔ b = a ∨ b ∈ list := by
  induction list with
  | nil => simp [insertSorted]
  | cons c rest ih =>
    unfold insertSorted
    split
    · simp
    · rename_i hac
      split
      · simp only [List.mem_cons, ih]
        tauto
      · rename_i hca
        have heq : a = c := le_antisymm (not_lt.mp hca) (not_lt.mp hac)
        simp [heq]

theorem insertSorted_sorted (a : α) {list : List α} (hlist : list.Pairwise (· < ·)) :
    (insertSorted a list).Pairwise (· < ·) := by
  induction list with
  | nil => exact List.pairwise_singleton _ a
  | cons c rest ih =>
    obtain ⟨hhead, hrest⟩ := List.pairwise_cons.mp hlist
    unfold insertSorted
    split
    · rename_i hac
      refine List.pairwise_cons.mpr ⟨?_, hlist⟩
      intro b hb
      rcases List.mem_cons.mp hb with rfl | hb
      · exact hac
      · exact hac.trans (hhead b hb)
    · split
      · rename_i hca
        refine List.pairwise_cons.mpr ⟨?_, ih hrest⟩
        intro b hb
        rcases mem_insertSorted.mp hb with rfl | hb
        · exact hca
        · exact hhead b hb
      · exact hlist

def emplace (set : OrderedSet α) (a : α) : OrderedSet α :=
  ⟨insertSorted a set.toList, insertSorted_sorted a set.sorted⟩

@[simp] theorem mem_emplace {set : OrderedSet α} {a b : α} :
    b ∈ set.emplace a ↔ b = a ∨ b ∈ set := mem_insertSorted

/-- The members a test keeps, in the same order. -/
def filter (set : OrderedSet α) (keep : α → Bool) : OrderedSet α :=
  ⟨set.toList.filter keep, set.sorted.sublist List.filter_sublist⟩

@[simp] theorem mem_filter {set : OrderedSet α} {keep : α → Bool} {a : α} :
    a ∈ set.filter keep ↔ a ∈ set ∧ keep a = true := List.mem_filter

def erase (set : OrderedSet α) (a : α) : OrderedSet α :=
  set.filter fun b => decide (b ≠ a)

@[simp] theorem mem_erase {set : OrderedSet α} {a b : α} :
    b ∈ set.erase a ↔ b ∈ set ∧ b ≠ a := by
  simp [erase]

def ofList (list : List α) : OrderedSet α := list.foldl emplace ∅

theorem mem_foldl_emplace {list : List α} {set : OrderedSet α} {a : α} :
    a ∈ list.foldl emplace set ↔ a ∈ set ∨ a ∈ list := by
  induction list generalizing set with
  | nil => simp
  | cons b rest ih =>
    simp only [List.foldl_cons, ih, mem_emplace, List.mem_cons]
    tauto

@[simp] theorem mem_ofList {list : List α} {a : α} : a ∈ ofList list ↔ a ∈ list := by
  simp [ofList, mem_foldl_emplace]

/-- Splicing of a whole source set: every element the target lacks moves over,
the elements the target already has stay behind in the source. -/
def merge (target source : OrderedSet α) : OrderedSet α × OrderedSet α :=
  (source.toList.foldl emplace target, source.filter fun a => decide (a ∈ target))

@[simp] theorem mem_merge_fst {target source : OrderedSet α} {a : α} :
    a ∈ (target.merge source).1 ↔ a ∈ target ∨ a ∈ source := mem_foldl_emplace

@[simp] theorem mem_merge_snd {target source : OrderedSet α} {a : α} :
    a ∈ (target.merge source).2 ↔ a ∈ source ∧ a ∈ target := by
  simp [merge]

/-- A source the target contains is left as it was, and so is the target. -/
theorem merge_of_subset {target source : OrderedSet α} (hsub : ∀ a ∈ source, a ∈ target) :
    target.merge source = (target, source) := by
  apply Prod.ext
  · ext a
    simp only [mem_merge_fst, or_iff_left_iff_imp]
    exact hsub a
  · ext a
    simp only [mem_merge_snd, and_iff_left_iff_imp]
    exact hsub a

/-- A source disjoint from the target is moved out completely. -/
theorem merge_snd_of_disjoint {target source : OrderedSet α}
    (hdisjoint : ∀ a ∈ source, a ∉ target) : (target.merge source).2 = ∅ := by
  ext a
  simp only [mem_merge_snd, not_mem_empty, iff_false, not_and]
  exact hdisjoint a

end OrderedSet

end Library
