import Mathlib.Data.Set.Insert
import Mathlib.Logic.Relation

/-! A set that only grows, and a replica of it that learns every change through
one first-in first-out log. The source announces each new element once, may put
its complete contents into the log at any time, and may mention elements it
has. What the replica holds plus what is still in the log is always the source. -/
namespace Library.Replica

variable {α : Type}

inductive Entry (α : Type) where
  | add (a : α)
  | full (members : Set α)
  | mention (a : α)

/-- What the replica holds after reading one entry. -/
def Entry.read : Entry α → Set α → Set α
  | .add a, held => insert a held
  | .full members, held => held ∪ members
  | .mention _, held => held

structure State (α : Type) where
  source : Set α
  log : List (Entry α)
  held : Set α

def State.initial : State α := ⟨∅, [], ∅⟩

inductive Step : State α → State α → Prop where
  | announce {source log held} (a : α) (hnew : a ∉ source) :
      Step ⟨source, log, held⟩ ⟨insert a source, log ++ [.add a], held⟩
  | list {source log held} : Step ⟨source, log, held⟩ ⟨source, log ++ [.full source], held⟩
  | mention {source log held} (a : α) (hknown : a ∈ source) :
      Step ⟨source, log, held⟩ ⟨source, log ++ [.mention a], held⟩
  | read {source entry rest held} :
      Step ⟨source, entry :: rest, held⟩ ⟨source, rest, entry.read held⟩

/-- Reading the whole log turns `held` into `source`. On the way every added
element is new, every full list is exactly what the replica then holds, and
every mentioned element is already held. -/
def Replays : Set α → List (Entry α) → Set α → Prop
  | held, [], source => held = source
  | held, .add a :: rest, source => a ∉ held ∧ Replays (insert a held) rest source
  | held, .full members :: rest, source => members = held ∧ Replays held rest source
  | held, .mention a :: rest, source => a ∈ held ∧ Replays held rest source

theorem replays_append {held source : Set α} {first second : List (Entry α)} :
    Replays held (first ++ second) source ↔
      ∃ middle, Replays held first middle ∧ Replays middle second source := by
  induction first generalizing held with
  | nil => simp [Replays]
  | cons entry rest ih =>
    cases entry <;> simp only [List.cons_append, Replays, ih] <;> grind

theorem Replays.append_add {held source : Set α} {log : List (Entry α)} {a : α}
    (h : Replays held log source) (hnew : a ∉ source) :
    Replays held (log ++ [.add a]) (insert a source) :=
  replays_append.mpr ⟨source, h, hnew, rfl⟩

theorem Replays.append_full {held source : Set α} {log : List (Entry α)}
    (h : Replays held log source) : Replays held (log ++ [.full source]) source :=
  replays_append.mpr ⟨source, h, rfl, rfl⟩

theorem Replays.append_mention {held source : Set α} {log : List (Entry α)} {a : α}
    (h : Replays held log source) (hknown : a ∈ source) :
    Replays held (log ++ [.mention a]) source :=
  replays_append.mpr ⟨source, h, hknown, rfl⟩

theorem Replays.read {held source : Set α} {entry : Entry α} {rest : List (Entry α)}
    (h : Replays held (entry :: rest) source) : Replays (entry.read held) rest source := by
  cases entry with
  | add a => exact h.2
  | full members =>
    obtain ⟨rfl, hrest⟩ := h
    simpa [Entry.read] using hrest
  | mention a => exact h.2

def Consistent (state : State α) : Prop := Replays state.held state.log state.source

theorem consistent_initial : Consistent (State.initial (α := α)) := rfl

theorem Step.consistent {state next : State α} (step : Step state next)
    (h : Consistent state) : Consistent next := by
  cases step with
  | announce a hnew => exact Replays.append_add h hnew
  | list => exact Replays.append_full h
  | mention a hknown => exact Replays.append_mention h hknown
  | read => exact Replays.read h

theorem consistent_of_steps {state next : State α}
    (steps : Relation.ReflTransGen Step state next) (h : Consistent state) :
    Consistent next := by
  induction steps with
  | refl => exact h
  | tail _ step ih => exact step.consistent ih

/-- The elements whose announcement is still unread, oldest first. -/
def added (log : List (Entry α)) : List α :=
  log.filterMap fun
    | .add a => some a
    | _ => none

theorem Replays.mem_source_iff {held source : Set α} {log : List (Entry α)}
    (h : Replays held log source) (a : α) : a ∈ source ↔ a ∈ held ∨ a ∈ added log := by
  induction log generalizing held with
  | nil =>
    cases h
    simp [added]
  | cons entry rest ih =>
    cases entry with
    | add b =>
      have hrest := ih h.2
      simp only [added, List.filterMap_cons, List.mem_cons] at hrest ⊢
      rw [hrest, Set.mem_insert_iff, or_assoc, or_left_comm]
    | full members => exact ih h.2
    | mention b => exact ih h.2

theorem Replays.added_fresh {held source : Set α} {log : List (Entry α)}
    (h : Replays held log source) : ∀ a ∈ added log, a ∉ held := by
  induction log generalizing held with
  | nil => simp [added]
  | cons entry rest ih =>
    cases entry with
    | add b =>
      intro a ha
      rcases List.mem_cons.mp ha with rfl | ha
      · exact h.1
      · exact fun hheld => ih h.2 a ha (Set.mem_insert_of_mem b hheld)
    | full members => exact ih h.2
    | mention b => exact ih h.2

theorem Replays.added_nodup {held source : Set α} {log : List (Entry α)}
    (h : Replays held log source) : (added log).Nodup := by
  induction log generalizing held with
  | nil => exact List.nodup_nil
  | cons entry rest ih =>
    cases entry with
    | add b =>
      refine List.nodup_cons.mpr ⟨?_, ih h.2⟩
      exact fun hb => h.2.added_fresh b hb (Set.mem_insert b held)
    | full members => exact ih h.2
    | mention b => exact ih h.2

end Library.Replica
