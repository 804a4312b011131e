import Mathlib.Data.List.Forall2
import Mathlib.Order.Defs.PartialOrder

/-! Labelled systems whose step is a partial function: a label that is not
enabled has no successor. A run is a list of labels, and facts about runs come
from facts about one step through the rules below. -/
namespace Library.Transition

variable {σ ε : Type} {step : σ → ε → Option σ}

def run (step : σ → ε → Option σ) : σ → List ε → Option σ
  | state, [] => some state
  | state, label :: rest => (step state label).bind fun next => run step next rest

theorem run_cons_eq_some {state final : σ} {label : ε} {rest : List ε} :
    run step state (label :: rest) = some final ↔
      ∃ next, step state label = some next ∧ run step next rest = some final :=
  Option.bind_eq_some_iff

theorem run_append_eq_some {state final : σ} {first second : List ε} :
    run step state (first ++ second) = some final ↔
      ∃ middle, run step state first = some middle ∧ run step middle second = some final := by
  induction first generalizing state with
  | nil => simp [run]
  | cons label first ih =>
    rw [List.cons_append, run_cons_eq_some]
    simp only [ih, run_cons_eq_some]
    constructor
    · rintro ⟨next, hnext, middle, hmiddle, hfinal⟩
      exact ⟨middle, ⟨next, hnext, hmiddle⟩, hfinal⟩
    · rintro ⟨middle, ⟨next, hnext, hmiddle⟩, hfinal⟩
      exact ⟨next, hnext, middle, hmiddle, hfinal⟩

theorem run_concat {state middle final : σ} {labels : List ε} {label : ε}
    (hrun : run step state labels = some middle) (hstep : step middle label = some final) :
    run step state (labels ++ [label]) = some final :=
  run_append_eq_some.mpr ⟨middle, hrun, run_cons_eq_some.mpr ⟨final, hstep, rfl⟩⟩

/-- How a closed run is evaluated: its last state has a decidable property. -/
theorem run_satisfies {P : σ → Prop} [DecidablePred P] {state : σ} {labels : List ε}
    (h : (run step state labels).any (fun final => decide (P final)) = true) :
    ∃ final, run step state labels = some final ∧ P final := by
  obtain ⟨final, hrun, hfinal⟩ := (Option.any_eq_true _ _).mp h
  exact ⟨final, hrun, of_decide_eq_true hfinal⟩

/-- How a closed run and one step behind it are evaluated. -/
theorem step_satisfies {P : σ → σ → Prop} [∀ middle final, Decidable (P middle final)] {state : σ}
    {labels : List ε} (label : ε)
    (h : (run step state labels).any (fun middle =>
      (step middle label).any fun final => decide (P middle final)) = true) :
    ∃ middle final, run step state labels = some middle ∧ step middle label = some final ∧
      P middle final := by
  obtain ⟨middle, hrun, hstep⟩ := (Option.any_eq_true _ _).mp h
  obtain ⟨final, hfinal, hholds⟩ := (Option.any_eq_true _ _).mp hstep
  exact ⟨middle, final, hrun, hfinal, of_decide_eq_true hholds⟩

/-- A property of the state and of what was recorded of the labels so far, kept
by every allowed step, holds after every allowed run. -/
theorem run_history {γ : Type} (record : γ → ε → γ) {P : γ → σ → Prop} (allowed : ε → Prop)
    (hstep : ∀ {history state label next}, allowed label → P history state →
      step state label = some next → P (record history label) next)
    (history : γ) {state final : σ} {labels : List ε} (hallowed : ∀ label ∈ labels, allowed label)
    (hstate : P history state) (hrun : run step state labels = some final) :
    P (labels.foldl record history) final := by
  induction labels generalizing history state with
  | nil =>
    cases Option.some.inj hrun
    exact hstate
  | cons label rest ih =>
    obtain ⟨next, hnext, hrest⟩ := run_cons_eq_some.mp hrun
    exact ih _ (fun l hl => hallowed l (List.mem_cons_of_mem _ hl))
      (hstep (hallowed label List.mem_cons_self) hstate hnext) hrest

/-- The same with all labels so far. -/
theorem run_labels {P : List ε → σ → Prop} (allowed : ε → Prop)
    (hstep : ∀ {labels state label next}, allowed label → P labels state →
      step state label = some next → P (labels ++ [label]) next)
    {state final : σ} {labels : List ε} (hallowed : ∀ label ∈ labels, allowed label)
    (hstate : P [] state) (hrun : run step state labels = some final) : P labels final := by
  have hlabels : labels.foldl (fun history label => history ++ [label]) [] = labels := by
    rw [List.foldl_append_eq_append, ← List.flatMap_def, List.flatMap_singleton', List.nil_append]
  have hfinal := run_history (fun history label => history ++ [label]) allowed hstep [] hallowed
    hstate hrun
  rwa [hlabels] at hfinal

/-- A property that every allowed step keeps holds after every allowed run. -/
theorem run_invariant {P : σ → Prop} (allowed : ε → Prop)
    (hstep : ∀ {state label next}, allowed label → P state →
      step state label = some next → P next)
    {state final : σ} {labels : List ε} (hallowed : ∀ label ∈ labels, allowed label)
    (hstate : P state) (hrun : run step state labels = some final) : P final :=
  run_history (P := fun (_ : Unit) state => P state) (fun _ _ => ()) allowed hstep () hallowed
    hstate hrun

/-- What each step adds to a reading of the state, the run adds label by label. -/
theorem run_reading {β : Type} {P : σ → Prop} (reading : σ → List β) (emitted : ε → Option β)
    (hstep : ∀ {state label next}, P state → step state label = some next →
      P next ∧ reading next = reading state ++ (emitted label).toList)
    {state final : σ} {labels : List ε} (hstate : P state)
    (hrun : run step state labels = some final) :
    reading final = reading state ++ labels.filterMap emitted := by
  induction labels generalizing state with
  | nil =>
    cases Option.some.inj hrun
    simp
  | cons label rest ih =>
    obtain ⟨next, hnext, hrest⟩ := run_cons_eq_some.mp hrun
    obtain ⟨hkept, hreading⟩ := hstep hstate hnext
    rw [ih hkept hrest, hreading, List.append_assoc, List.filterMap_cons]
    cases emitted label <;> rfl

/-- What is observed of each state of a run and the label it goes on with. -/
def observations {β : Type} (step : σ → ε → Option σ) (observe : σ → ε → β) : σ → List ε → List β
  | _, [] => []
  | state, label :: rest =>
    observe state label :: (step state label).elim [] fun next => observations step observe next rest

/-- Where what a step may add to a reading depends on the state, the run adds it step by
step. -/
theorem run_adds {β γ : Type} (P : σ → Prop) (reading : σ → List β) (render : γ → List β)
    (adds : σ → ε → γ → Prop) (Q : γ → Prop) (allowed : ε → Prop)
    (hstep : ∀ {state label next}, allowed label → P state → step state label = some next →
      P next ∧ ∃ piece, adds state label piece ∧ Q piece ∧
        reading next = reading state ++ render piece)
    {state final : σ} {labels : List ε} (hallowed : ∀ label ∈ labels, allowed label)
    (hstate : P state) (hrun : run step state labels = some final) :
    P final ∧ ∃ pieces,
      List.Forall₂ (fun adds piece => adds piece) (observations step adds state labels) pieces ∧
      (∀ piece ∈ pieces, Q piece) ∧ reading final = reading state ++ pieces.flatMap render := by
  induction labels generalizing state with
  | nil =>
    cases Option.some.inj hrun
    exact ⟨hstate, [], .nil, fun _ h => absurd h List.not_mem_nil, by simp⟩
  | cons label rest ih =>
    obtain ⟨next, hnext, hrest⟩ := run_cons_eq_some.mp hrun
    obtain ⟨hkept, piece, hpiece, hQ, hreading⟩ :=
      hstep (hallowed label List.mem_cons_self) hstate hnext
    obtain ⟨hfinal, pieces, hpieces, hQs, hreadings⟩ :=
      ih (fun l hl => hallowed l (List.mem_cons_of_mem _ hl)) hkept hrest
    refine ⟨hfinal, piece :: pieces, ?_, List.forall_mem_cons.mpr ⟨hQ, hQs⟩, ?_⟩
    · rw [observations, hnext]
      exact .cons hpiece hpieces
    · rw [hreadings, hreading, List.flatMap_cons, List.append_assoc]

/-- As long as some allowed step makes a measure smaller, allowed steps lead to a
state in which it is zero. -/
theorem run_exhausts {P : σ → Prop} (measure : σ → Nat) (allowed : ε → Prop)
    (hstep : ∀ {state}, P state → 0 < measure state → ∃ label next, allowed label ∧
      step state label = some next ∧ P next ∧ measure next < measure state)
    {state : σ} (hstate : P state) :
    ∃ labels final, (∀ label ∈ labels, allowed label) ∧ run step state labels = some final ∧
      P final ∧ measure final = 0 := by
  induction hn : measure state using Nat.strongRecOn generalizing state with
  | ind n ih =>
    by_cases hpos : 0 < measure state
    · obtain ⟨label, next, hallowed, hnext, hkept, hlt⟩ := hstep hstate hpos
      obtain ⟨labels, final, hlabels, hrun, hfinal, hzero⟩ := ih _ (hn ▸ hlt) hkept rfl
      exact ⟨label :: labels, final, List.forall_mem_cons.mpr ⟨hallowed, hlabels⟩,
        run_cons_eq_some.mpr ⟨next, hnext, hrun⟩, hfinal, hzero⟩
    · exact ⟨[], state, fun _ h => absurd h List.not_mem_nil, rfl, hstate,
        Nat.eq_zero_of_not_pos hpos⟩

end Library.Transition
