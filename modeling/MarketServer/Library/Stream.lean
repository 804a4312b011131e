import Mathlib.Data.List.Infix

/-! Streams that arrive in pieces. A consumer of pieces is specified by a machine that
takes one element after the other; what such a machine writes only grows. -/
namespace Library.Stream

variable {α σ τ ε β : Type}

/-- A consumer that does with a piece what the machine does with its elements does with any
pieces what the machine does with the whole stream. -/
theorem foldlM_simulates (step : τ → α → τ) (consume : σ → List α → Except ε σ) (machine : σ → τ)
    {P : σ → Prop}
    (hstep : ∀ {state}, P state → ∀ piece, ∃ next, consume state piece = .ok next ∧ P next ∧
      machine next = piece.foldl step (machine state))
    (pieces : List (List α)) {state : σ} (hstate : P state) :
    ∃ final, pieces.foldlM consume state = .ok final ∧ P final ∧
      machine final = pieces.flatten.foldl step (machine state) := by
  induction pieces generalizing state with
  | nil => exact ⟨state, rfl, hstate, rfl⟩
  | cons piece pieces ih =>
    obtain ⟨next, hnext, hkept, hmachine⟩ := hstep hstate piece
    obtain ⟨final, hfinal, hfinalKept, hfinalMachine⟩ := ih hkept
    refine ⟨final, ?_, hfinalKept, ?_⟩
    · rw [List.foldlM_cons, hnext]
      exact hfinal
    · rw [hfinalMachine, hmachine, List.flatten_cons, List.foldl_append]

/-- What is written for a prefix of the stream is a prefix of what is written for all. -/
theorem prefix_of_prefix (step : τ → α → τ) (written : τ → List β)
    (hstep : ∀ state element, written state <+: written (step state element)) {part whole : List α}
    (h : part <+: whole) (state : τ) :
    written (part.foldl step state) <+: written (whole.foldl step state) := by
  obtain ⟨rest, rfl⟩ := h
  rw [List.foldl_append]
  generalize part.foldl step state = middle
  induction rest generalizing middle with
  | nil => exact List.prefix_rfl
  | cons element rest ih => exact (hstep middle element).trans (ih _)

end Library.Stream
