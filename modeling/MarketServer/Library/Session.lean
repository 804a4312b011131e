import Mathlib.Data.List.Basic

/-! A log cut at two marks: what stands before the first opening mark, what
stands from it up to the next closing mark, and the rest. -/
namespace Library.Session

inductive Phase where
  | before
  | inside
  | beyond
  deriving DecidableEq

variable {α : Type} (opens closes : α → Bool)

/-- An opening mark already belongs to the inside, a closing mark to the rest. -/
def Phase.next : Phase → α → Phase
  | .before, a => if opens a then .inside else .before
  | .inside, a => if closes a then .beyond else .inside
  | .beyond, _ => .beyond

def phaseFrom (phase : Phase) (log : List α) : Phase := log.foldl (Phase.next opens closes) phase

def portionFrom (part : Phase) : Phase → List α → List α
  | _, [] => []
  | phase, a :: rest =>
    let phase := phase.next opens closes a
    if phase = part then a :: portionFrom part phase rest else portionFrom part phase rest

def phase (log : List α) : Phase := phaseFrom opens closes .before log

def portion (part : Phase) (log : List α) : List α := portionFrom opens closes part .before log

theorem phase_append (first second : List α) :
    phase opens closes (first ++ second) =
      phaseFrom opens closes (phase opens closes first) second :=
  List.foldl_append

theorem portionFrom_append (part start : Phase) (first second : List α) :
    portionFrom opens closes part start (first ++ second) =
      portionFrom opens closes part start first ++
        portionFrom opens closes part (phaseFrom opens closes start first) second := by
  induction first generalizing start with
  | nil => rfl
  | cons a rest ih =>
    simp only [List.cons_append, portionFrom, ih]
    split <;> simp [phaseFrom]

theorem portion_append (part : Phase) (first second : List α) :
    portion opens closes part (first ++ second) =
      portion opens closes part first ++
        portionFrom opens closes part (phase opens closes first) second :=
  portionFrom_append opens closes part .before first second

theorem portionFrom_sublist (part start : Phase) (log : List α) :
    (portionFrom opens closes part start log).Sublist log := by
  induction log generalizing start with
  | nil => exact .slnil
  | cons a rest ih =>
    unfold portionFrom
    dsimp only
    split
    · exact (ih _).cons_cons a
    · exact (ih _).cons a

variable {opens closes}

theorem phaseFrom_unmarked {log : List α} (hopens : ∀ a ∈ log, opens a = false)
    (hcloses : ∀ a ∈ log, closes a = false) (start : Phase) :
    phaseFrom opens closes start log = start := by
  induction log with
  | nil => rfl
  | cons a rest ih =>
    have hnext : start.next opens closes a = start := by
      cases start <;> simp [Phase.next, hopens a, hcloses a]
    unfold phaseFrom at ih ⊢
    rw [List.foldl_cons, hnext]
    exact ih (fun b hb => hopens b (List.mem_cons_of_mem a hb))
      (fun b hb => hcloses b (List.mem_cons_of_mem a hb))

/-- Without a mark in it, a piece of the log falls into the current phase whole. -/
theorem portionFrom_unmarked {log : List α} (hopens : ∀ a ∈ log, opens a = false)
    (hcloses : ∀ a ∈ log, closes a = false) (part start : Phase) :
    portionFrom opens closes part start log = if start = part then log else [] := by
  induction log with
  | nil => simp [portionFrom]
  | cons a rest ih =>
    have hnext : start.next opens closes a = start := by
      cases start <;> simp [Phase.next, hopens a, hcloses a]
    simp only [portionFrom, hnext]
    rw [ih (fun b hb => hopens b (List.mem_cons_of_mem a hb))
      (fun b hb => hcloses b (List.mem_cons_of_mem a hb))]
    split <;> rfl

theorem portionFrom_beyond (log : List α) :
    portionFrom opens closes .before .beyond log = [] ∧
      portionFrom opens closes .inside .beyond log = [] ∧
      portionFrom opens closes .beyond .beyond log = log := by
  induction log with
  | nil => exact ⟨rfl, rfl, rfl⟩
  | cons a rest ih => simp [portionFrom, Phase.next, ih]

theorem portionFrom_inside (log : List α) :
    portionFrom opens closes .before .inside log = [] ∧
      portionFrom opens closes .inside .inside log ++
        portionFrom opens closes .beyond .inside log = log := by
  induction log with
  | nil => exact ⟨rfl, rfl⟩
  | cons a rest ih =>
    by_cases h : closes a = true
    · simp [portionFrom, Phase.next, h, portionFrom_beyond]
    · simp [portionFrom, Phase.next, h, ih]

theorem phaseFrom_ne_before {start : Phase} (hstart : start ≠ .before) (log : List α) :
    phaseFrom opens closes start log ≠ .before := by
  induction log generalizing start with
  | nil => exact hstart
  | cons a rest ih =>
    apply ih
    cases start with
    | before => exact absurd rfl hstart
    | inside => by_cases h : closes a = true <;> simp [Phase.next, h]
    | beyond => simp [Phase.next]

/-- As long as no opening mark was met, the inside is empty. -/
theorem portion_inside_of_before {log : List α} (h : phase opens closes log = .before) :
    portion opens closes .inside log = [] := by
  unfold portion phase at *
  induction log with
  | nil => rfl
  | cons a rest ih =>
    by_cases ha : opens a = true
    · have hrest : phaseFrom opens closes .inside rest = .before := by
        simpa [phaseFrom, Phase.next, ha] using h
      exact absurd hrest (phaseFrom_ne_before (by simp) rest)
    · have hrest : phaseFrom opens closes .before rest = .before := by
        simpa [phaseFrom, Phase.next, ha] using h
      simpa [portionFrom, Phase.next, ha] using ih hrest

/-- The three portions, one after the other, are the log. -/
theorem portions_append (log : List α) :
    portion opens closes .before log ++ portion opens closes .inside log ++
      portion opens closes .beyond log = log := by
  unfold portion
  induction log with
  | nil => rfl
  | cons a rest ih =>
    by_cases h : opens a = true
    · simp [portionFrom, Phase.next, h, portionFrom_inside]
    · simpa [portionFrom, Phase.next, h] using ih

end Library.Session
