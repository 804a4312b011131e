/-! Loops that end when a test fails or after a number of passes. The body may fail. -/
namespace Library

variable {σ ε : Type} {test : σ → Bool} {body : σ → Except ε σ}

/-- `while (count < passes && test)` -/
def boundedWhile (test : σ → Bool) (body : σ → Except ε σ) : Nat → σ → Except ε σ
  | 0, state => .ok state
  | passes + 1, state =>
    if test state then body state >>= boundedWhile test body passes else .ok state

theorem boundedWhile_done {state : σ} (htest : test state = false) (passes : Nat) :
    boundedWhile test body passes state = .ok state := by
  cases passes with
  | zero => rfl
  | succ passes => simp [boundedWhile, htest]

theorem boundedWhile_pass {state : σ} (htest : test state = true) (passes : Nat) :
    boundedWhile test body (passes + 1) state =
      body state >>= boundedWhile test body passes := by
  simp [boundedWhile, htest]

/-- What every pass keeps holds in the end. -/
theorem boundedWhile_invariant (I : σ → Prop)
    (hbody : ∀ {state next}, I state → test state = true → body state = .ok next → I next)
    {passes : Nat} {state final : σ} (hstate : I state)
    (hfinal : boundedWhile test body passes state = .ok final) : I final := by
  induction passes generalizing state with
  | zero =>
    cases hfinal
    exact hstate
  | succ passes ih =>
    cases htest : test state with
    | false =>
      rw [boundedWhile_done htest] at hfinal
      cases hfinal
      exact hstate
    | true =>
      rw [boundedWhile_pass htest] at hfinal
      cases hnext : body state with
      | error failure =>
        rw [hnext] at hfinal
        cases hfinal
      | ok next =>
        rw [hnext] at hfinal
        exact ih (hbody hstate htest hnext) hfinal

/-- The test fails in the end when a measure that starts within the passes decreases. -/
theorem boundedWhile_terminates (I : σ → Prop) (measure : σ → Nat)
    (hbody : ∀ {state}, I state → test state = true →
      ∃ next, body state = .ok next ∧ I next ∧ measure next < measure state)
    {passes : Nat} {state : σ} (hstate : I state) (hmeasure : measure state ≤ passes) :
    ∃ final, boundedWhile test body passes state = .ok final ∧ I final ∧ test final = false := by
  induction passes generalizing state with
  | zero =>
    cases htest : test state with
    | false => exact ⟨state, rfl, hstate, htest⟩
    | true =>
      obtain ⟨next, -, -, hless⟩ := hbody hstate htest
      omega
  | succ passes ih =>
    cases htest : test state with
    | false => exact ⟨state, boundedWhile_done htest _, hstate, htest⟩
    | true =>
      obtain ⟨next, hnext, hinvariant, hless⟩ := hbody hstate htest
      rw [boundedWhile_pass htest, hnext]
      exact ih hinvariant (by omega)

end Library
