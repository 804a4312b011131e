import MarketServer.Outcome
import MarketServer.Exact
import Mathlib.Data.List.Nodup
import Mathlib.Algebra.Group.Nat.Defs

/-! The ids of created packages. Two creators draw from the 64-bit counter and
pass 32 bits on; the third always uses 0. -/
namespace MarketServer
open Library

variable {F : Type} [Component F]

/-- The functions that create `SDepthData` and `SymbolData` packages. -/
inductive Creation (F : Type) where
  | handleDepthData (depth : SDepthData F)
  | processNewSymbol (symbol : Bytes)
  | requestSymbolData

def Creation.handler : Creation F → Handler F Unit
  | .handleDepthData depth => DataReceive.handleDepthData depth
  | .processNewSymbol symbol => DataProcess.processNewSymbol symbol
  | .requestSymbolData => DataProcess.requestSymbolData

def createAll (steps : List (Creation F)) : Handler F Unit := forM steps Creation.handler

def Creation.isRequest : Creation F → Bool
  | .requestSymbolData => true
  | _ => false

def packageIds (log : Log F) : List Int32 := (Log.created log).map Package.packageId

/-- The ids of the packages a run creates when the counter stands at `id`. -/
def idsFrom (id : UInt64) : List (Creation F) → List Int32
  | [] => []
  | step :: rest =>
    if step.isRequest then 0 :: idsFrom id rest else narrow id :: idsFrom (id + 1) rest

theorem run_creation (step : Creation F) (world : World F) :
    ∃ next, step.handler.run world = .ok () next ∧
      next.nextId = (if step.isRequest then world.nextId else world.nextId + 1) ∧
      packageIds next.log =
        packageIds world.log ++ [if step.isRequest then 0 else narrow world.nextId] := by
  cases step with
  | handleDepthData depth => exact ⟨_, rfl, rfl, by simp [packageIds, Creation.isRequest]⟩
  | processNewSymbol symbol => exact ⟨_, rfl, rfl, by simp [packageIds, Creation.isRequest]⟩
  | requestSymbolData => exact ⟨_, rfl, rfl, by simp [packageIds, Creation.isRequest]⟩

theorem run_createAll (steps : List (Creation F)) (world : World F) :
    ∃ final, (createAll steps).run world = .ok () final ∧
      packageIds final.log = packageIds world.log ++ idsFrom world.nextId steps := by
  induction steps generalizing world with
  | nil => exact ⟨world, rfl, (List.append_nil _).symm⟩
  | cons step rest ih =>
    obtain ⟨next, hnext, hid, hids⟩ := run_creation step world
    obtain ⟨final, hfinal, hfinalIds⟩ := ih next
    refine ⟨final, ?_, ?_⟩
    · unfold createAll at hfinal ⊢
      rw [List.forM_cons, EStateM.run_bind, hnext]
      exact hfinal
    · rw [hfinalIds, hids, hid, List.append_assoc, List.singleton_append]
      by_cases h : step.isRequest = true <;> simp [idsFrom, h]

omit [Component F] in
theorem length_idsFrom (id : UInt64) (steps : List (Creation F)) :
    (idsFrom id steps).length = steps.length := by
  induction steps generalizing id with
  | nil => rfl
  | cons step rest ih =>
    unfold idsFrom
    split <;> simp [ih]

omit [Component F] in
theorem countP_le_count_idsFrom (id : UInt64) (steps : List (Creation F)) :
    steps.countP Creation.isRequest ≤ (idsFrom id steps).count 0 := by
  induction steps generalizing id with
  | nil => exact Nat.le_refl 0
  | cons step rest ih =>
    unfold idsFrom
    by_cases h : step.isRequest = true
    · have hrest := ih id
      rw [if_pos h, List.countP_cons_of_pos h, List.count_cons_self]
      omega
    · rw [if_neg h, List.countP_cons_of_neg h]
      exact (ih (id + 1)).trans List.count_le_count_cons

omit [Component F] in
/-- A request shares the id 0 with the first package that draws one. -/
theorem lt_count_idsFrom {steps : List (Creation F)}
    (hdraws : steps.countP Creation.isRequest < steps.length) :
    steps.countP Creation.isRequest < (idsFrom 0 steps).count 0 := by
  induction steps with
  | nil => exact absurd hdraws (Nat.lt_irrefl 0)
  | cons step rest ih =>
    unfold idsFrom
    by_cases h : step.isRequest = true
    · rw [List.countP_cons_of_pos h, List.length_cons] at hdraws
      have hrest := ih (by omega)
      rw [if_pos h, List.countP_cons_of_pos h, List.count_cons_self]
      omega
    · have hzero : narrow 0 = 0 := rfl
      have hrest := countP_le_count_idsFrom (0 + 1) rest
      rw [if_neg h, List.countP_cons_of_neg h, hzero, List.count_cons_self]
      omega

omit [Component F] in
theorem idsFrom_of_draws {steps : List (Creation F)} (hdraws : ∀ step ∈ steps, step.isRequest = false)
    (start : Nat) :
    idsFrom (.ofNat start) steps =
      (List.range steps.length).map fun i => narrow (.ofNat (start + i)) := by
  induction steps generalizing start with
  | nil => rfl
  | cons step rest ih =>
    have hstep := hdraws step List.mem_cons_self
    have hrest := ih (fun other hother => hdraws other (List.mem_cons_of_mem step hother)) (start + 1)
    have hnext : UInt64.ofNat start + 1 = UInt64.ofNat (start + 1) := by
      rw [UInt64.ofNat_add]
      rfl
    unfold idsFrom
    rw [hstep, if_neg Bool.false_ne_true, hnext, hrest, List.length_cons, List.range_succ_eq_map,
      List.map_cons, List.map_map]
    congr 1
    apply List.map_congr_left
    intro i _
    simp only [Function.comp_apply, Nat.succ_eq_add_one]
    congr 2
    omega

theorem narrow_eq_iff (i j : Nat) :
    narrow (.ofNat i) = narrow (.ofNat j) ↔ i % 2 ^ 32 = j % 2 ^ 32 := by
  unfold narrow
  rw [UInt64.toUInt32_ofNat', UInt64.toUInt32_ofNat']
  constructor
  · intro h
    have hwords := congrArg (fun id : Int32 => id.toUInt32.toNat) h
    simpa using hwords
  · intro h
    congr 1
    apply UInt32.toNat.inj
    simpa using h

/-- Only a counter that stays below 2 ^ 32 survives the narrowing. -/
theorem nodup_narrow_iff (n : Nat) :
    ((List.range n).map fun i => narrow (.ofNat i)).Nodup ↔ n ≤ 2 ^ 32 := by
  rw [List.nodup_map_iff_inj_on List.nodup_range]
  constructor
  · intro hinj
    by_contra hlarge
    have hsame := (narrow_eq_iff 0 (2 ^ 32)).mpr (by omega)
    have hfirst : 0 ∈ List.range n := List.mem_range.mpr (by omega)
    have hwrapped : 2 ^ 32 ∈ List.range n := List.mem_range.mpr (by omega)
    have hzero := hinj 0 hfirst (2 ^ 32) hwrapped hsame
    omega
  · intro hsmall i hi j hj hsame
    have hi := List.mem_range.mp hi
    have hj := List.mem_range.mp hj
    have hmod := (narrow_eq_iff i j).mp hsame
    omega

omit [Component F] in
theorem idsFrom_nodup_iff (steps : List (Creation F)) :
    (idsFrom 0 steps).Nodup ↔
      steps.length ≤ 1 ∨ (∀ step ∈ steps, step.isRequest = false) ∧ steps.length ≤ 2 ^ 32 := by
  by_cases hdraws : ∀ step ∈ steps, step.isRequest = false
  · have hids : idsFrom 0 steps = (List.range steps.length).map fun i => narrow (.ofNat i) := by
      have hfrom := idsFrom_of_draws hdraws 0
      simp only [Nat.zero_add] at hfrom
      exact hfrom
    rw [hids, nodup_narrow_iff]
    constructor
    · exact fun hsmall => Or.inr ⟨hdraws, hsmall⟩
    · rintro (hone | ⟨_, hsmall⟩)
      · omega
      · exact hsmall
  · have hrequest : 0 < steps.countP Creation.isRequest := by
      simpa [List.countP_pos_iff] using hdraws
    constructor
    · intro hnodup
      have hcount := List.nodup_iff_count_le_one.mp hnodup 0
      have hle := List.countP_le_length (p := Creation.isRequest) (l := steps)
      left
      by_contra hlength
      by_cases hlt : steps.countP Creation.isRequest < steps.length
      · have hzeros := lt_count_idsFrom hlt
        omega
      · have hzeros := countP_le_count_idsFrom 0 steps
        omega
    · rintro (hone | ⟨hnone, _⟩)
      · rw [List.nodup_iff_count_le_one]
        intro id
        have hcount := List.count_le_length (a := id) (l := idsFrom 0 steps)
        rw [length_idsFrom] at hcount
        omega
      · exact absurd hnone hdraws

/-- The ids of a run are distinct if and only if it creates at most one package,
or only packages that draw their id and at most 2 ^ 32 of them. -/
theorem package_ids_nodup_iff (steps : List (Creation F)) :
    ∃ world, (createAll steps).run (World.initial F) = .ok () world ∧
      ((packageIds world.log).Nodup ↔
        steps.length ≤ 1 ∨
          (∀ step ∈ steps, step.isRequest = false) ∧ steps.length ≤ 2 ^ 32) := by
  obtain ⟨world, hrun, hids⟩ := run_createAll steps (World.initial F)
  refine ⟨world, hrun, ?_⟩
  rw [hids]
  exact idsFrom_nodup_iff steps

/-- Two answers carry the same id. -/
theorem package_ids_repeat :
    ∃ world, (createAll [.requestSymbolData, .requestSymbolData]).run (World.initial ℚ) =
        .ok () world ∧ ¬ (packageIds world.log).Nodup :=
  ⟨_, rfl, by decide⟩

end MarketServer
