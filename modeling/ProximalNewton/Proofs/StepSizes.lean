import Mathlib.Tactic.FieldSimp
import Mathlib.Tactic.Linarith
import ProximalNewton.Proofs.Course
import ProximalNewton.Proofs.Evaluation
import ProximalNewton.Proofs.RealVectors

/-!
# Step sizes whose numbers belong together

A step size is made from an estimate or by halving another one. Over exact arithmetic
its numbers therefore stay in the relations in which they are made
(`StepSize.Balanced`), and so they are wherever a run gets (`Job.Reaches.balanced`).

Two limits are computed from these numbers by formulas of their own: the one that the
merit after the proximal step is held to, and the one that the envelope of a trial is
held to. For a balanced step size they differ by the margin `10⁻⁶|ψ|` and by nothing else
(`StepSize.Balanced.descentLimit_eq`).

Halving the step size of an estimate `k` times gives the step size of `2ᵏ` times the
estimate (`StepSize.iterate_halved_ofLipschitz`): it makes no difference on which of the
two ways a step size was made. `StepSize.halved_estimate_relations` states all of these
relations together.
-/

namespace ProximalNewton

variable {ε : Type} {n m : Nat}

namespace StepSize

/-- The proximal step and the search constant are those of the estimate. -/
structure Balanced (step : StepSize ℝ) : Prop where
  gamma_pos : 0 < step.gamma
  product : step.gamma * step.lipschitz = 0.95
  sigma_eq : step.sigma = step.gamma * (1 - step.gamma * step.lipschitz) / 2

theorem balanced_ofLipschitz {lipschitz : ℝ} (positive : 0 < lipschitz) :
    (ofLipschitz lipschitz).Balanced := by
  constructor
  case gamma_pos => exact div_pos (by norm_num) positive
  case product => exact div_mul_cancel₀ _ positive.ne'
  case sigma_eq =>
    show 0.95 / lipschitz * (1 - 0.95 / lipschitz * lipschitz) * 0.5 = _
    rw [show (ofLipschitz lipschitz).gamma = 0.95 / lipschitz from rfl,
      show (ofLipschitz lipschitz).lipschitz = lipschitz from rfl]
    ring

namespace Balanced

variable {step : StepSize ℝ} (balanced : step.Balanced)

include balanced

theorem halved : step.halved.Balanced := by
  have gamma_eq : step.halved.gamma = step.gamma / (1 + 1) := rfl
  have product_eq : step.halved.gamma * step.halved.lipschitz = step.gamma * step.lipschitz := by
    rw [gamma_eq, show step.halved.lipschitz = step.lipschitz * (1 + 1) from rfl]
    ring
  constructor
  case gamma_pos =>
    rw [gamma_eq]
    exact div_pos balanced.gamma_pos (by norm_num)
  case product =>
    rw [product_eq, balanced.product]
  case sigma_eq =>
    rw [product_eq, gamma_eq, show step.halved.sigma = step.sigma / (1 + 1) from rfl,
      balanced.sigma_eq]
    ring

theorem iterate_halved (k : Nat) : (StepSize.halved^[k] step).Balanced := by
  induction k with
  | zero => exact balanced
  | succ k balanced_k =>
    rw [Function.iterate_succ_apply']
    exact balanced_k.halved

theorem sigma_pos : 0 < step.sigma := by
  rw [balanced.sigma_eq, balanced.product]
  have := balanced.gamma_pos
  linarith

theorem requiredDecrease_nonneg {normSqR : ℝ} (nonneg : 0 ≤ normSqR) :
    0 ≤ step.requiredDecrease normSqR :=
  div_nonneg (mul_nonneg balanced.sigma_pos.le nonneg) (mul_self_nonneg _)

/-- The merit after the proximal step is held to the limit for the envelope of a trial, up
to a margin. -/
theorem descentLimit_eq (psi gradDotR normSqR : ℝ) :
    step.descentLimit psi gradDotR normSqR =
      step.envelope psi gradDotR normSqR - step.requiredDecrease normSqR + 1e-6 * |psi| := by
  have gamma_ne : step.gamma ≠ 0 := balanced.gamma_pos.ne'
  have quadratic : 0.5 * step.lipschitz * normSqR =
      0.5 / step.gamma * normSqR - step.requiredDecrease normSqR := by
    unfold requiredDecrease
    rw [balanced.sigma_eq]
    field_simp
    ring
  show psi - gradDotR + 0.5 * step.lipschitz * normSqR + 1e-6 * |psi| =
    psi - gradDotR + 0.5 / step.gamma * normSqR - step.requiredDecrease normSqR + 1e-6 * |psi|
  rw [quadratic]
  ring

end Balanced

end StepSize

/-- The threshold of a search is the limit for the merit after the proximal step, without
the margin. -/
theorem Search.threshold_eq_descentLimit {search : Search ℝ ε n m}
    (balanced : search.step.Balanced) :
    search.threshold =
      search.current.descentLimit search.step - 1e-6 * |search.current.psi| := by
  have limit := balanced.descentLimit_eq search.current.psi search.current.gradDotR
    search.current.normSqR
  exact eq_sub_of_add_eq limit.symm

/-! ## Halving the step size of an estimate -/

namespace StepSize

theorem halved_ofLipschitz (lipschitz : ℝ) :
    (ofLipschitz lipschitz).halved = ofLipschitz (2 * lipschitz) := by
  have lipschitz_eq : lipschitz * (1 + 1) = 2 * lipschitz := by ring
  have gamma_eq : 0.95 / lipschitz / (1 + 1) = 0.95 / (2 * lipschitz) := by
    rw [div_div, lipschitz_eq]
  have sigma_eq : 0.95 / lipschitz * (1 - 0.95 / lipschitz * lipschitz) * 0.5 / (1 + 1) =
      0.95 / (2 * lipschitz) * (1 - 0.95 / (2 * lipschitz) * (2 * lipschitz)) * 0.5 := by
    rw [← gamma_eq]
    ring
  show StepSize.mk (lipschitz * (1 + 1)) (0.95 / lipschitz / (1 + 1))
    (0.95 / lipschitz * (1 - 0.95 / lipschitz * lipschitz) * 0.5 / (1 + 1)) = _
  rw [lipschitz_eq, sigma_eq, gamma_eq]
  rfl

theorem iterate_halved_ofLipschitz (lipschitz : ℝ) (k : Nat) :
    halved^[k] (ofLipschitz lipschitz) = ofLipschitz (2 ^ k * lipschitz) := by
  induction k with
  | zero => rw [pow_zero, one_mul, Function.iterate_zero_apply]
  | succ k made =>
    rw [Function.iterate_succ_apply', made, halved_ofLipschitz, pow_succ', mul_assoc]

theorem gamma_iterate_halved (step : StepSize ℝ) (k : Nat) :
    (halved^[k] step).gamma = step.gamma / 2 ^ k := by
  induction k with
  | zero => rw [pow_zero, div_one, Function.iterate_zero_apply]
  | succ k halved_k =>
    rw [Function.iterate_succ_apply', pow_succ, ← div_div, ← halved_k, ← one_add_one_eq_two]
    rfl

/-- However often it is halved, a positive step stays positive and grows no longer. -/
theorem gamma_iterate_halved_mem {step : StepSize ℝ} (positive : 0 < step.gamma) (k : Nat) :
    0 < (halved^[k] step).gamma ∧ (halved^[k] step).gamma ≤ step.gamma := by
  rw [gamma_iterate_halved]
  exact ⟨div_pos positive (pow_pos two_pos k),
    div_le_self positive.le (one_le_pow₀ one_le_two)⟩

/-- **However often it is halved, the step size of an estimate is the one of a larger
estimate.** Its proximal step and its search constant are positive and those of the doubled
estimate, and the two limits that it gives, for the merit after the proximal step and for
the envelope of a trial, are one formula up to the margin. -/
theorem halved_estimate_relations {lipschitz : ℝ} (positive : 0 < lipschitz) (k : Nat) :
    let step := halved^[k] (ofLipschitz lipschitz)
    step = ofLipschitz (2 ^ k * lipschitz) ∧ 0 < step.gamma ∧ 0 < step.sigma ∧
      step.gamma * step.lipschitz = 0.95 ∧
      step.sigma = step.gamma * (1 - step.gamma * step.lipschitz) / 2 ∧
      (∀ psi gradDotR normSqR : ℝ, step.descentLimit psi gradDotR normSqR =
        step.envelope psi gradDotR normSqR - step.requiredDecrease normSqR + 1e-6 * |psi|) ∧
      ∀ {ε : Type} {n m : Nat} (search : Search ℝ ε n m), search.step = step →
        search.threshold =
          search.current.descentLimit search.step - 1e-6 * |search.current.psi| := by
  intro step
  have balanced : step.Balanced := (balanced_ofLipschitz positive).iterate_halved k
  refine ⟨iterate_halved_ofLipschitz lipschitz k, balanced.gamma_pos, balanced.sigma_pos,
    balanced.product, balanced.sigma_eq, balanced.descentLimit_eq, ?searched⟩
  case searched =>
    intro ε n m search same_step
    exact Search.threshold_eq_descentLimit (same_step ▸ balanced)

/-- The estimate three, doubled twice. -/
theorem halved_estimate_relations_three :
    (0 : ℝ) < 3 ∧ halved^[2] (ofLipschitz (3 : ℝ)) = ofLipschitz 12 ∧
      0 < (ofLipschitz (3 : ℝ)).halved.halved.sigma ∧
      (ofLipschitz (3 : ℝ)).halved.halved.gamma * 12 = 0.95 := by
  have positive : (0 : ℝ) < 3 := by norm_num
  obtain ⟨made, -, sigma_pos, product, -⟩ := halved_estimate_relations positive 2
  have fourfold : (2 : ℝ) ^ 2 * 3 = 12 := by norm_num
  have lipschitz_eq : (ofLipschitz (3 : ℝ)).halved.halved.lipschitz = 12 := by
    rw [show (ofLipschitz (3 : ℝ)).halved.halved = ofLipschitz (2 ^ 2 * 3) from made, fourfold]
    rfl
  exact ⟨positive, fourfold ▸ made, sigma_pos, lipschitz_eq ▸ product⟩

end StepSize

/-! ## Step sizes of a run -/

namespace Job

variable {job : Job ℝ ε n m} {laps : List (Lap ℝ n m job.depth)} {events : List (Event ℝ)}
  {point : Point ℝ n m job.depth}

/-- Every step size of a run is balanced. -/
theorem Reaches.balanced (reached : job.Reaches laps events point) :
    point.state.step.Balanced := by
  refine reached.state_invariant (fun state => state.step.Balanced) ?start ?evaluated ?tightened
    ?advanced
  case start =>
    intro state started
    obtain ⟨initial, ledger, lipschitz, ledger', -, -, -, rfl⟩ := start_eq_ok started
    have floor_pos : 0 < job.params.estimate.lMin := (job.params_valid .lMin).1
    have estimate_pos : 0 < maxNum lipschitz job.params.estimate.lMin := by
      rw [maxNum_eq_max]
      exact lt_max_of_lt_right floor_pos
    exact StepSize.balanced_ofLipschitz estimate_pos
  case evaluated =>
    intro state ledger balanced
    exact balanced
  case tightened =>
    intro state balanced
    exact balanced.halved
  case advanced =>
    intro state result balanced
    exact balanced

/-- Every step size of a run is positive. -/
theorem Reaches.gamma_pos (reached : job.Reaches laps events point) :
    0 < point.state.step.gamma :=
  reached.balanced.gamma_pos

end Job

end ProximalNewton
