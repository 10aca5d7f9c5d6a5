import Mathlib.Tactic.Linarith
import ProximalNewton.Proofs.Coherence
import ProximalNewton.Proofs.RealMerit
import ProximalNewton.Proofs.StepSizes
import ProximalNewton.Proofs.Success

/-!
# Convergence is stationarity

Over exact arithmetic, what a successful solve returns is a KKT point of the
problem up to the tolerance: the point is in `C`, the gradient of the Lagrangian
there is within the tolerance of the normal cone of `C`, the slack is in `D`, and
the multipliers are normal to `D` at the slack.

The gradient is bounded through the residual of the proximal gradient map. Where
projection has not moved a component up, `x̂ ≤ x - γ∇ψ(x)`, so that `∇ψ(x)` is at
most `γ⁻¹r` and cancels against it in the residual; this needs a positive `γ`,
which every step size of a run has (`Job.Reaches.gamma_pos`).
-/

namespace ProximalNewton

variable {ε σ : Type} {n m : Nat}

/-- First-order optimality up to a tolerance: of a point `x` with a slack `z` and
multipliers `y`, for the gradient of the Lagrangian at `x` and `y`. -/
structure KktPoint (C : Box ℝ n) (D : Box ℝ m) (eps : ℝ) (grad x : Vector ℝ n)
    (z y : Vector ℝ m) : Prop where
  feasible : C.Contains x
  grad_le : ∀ (i : Nat) (inside : i < n),
    (∀ low ∈ C.sides[i].lower, low < x[i]) → grad[i] ≤ eps
  neg_le_grad : ∀ (i : Nat) (inside : i < n),
    (∀ high ∈ C.sides[i].upper, x[i] < high) → -eps ≤ grad[i]
  attained : D.Contains z
  upper_of_pos : ∀ (j : Nat) (inside : j < m), 0 < y[j] → D.sides[j].upper = some z[j]
  lower_of_neg : ∀ (j : Nat) (inside : j < m), y[j] < 0 → D.sides[j].lower = some z[j]

namespace Job

variable {job : Job ℝ ε n m} {laps : List (Lap ℝ n m job.depth)} {events : List (Event ℝ)}

/-! ## The gradient -/

variable {state : State ℝ n m job.depth} {atHat : Evaluation ℝ n m}

/-- A component of the residual. -/
theorem getElem_residualVector (state : State ℝ n m job.depth) (atHat : Evaluation ℝ n m)
    {i : Nat} (inside : i < n) :
    (state.residualVector atHat)[i] =
      atHat.gradPsi[i] - state.current.gradPsi[i] +
        1 / state.step.gamma * state.current.r[i] := by
  unfold State.residualVector ProximalNewton.residualVector
  rw [Vector.getElem_add, Vector.getElem_sub, Vector.getElem_hmul]

/-- A residual within the tolerance bounds each of its components. -/
theorem abs_residualVector_le (small : state.residual atHat ≤ job.eps) {i : Nat}
    (inside : i < n) : |(state.residualVector atHat)[i]| ≤ job.eps := by
  rcases residual_le_iff.mp small i inside with unordered | within
  · cases unordered
  · exact within

/-- The proximal step of an iteration, component by component. -/
theorem Reaches.getElem_step (reached : job.Reaches laps events (.measured state atHat)) {i : Nat}
    (inside : i < n) :
    state.current.xHat[i] = job.C.sides[i].clamp
        (state.current.x[i] - state.step.gamma * state.current.gradPsi[i]) ∧
      state.current.r[i] = state.current.x[i] - state.current.xHat[i] := by
  obtain ⟨projected, step⟩ := projected_of_iterateAt reached.current_coherent
  simp only [Point.state] at projected step
  constructor
  · rw [projected, Box.getElem_project, Vector.getElem_sub, Vector.getElem_hmul]
  · rw [step, Vector.getElem_sub]

/-- Above the lower bound the gradient at the projected point is at most the
tolerance. -/
theorem Reaches.gradient_le (reached : job.Reaches laps events (.measured state atHat))
    (small : state.residual atHat ≤ job.eps) {i : Nat} (inside : i < n)
    (above : ∀ low ∈ job.C.sides[i].lower, low < state.current.xHat[i]) :
    atHat.gradPsi[i] ≤ job.eps := by
  obtain ⟨projected, step⟩ := reached.getElem_step inside
  have positive : 0 < state.step.gamma := reached.gamma_pos
  have bounded := (abs_le.mp (abs_residualVector_le small inside)).2
  rw [getElem_residualVector state atHat inside] at bounded
  rw [projected] at above
  have not_up := Interval.clamp_le above
  rw [← projected] at not_up
  have grad_le_step : state.current.gradPsi[i] ≤ 1 / state.step.gamma * state.current.r[i] := by
    rw [step, one_div, inv_mul_eq_div, le_div_iff₀ positive]
    linarith
  linarith

/-- Below the upper bound the gradient at the projected point is at least minus
the tolerance. -/
theorem Reaches.neg_le_gradient (reached : job.Reaches laps events (.measured state atHat))
    (small : state.residual atHat ≤ job.eps) {i : Nat} (inside : i < n)
    (below : ∀ high ∈ job.C.sides[i].upper, state.current.xHat[i] < high) :
    -job.eps ≤ atHat.gradPsi[i] := by
  obtain ⟨projected, step⟩ := reached.getElem_step inside
  have positive : 0 < state.step.gamma := reached.gamma_pos
  have bounded := (abs_le.mp (abs_residualVector_le small inside)).1
  rw [getElem_residualVector state atHat inside] at bounded
  rw [projected] at below
  have not_down := Interval.le_clamp below
  rw [← projected] at not_down
  have step_le_grad : 1 / state.step.gamma * state.current.r[i] ≤ state.current.gradPsi[i] := by
    rw [step, one_div, inv_mul_eq_div, div_le_iff₀ positive]
    linarith
  linarith

/-! ## Solutions -/

theorem weight_pos (job : Job ℝ ε n m) {j : Nat} (inside : j < m) : 0 < job.merit.sigma[j] :=
  (job.sigma_pos _ (Vector.getElem_mem inside)).1

/-- What a run returns where its residual is within the tolerance is a KKT point
up to the tolerance. -/
theorem Reaches.kktPoint (reached : job.Reaches laps events (.measured state atHat))
    (small : state.residual atHat ≤ job.eps) :
    ∃ gradF gradG, job.oracles.gradF state.current.xHat = .ok gradF ∧
      job.oracles.gradG state.current.xHat state.ledger.multipliers = .ok gradG ∧
      KktPoint job.C job.D job.eps (gradF + gradG) state.current.xHat atHat.z
        state.ledger.multipliers := by
  obtain ⟨g, gradF, gradG, -, slack_eq, multipliers_eq, -, slopeF, slopeG, gradient_eq⟩ :=
    reached.solution_evaluated
  refine ⟨gradF, gradG, slopeF, slopeG, ?feasible, ?grad_le, ?neg_le_grad, ?attained,
    ?upper_of_pos, ?lower_of_neg⟩
  case feasible =>
    have projected := (projected_of_iterateAt reached.current_coherent).1
    simp only [Point.state] at projected
    rw [projected]
    exact Box.contains_project job.C_valid _
  case grad_le =>
    intro i inside above
    rw [← gradient_eq]
    exact reached.gradient_le small inside above
  case neg_le_grad =>
    intro i inside below
    rw [← gradient_eq]
    exact reached.neg_le_gradient small inside below
  case attained =>
    rw [slack_eq]
    exact Box.contains_project job.D_valid _
  case upper_of_pos =>
    intro j inside positive
    simp only [multipliers_eq, slack_eq] at positive ⊢
    exact Merit.upper_of_multiplier_pos (job.weight_pos inside) positive
  case lower_of_neg =>
    intro j inside negative
    simp only [multipliers_eq, slack_eq] at negative ⊢
    exact Merit.lower_of_multiplier_neg (job.weight_pos inside) negative

end Job

/-- **Soundness of the stopping test.** A request over the reals that is solved
leaves a KKT point up to its tolerance in the buffers, for the gradient of the
Lagrangian at the returned point and multipliers. -/
theorem Request.solve_kktPoint {request : Request ℝ ε} {observer : Observer ℝ σ} {listener : σ}
    {summary : Summary ℝ} (solved : (request.solve observer listener).result = .ok summary) :
    ∃ (sameC : request.problem.dimC = request.problem.numVars)
      (sameD : request.problem.dimD = request.problem.numConstraints)
      (x gradF gradG : Vector ℝ request.problem.numVars)
      (z y : Vector ℝ request.problem.numConstraints),
      (request.solve observer listener).buffers.x = x.toArray ∧
      (request.solve observer listener).buffers.z = z.toArray ∧
      (request.solve observer listener).buffers.y = y.toArray ∧
      request.problem.oracles.gradF x = .ok gradF ∧
      request.problem.oracles.gradG x y = .ok gradG ∧
      KktPoint (request.problem.C.cast sameC) (request.problem.D.cast sameD) request.eps
        (gradF + gradG) x z y := by
  obtain ⟨job, solution, accepted, answered, buffers, -⟩ := solve_eq_ok solved
  obtain ⟨laps, events, state, atHat, reached, small, rfl⟩ := Job.solve_eq_ok answered
  obtain ⟨gradF, gradG, slopeF, slopeG, kkt⟩ := reached.kktPoint small
  obtain ⟨faultless, rfl⟩ := accept_eq_ok accepted
  have agree := sizes_agree (conditions_of_faultless faultless).2.1
  refine ⟨agree.2.1, agree.2.2.1, state.current.xHat, gradF, gradG, atHat.z,
    state.ledger.multipliers, ?_, ?_, ?_, slopeF, slopeG, kkt⟩
  all_goals
    rw [buffers]
    rfl

/-! ## A request that is solved -/

/-- A unit slope on the halfline from zero, with a constraint value of two that is
to be at most one. -/
noncomputable def slopeProblem : Problem ℝ Unit where
  numVars := 1
  numConstraints := 1
  oracles :=
    { f := fun x => .ok (x.get ⟨0, Nat.one_pos⟩)
      gradF := fun _ => .ok #v[1]
      g := fun _ => .ok #v[1 + 1]
      gradG := fun _ _ => .ok #v[0] }
  dimC := 1
  dimD := 1
  C := ⟨#v[⟨some 0, none⟩]⟩
  D := ⟨#v[⟨none, some 1⟩]⟩

/-- One iteration from the origin. -/
noncomputable def slopeRequest : Request ℝ Unit where
  problem := slopeProblem
  params :=
    { maxIter := 1
      memory := { depth := 1, curvatureTol := 0 }
      estimate := { epsilon := 1, delta := 1, lMin := 1, maxUpdates := 0 }
      search := { tauMin := 0.5 } }
  buffers := { x := #[0], z := #[0], y := #[0], errZ := #[0] }
  sigma := #[1]
  eps := 1

theorem slopeRequest_faultless : slopeRequest.fault? = none := by
  have params_valid : slopeRequest.params.Valid := by
    intro which
    cases which <;> simp [Params.Meets, slopeRequest, IsPositive, Scalar.isFinite]
    norm_num
  have C_valid : slopeRequest.problem.C.Valid := by
    intro i inside
    cases Nat.lt_one_iff.mp inside
    exact ⟨by simp [Interval.Unordered, Scalar.isNaN], nofun⟩
  have D_valid : slopeRequest.problem.D.Valid := by
    intro i inside
    cases Nat.lt_one_iff.mp inside
    exact ⟨by simp [Interval.Unordered, Scalar.isNaN], nofun⟩
  have weights : slopeRequest.weightFault? = none := by
    simp [Request.weightFault?, slopeRequest, IsPositive, Scalar.isFinite]
  have tolerance : 0 < slopeRequest.eps := zero_lt_one
  simp only [Request.fault?, Option.orElse_eq_orElse, Option.orElse_eq_or, Option.or_eq_none_iff,
    Option.map_eq_none_iff, Box.fault?_eq_none_iff, Params.fault?_eq_none_iff]
  exact ⟨rfl, rfl, C_valid, D_valid, weights, params_valid, if_pos tolerance⟩

noncomputable def slopeJob : Job ℝ Unit 1 1 :=
  slopeRequest.job slopeRequest_faultless

/-- A job with another target set, other multipliers and other weights. -/
def Job.withTarget (job : Job ℝ ε n m) (D : Box ℝ m) (y sigma : Vector ℝ m) (D_valid : D.Valid)
    (sigma_pos : ∀ weight ∈ sigma, IsPositive weight) : Job ℝ ε n m :=
  { job with D, y, sigma, D_valid, sigma_pos }

/-- The origin is where the slope is held by the bound, and is found at once. -/
theorem slopeJob_withTarget_solved (D : Box ℝ 1) (y sigma : Vector ℝ 1) (D_valid : D.Valid)
    (sigma_pos : ∀ weight ∈ sigma, IsPositive weight) : ∃ solution,
    ((slopeJob.withTarget D y sigma D_valid sigma_pos).solve Observer.silent ()).2 =
      .ok solution := by
  generalize made : slopeJob.withTarget D y sigma D_valid sigma_pos = job
  obtain ⟨state, started, at_origin, slope, step⟩ : ∃ state, job.start = .ok state ∧
      state.current.x = #v[0] ∧ state.current.gradPsi = #v[1] + #v[0] ∧
      state.current.r = state.current.x -
        slopeJob.C.project (state.current.x - state.step.gamma * state.current.gradPsi) := by
    subst made
    exact ⟨_, rfl, rfl, rfl, rfl⟩
  obtain ⟨atHat, ledger, evaluated, slope_hat⟩ : ∃ atHat ledger,
      job.merit.evaluate state.current.xHat state.ledger = .ok (atHat, ledger) ∧
      atHat.gradPsi = #v[1] + #v[0] := by
    subst made
    exact ⟨_, _, rfl, rfl⟩
  have positive : 0 < state.step.gamma := (Job.Reaches.start started).gamma_pos
  have stays : state.current.r[0] = 0 := by
    rw [step, at_origin, slope, Vector.getElem_sub, Box.getElem_project]
    have clamped : (⟨some 0, none⟩ : Interval ℝ).clamp (0 - state.step.gamma * (1 + 0)) = 0 := by
      simp [Interval.clamp, Interval.violated?, Option.filter_some, positive]
    rw [Vector.getElem_sub, Vector.getElem_hmul, Vector.getElem_add]
    exact sub_eq_zero.mpr clamped.symm
  have tolerance : job.eps = 1 := by
    subst made
    rfl
  have small : State.residual { state with ledger } atHat ≤ job.eps := by
    rw [Job.residual_le_iff]
    intro i inside
    cases Nat.lt_one_iff.mp inside
    right
    rw [Job.getElem_residualVector, tolerance]
    simp only [slope, slope_hat, stays, sub_self, mul_zero, add_zero]
    exact abs_zero.trans_le zero_le_one
  exact ⟨_, Job.solve_of_small started evaluated small rfl⟩

theorem slopeJob_solved : ∃ solution, (slopeJob.solve Observer.silent ()).2 = .ok solution :=
  slopeJob_withTarget_solved slopeJob.D slopeJob.y slopeJob.sigma slopeJob.D_valid
    slopeJob.sigma_pos

/-- The request is solved, at a KKT point. -/
theorem solve_kktPoint_slope : ∃ summary,
    (slopeRequest.solve Observer.silent ()).result = .ok summary ∧
    ∃ x gradF gradG z y : Vector ℝ 1,
      (slopeRequest.solve Observer.silent ()).buffers.x = x.toArray ∧
      (slopeRequest.solve Observer.silent ()).buffers.z = z.toArray ∧
      (slopeRequest.solve Observer.silent ()).buffers.y = y.toArray ∧
      KktPoint slopeProblem.C slopeProblem.D 1 (gradF + gradG) x z y := by
  obtain ⟨solution, answered⟩ := slopeJob_solved
  have solved := Request.solve_of_faultless slopeRequest_faultless answered
  obtain ⟨sameC, sameD, x, gradF, gradG, z, y, at_x, at_z, at_y, -, -, kkt⟩ :=
    Request.solve_kktPoint solved
  exact ⟨solution.summary, solved, x, gradF, gradG, z, y, at_x, at_z, at_y, kkt⟩

end ProximalNewton
