import Mathlib.Tactic.FieldSimp
import Mathlib.Tactic.Linarith
import ProximalNewton.Proofs.Acceptance
import ProximalNewton.Proofs.InverseEstimate
import ProximalNewton.Proofs.Success

/-!
# Isotropic quadratics

The objective `(a/2) ‖x - t‖²`, without constraints, has the curvature `a` in every
direction, and over exact arithmetic each part of the method can be followed on it. The
estimate of the Lipschitz constant is `a`. The proximal step ends at a twentieth of the
distance from `t`, where the merit equals its limit but for the margin
(`isotropicIterate_descentLimit`). One curvature pair makes the inverse estimate exact along
the line that the iterates are on, so that the quasi-Newton step from the second point leads
to `t` (`State.Aimed`), and the third iteration converges at the latest.

`Request.solve_isotropic` says this of requests, for every dimension, start and scale.
-/

namespace ProximalNewton

variable {ε σ : Type} {n depth : Nat} {a : ℝ} {t x : Vector ℝ n}

/-! ## The problem and its iterates -/

/-- `(a/2) ‖x - t‖²` and its gradient, without a constraint map. -/
noncomputable def isotropicOracles (ε : Type) (a : ℝ) (t : Vector ℝ n) : Oracles ℝ ε n 0 where
  f x := .ok (a / 2 * normSq (x - t))
  gradF x := .ok (a * (x - t))
  g _ := .ok (.replicate 0 0)
  gradG _ _ := .ok (.replicate n 0)

/-- The objective `(a/2) ‖x - t‖²` is to be minimised over the whole space. -/
noncomputable def isotropicProblem (ε : Type) (a : ℝ) (t : Vector ℝ n) : Problem ℝ ε where
  numVars := n
  numConstraints := 0
  oracles := isotropicOracles ε a t
  dimC := n
  dimD := 0
  C := .whole n
  D := .whole 0

/-- The iterate at a point for the step size that the curvature gives. -/
noncomputable def isotropicIterate (a : ℝ) (t x : Vector ℝ n) : Iterate ℝ n :=
  .ofPoint (.whole n) (StepSize.ofLipschitz a).gamma x (a * (x - t)) (a / 2 * normSq (x - t))

section Iterates

variable (positive : 0 < a)

include positive

theorem isotropicIterate_r : (isotropicIterate a t x).r = (0.95 : ℝ) * (x - t) := by
  have gamma_mul : (StepSize.ofLipschitz a).gamma * a = 0.95 := div_mul_cancel₀ _ positive.ne'
  show x - (Box.whole n).project (x - (StepSize.ofLipschitz a).gamma * (a * (x - t))) = _
  rw [Box.project_whole, hmul_hmul, gamma_mul]
  apply get_injective
  rw [get_sub, get_sub, sub_sub_cancel]

/-- The proximal step ends at a twentieth of the distance from the target. -/
theorem isotropicIterate_xHat_sub :
    (isotropicIterate a t x).xHat - t = (0.05 : ℝ) * (x - t) := by
  have step : x - (isotropicIterate a t x).xHat = (0.95 : ℝ) * (x - t) :=
    isotropicIterate_r positive
  ext i inside
  have component := congrArg (·[i]) step
  simp only [Vector.getElem_sub, Vector.getElem_hmul] at component ⊢
  linarith

theorem isotropicIterate_products :
    (isotropicIterate a t x).gradDotR = 0.95 * a * normSq (x - t) ∧
      (isotropicIterate a t x).normSqR = 0.95 ^ 2 * normSq (x - t) := by
  have gradDotR : (isotropicIterate a t x).gradDotR =
    dot (a * (x - t)) (isotropicIterate a t x).r := rfl
  have normSqR : (isotropicIterate a t x).normSqR = normSq (isotropicIterate a t x).r := rfl
  rw [gradDotR, normSqR, isotropicIterate_r positive, dot_hmul_left, dot_hmul_right, normSq_hmul,
    ← mul_assoc, mul_comm a]
  exact ⟨rfl, rfl⟩

theorem isotropicIterate_envelope :
    (isotropicIterate a t x).envelope (.ofLipschitz a) = 0.025 * a * normSq (x - t) := by
  obtain ⟨gradDotR, normSqR⟩ := isotropicIterate_products (t := t) (x := x) positive
  have curvature : 0.5 / (StepSize.ofLipschitz a).gamma = 0.5 * a / 0.95 := by
    show 0.5 / (0.95 / a) = _
    rw [div_div_eq_mul_div]
  unfold Iterate.envelope StepSize.envelope
  rw [gradDotR, normSqR, curvature,
    show (isotropicIterate a t x).psi = a / 2 * normSq (x - t) from rfl]
  ring

/-- The limit for the merit after the proximal step is this merit, with a margin. -/
theorem isotropicIterate_descentLimit :
    (isotropicIterate a t x).descentLimit (.ofLipschitz a) =
      a / 2 * normSq ((isotropicIterate a t x).xHat - t) +
        1e-6 * |(isotropicIterate a t x).psi| := by
  obtain ⟨gradDotR, normSqR⟩ := isotropicIterate_products (t := t) (x := x) positive
  have margin : (1e-6 : ℝ) * Scalar.abs (isotropicIterate a t x).psi =
    1e-6 * |(isotropicIterate a t x).psi| := rfl
  unfold Iterate.descentLimit StepSize.descentLimit
  rw [gradDotR, normSqR, margin, isotropicIterate_xHat_sub positive, normSq_hmul,
    show (isotropicIterate a t x).psi = a / 2 * normSq (x - t) from rfl,
    show (StepSize.ofLipschitz a).lipschitz = a from rfl]
  ring

/-- The residual is the gradient at the end of the proximal step. -/
theorem isotropicIterate_residual :
    residual (StepSize.ofLipschitz a).gamma (isotropicIterate a t x).r
        (a * ((isotropicIterate a t x).xHat - t)) (isotropicIterate a t x).gradPsi =
      a * maxNorm ((isotropicIterate a t x).xHat - t) := by
  have scaled : 1 / (StepSize.ofLipschitz a).gamma * (0.95 : ℝ) = a := by
    show 1 / (0.95 / a) * (0.95 : ℝ) = a
    field_simp
  have vector : residualVector (StepSize.ofLipschitz a).gamma (isotropicIterate a t x).r
      (a * ((isotropicIterate a t x).xHat - t)) (isotropicIterate a t x).gradPsi =
        a * ((isotropicIterate a t x).xHat - t) := by
    unfold residualVector
    rw [isotropicIterate_r positive, hmul_hmul, scaled,
      show (isotropicIterate a t x).gradPsi = a * (x - t) from rfl]
    apply get_injective
    rw [get_add, get_sub, sub_add_cancel]
  unfold residual
  rw [vector, maxNorm_hmul positive.le]

end Iterates

/-! ## One iteration -/

/-- The job is to minimise `(a/2) ‖x - t‖²` over the whole space. -/
structure Job.Isotropic (job : Job ℝ ε n 0) (a : ℝ) (t : Vector ℝ n) : Prop where
  oracles_eq : job.oracles = isotropicOracles ε a t
  C_eq : job.C = .whole n

/-- A state of a run that has kept the step size of the curvature and made unit steps only. -/
structure State.Centred (state : State ℝ n 0 depth) (a : ℝ) (t : Vector ℝ n) : Prop where
  step_eq : state.step = .ofLipschitz a
  current_eq : state.current = isotropicIterate a t state.current.x
  tightenings_eq : state.tightenings = 0
  stalls_eq : state.stalls = 0
  lastTau_eq : state.lastTau = 1

namespace State.Centred

variable {state : State ℝ n 0 depth} (centred : state.Centred a t) (positive : 0 < a)

include centred positive

theorem xHat_sub : state.current.xHat - t = (0.05 : ℝ) * (state.current.x - t) := by
  rw [centred.current_eq]
  exact isotropicIterate_xHat_sub positive

theorem r_eq : state.current.r = (0.95 : ℝ) * (state.current.x - t) := by
  rw [centred.current_eq]
  exact isotropicIterate_r positive

theorem residual_eq : ProximalNewton.residual state.step.gamma state.current.r
    (a * (state.current.xHat - t)) state.current.gradPsi =
      a * maxNorm (state.current.xHat - t) := by
  rw [centred.step_eq, centred.current_eq]
  exact isotropicIterate_residual positive

theorem descentLimit_eq : state.current.descentLimit state.step =
    a / 2 * normSq (state.current.xHat - t) + 1e-6 * |state.current.psi| := by
  rw [centred.step_eq, centred.current_eq]
  exact isotropicIterate_descentLimit positive

end State.Centred

namespace Job.Isotropic

variable {job : Job ℝ ε n 0} (isotropic : job.Isotropic a t)

include isotropic

theorem evaluate (x : Vector ℝ n) (ledger : Ledger ℝ 0) : ∃ z ledger',
    job.merit.evaluate x ledger =
      .ok ({ z, psi := a / 2 * normSq (x - t), gradPsi := a * (x - t) }, ledger') := by
  have oracles_eq : job.merit.oracles = isotropicOracles ε a t := isotropic.oracles_eq
  refine Merit.evaluate_of_unconstrained ?_ ?_ ?_ ?_ ledger
  all_goals
    rw [oracles_eq]
    intros
    rfl

/-- The difference quotient of the gradient is the curvature. -/
theorem initialLipschitz (positive : 0 < a) (x : Vector ℝ n) (ledger : Ledger ℝ 0) : ∃ ledger',
    job.initialLipschitz x (a * (x - t)) ledger = .ok (a, ledger') := by
  set h := perturbation job.params.estimate x
  obtain ⟨z, after, evaluated⟩ := isotropic.evaluate (x + h) ledger
  obtain ⟨ledger', shifted⟩ := Merit.gradient_of_evaluate evaluated
  have moved : 0 < norm h := by
    have numVars_pos : 0 < n := job.numVars_pos
    have delta_pos : 0 < job.params.estimate.delta := (job.params_valid .delta).1
    have component : job.params.estimate.delta ≤ h[0] := by
      show _ ≤ (x.map fun entry => maxNum (Scalar.abs entry * job.params.estimate.epsilon)
        job.params.estimate.delta)[0]
      rw [Vector.getElem_map, maxNum_eq_max]
      exact le_max_right _ _
    exact (delta_pos.trans_le (component.trans (le_abs_self _))).trans_le
      (abs_getElem_le_norm h 0 numVars_pos)
  have change : a * (x + h - t) - a * (x - t) = a * h := by
    ext i inside
    simp only [Vector.getElem_sub, Vector.getElem_hmul, Vector.getElem_add]
    ring
  have quotient : differenceQuotient h (a * (x + h - t)) (a * (x - t)) = a := by
    unfold differenceQuotient
    rw [change, norm_hmul positive.le]
    exact mul_div_cancel_right₀ a moved.ne'
  refine ⟨ledger', Job.initialLipschitz_eq_ok.mpr ⟨_, _, shifted, ?_⟩⟩
  exact congrArg (Prod.mk · ledger') quotient.symm

/-- A solve starts with the curvature as its estimate, unless the smallest one is larger. -/
theorem start_eq (above : job.params.estimate.lMin ≤ a) : ∃ state, job.start = .ok state ∧
    state.Centred a t ∧
    state.memory = .empty job.params.memory.curvatureTol job.depth_pos := by
  have lMin_pos : 0 < job.params.estimate.lMin := (job.params_valid .lMin).1
  obtain ⟨z, ledger, evaluated⟩ := isotropic.evaluate job.x Ledger.blank
  obtain ⟨ledger', estimated⟩ :=
    isotropic.initialLipschitz (lMin_pos.trans_le above) job.x ledger
  have estimate_eq : maxNum a job.params.estimate.lMin = a := by
    rw [maxNum_eq_max, max_eq_left above]
  have started := Job.start_of_estimated evaluated estimated rfl
  rw [estimate_eq, isotropic.C_eq] at started
  exact ⟨_, started, ⟨rfl, rfl, rfl, rfl, rfl⟩, rfl⟩

variable {state : State ℝ n 0 job.depth} (centred : state.Centred a t) (positive : 0 < a)

include centred positive

/-- An iteration that ends close to the target converges there. -/
theorem converges (met : a * maxNorm (state.current.xHat - t) ≤ job.eps) (k : Nat) :
    ∃ report solution,
      job.iterate k state =
        ⟨[.iteration report, .finished solution.summary], .ok (.converged solution)⟩ ∧
      solution.x = state.current.xHat ∧ solution.summary.iterations = k ∧
      solution.summary.tightenings = 0 ∧ solution.summary.stalls = 0 ∧
      solution.summary.lastTau = 1 := by
  obtain ⟨z, ledger, evaluated⟩ := isotropic.evaluate state.current.xHat state.ledger
  rw [← centred.residual_eq positive] at met
  exact ⟨_, _, job.iterate_of_met evaluated met k, rfl, rfl, centred.tightenings_eq,
    centred.stalls_eq, centred.lastTau_eq⟩

/-- Any other iteration keeps the step size, and accepts a unit step that comes near enough
to the target. -/
theorem advances (unmet : ¬ a * maxNorm (state.current.xHat - t) ≤ job.eps) {k : Nat}
    (near : normSq ((job.search k state).point 1 - t) ≤
      (0.05 : ℝ) * normSq (state.current.x - t)) :
    ∃ report trial residual next,
      job.iterate k state =
        ⟨[.iteration report, .accepted trial], .ok (.advanced residual next)⟩ ∧
      next.Centred a t ∧ next.current.x = (job.search k state).point 1 ∧
      next.memory = state.memory.offer (next.current.x - state.current.x)
        (next.current.r - state.current.r) := by
  set tried := (job.search k state).point 1
  obtain ⟨z, ledger, evaluated⟩ := isotropic.evaluate state.current.xHat state.ledger
  obtain ⟨z', ledger', again⟩ := isotropic.evaluate tried ledger
  have trial : (job.search k state).trial 1 ledger =
      .ok (isotropicIterate a t tried, ledger') := by
    refine Search.trial_eq_ok.mpr ⟨_, _, again, ?_⟩
    show _ = (Iterate.ofPoint job.C state.step.gamma _ _ _, ledger')
    rw [isotropic.C_eq, centred.step_eq]
    rfl
  have descends : ¬ state.current.descentLimit state.step <
      a / 2 * normSq (state.current.xHat - t) := by
    have margin : 0 ≤ 1e-6 * |state.current.psi| := mul_nonneg (by norm_num) (abs_nonneg _)
    rw [centred.descentLimit_eq positive]
    linarith
  have accepted : (isotropicIterate a t tried).envelope state.step ≤
      (job.search k state).threshold := by
    have balanced : (job.search k state).step.Balanced := by
      show state.step.Balanced
      rw [centred.step_eq]
      exact StepSize.balanced_ofLipschitz positive
    have threshold : (job.search k state).threshold =
        state.current.descentLimit state.step - 1e-6 * |state.current.psi| :=
      Search.threshold_eq_descentLimit balanced
    -- The threshold is `a/800` times the squared distance of the point from the target, and
    -- the envelope of a trial is `a/40` times its own.
    have scaled := mul_le_mul_of_nonneg_left near positive.le
    rw [threshold, centred.descentLimit_eq positive, add_sub_cancel_right, centred.step_eq,
      isotropicIterate_envelope positive, centred.xHat_sub positive, normSq_hmul]
    linarith
  rw [← centred.residual_eq positive] at unmet
  exact ⟨_, _, _, _, Job.iterate_of_accepted evaluated unmet descends trial accepted,
    ⟨centred.step_eq, rfl, centred.tightenings_eq, centred.stalls_eq, rfl⟩, rfl, rfl⟩

end Job.Isotropic

/-! ## The direction from the second point -/

/-- Over exact arithmetic a unit step is the direction alone. -/
theorem Search.point_one {m : Nat} (search : Search ℝ ε n m) :
    search.point 1 = search.current.x - search.direction := by
  unfold point
  ext i inside
  simp only [Vector.getElem_sub, Vector.getElem_hmul]
  ring

/-- A pair whose changes are parallel is admitted, unless the bound excludes every pair. -/
theorem CurvatureMemory.admits_hmul {memory : CurvatureMemory ℝ n depth}
    (loose : memory.curvatureTol < 1) {c : ℝ} (positive : 0 < c) {s : Vector ℝ n}
    (moved : 0 < normSq s) : memory.Admits s (c * s) := by
  refine ⟨rfl, not_le.mpr ?_⟩
  calc memory.curvatureTol * norm s * norm (c * s)
      = memory.curvatureTol * (c * normSq s) := by
        rw [norm_hmul positive.le, ← norm_mul_self s]
        ring
    _ < 1 * (c * normSq s) := mul_lt_mul_of_pos_right loose (mul_pos positive moved)
    _ = dot s (c * s) := by
        rw [dot_hmul_right, one_mul]
        rfl

/-- The memory holds one pair, and the proximal step is a multiple of its change of the
residual of which the way from the target is the same multiple of its change of the point. -/
def State.Aimed (state : State ℝ n 0 depth) (t : Vector ℝ n) : Prop :=
  ∃ (pair : CurvaturePair ℝ n) (c : ℝ), state.memory.pairs.toList = [pair] ∧ pair.Curved ∧
    state.current.r = c * pair.y ∧ state.current.x - t = c * pair.s

/-- From such a state the quasi-Newton step leads to the target. -/
theorem State.Aimed.point_eq {job : Job ℝ ε n 0} {state : State ℝ n 0 job.depth}
    (aimed : state.Aimed t) (k : Nat) : (job.search k state).point 1 = t := by
  obtain ⟨pair, c, held, curved, r_eq, way_eq⟩ := aimed
  have direction : (job.search k state).direction = state.current.x - t := by
    show state.memory.applyInverse 1 state.current.r = _
    rw [CurvatureMemory.applyInverse_eq, held, r_eq, way_eq]
    exact inverseOf_hmul_newest (List.forall_mem_singleton.mpr curved) rfl c
  rw [Search.point_one, direction]
  apply get_injective
  rw [get_sub, get_sub]
  exact sub_sub_cancel _ _

namespace State.Centred

variable {state next : State ℝ n 0 depth} (centred : state.Centred a t) (positive : 0 < a)

include centred positive

/-- Where the target is reached, the proximal step stays. -/
theorem xHat_eq_of_reached (reached : state.current.x = t) : state.current.xHat = t := by
  have way := centred.xHat_sub positive
  rw [reached] at way
  ext i inside
  have component := congrArg (·[i]) way
  simp only [Vector.getElem_sub, Vector.getElem_hmul, sub_self, mul_zero] at component
  exact sub_eq_zero.mp component

/-- After a step to `x̂` that taught the first pair, the next step leads to the target. -/
theorem aimed (empty : state.memory.size = 0)
    (nonneg : 0 ≤ state.memory.curvatureTol) (loose : state.memory.curvatureTol < 1)
    (apart : state.current.x ≠ t) (centred' : next.Centred a t)
    (at_xHat : next.current.x = state.current.xHat)
    (offered : next.memory = state.memory.offer (next.current.x - state.current.x)
      (next.current.r - state.current.r)) : next.Aimed t := by
  -- The points, steps and changes are all multiples of the way from the target.
  set way := state.current.x - t with way_def
  have way' : next.current.x - t = (0.05 : ℝ) * way := by
    rw [at_xHat]
    exact centred.xHat_sub positive
  have r_eq : state.current.r = (0.95 : ℝ) * way := centred.r_eq positive
  have r_eq' : next.current.r = (0.95 : ℝ) * ((0.05 : ℝ) * way) := by
    rw [← way']
    exact centred'.r_eq positive
  have s_eq : next.current.x - state.current.x = (-0.95 : ℝ) * way := by
    ext i inside
    have component := congrArg (·[i]) way'
    simp only [way_def, Vector.getElem_sub, Vector.getElem_hmul] at component ⊢
    linarith
  have y_eq : next.current.r - state.current.r = (0.95 : ℝ) * ((-0.95 : ℝ) * way) := by
    rw [r_eq, r_eq']
    ext i inside
    simp only [Vector.getElem_sub, Vector.getElem_hmul]
    ring
  have moved : 0 < normSq ((-0.95 : ℝ) * way) := by
    have distance : 0 < normSq way :=
      lt_of_le_of_ne (normSq_nonneg _) (Ne.symm (mt normSq_sub_eq_zero_iff.mp apart))
    rw [normSq_hmul]
    exact mul_pos (by norm_num) distance
  have admitted : state.memory.Admits ((-0.95 : ℝ) * way) ((0.95 : ℝ) * ((-0.95 : ℝ) * way)) :=
    CurvatureMemory.admits_hmul loose (by norm_num) moved
  refine ⟨_, -1 / 19, ?held, Admissible.curved nonneg admitted, ?residual, ?way⟩
  case held =>
    rw [offered, s_eq, y_eq]
    exact CurvatureMemory.toList_offer_of_empty empty admitted
  case residual =>
    show next.current.r = (-1 / 19 : ℝ) * ((0.95 : ℝ) * ((-0.95 : ℝ) * way))
    rw [r_eq']
    ext i inside
    simp only [Vector.getElem_hmul]
    ring
  case way =>
    show next.current.x - t = (-1 / 19 : ℝ) * ((-0.95 : ℝ) * way)
    rw [way']
    ext i inside
    simp only [Vector.getElem_hmul]
    ring

end State.Centred

/-! ## The course of a solve -/

/-- The target is found in two iterations, or approached as far as the tolerance asks in
fewer, by unit steps that are all accepted at once. -/
structure TargetFound (a eps : ℝ) (t : Vector ℝ n) (events : List (Event ℝ))
    (solution : Solution ℝ n 0) : Prop where
  iterations_le : solution.summary.iterations ≤ 2
  tightenings_eq : solution.summary.tightenings = 0
  stalls_eq : solution.summary.stalls = 0
  lastTau_eq : solution.summary.lastTau = 1
  not_tightened : ∀ report, .tightened report ∉ events
  not_rejected : ∀ report, .rejected report ∉ events
  not_stalled : ∀ report, .stalled report ∉ events
  near : maxNorm (solution.x - t) ≤ eps / a
  exact_of_two : solution.summary.iterations = 2 → solution.x = t

/-- An iteration that accepts its first trial does not disturb what is found after it. -/
theorem TargetFound.after {eps : ℝ} {events : List (Event ℝ)} {solution : Solution ℝ n 0}
    (found : TargetFound a eps t events solution) (report : IterationReport ℝ)
    (trial : TrialReport ℝ) :
    TargetFound a eps t ([.iteration report, .accepted trial] ++ events) solution :=
  { found with
    not_tightened := by simpa using found.not_tightened
    not_rejected := by simpa using found.not_rejected
    not_stalled := by simpa using found.not_stalled }

namespace Job.Isotropic

variable {job : Job ℝ ε n 0} (isotropic : job.Isotropic a t)

include isotropic

/-- An iteration that ends close to the target ends the solve. -/
theorem finishes_of_met {state : State ℝ n 0 job.depth} (centred : state.Centred a t)
    (positive : 0 < a) (met : a * maxNorm (state.current.xHat - t) ≤ job.eps) {k : Nat}
    (early : k ≤ 2) (exact_of_two : k = 2 → state.current.xHat = t) (left : Nat) :
    ∃ events solution, job.Finishes left k state events solution ∧
      TargetFound a job.eps t events solution := by
  obtain ⟨report, solution, iterated, at_xHat, number, tightenings, stalls, lastTau⟩ :=
    isotropic.converges centred positive met k
  refine ⟨_, solution, .converged iterated, ?_⟩
  constructor
  case iterations_le => exact number.trans_le early
  case tightenings_eq => exact tightenings
  case stalls_eq => exact stalls
  case lastTau_eq => exact lastTau
  case not_tightened => simp
  case not_rejected => simp
  case not_stalled => simp
  case near =>
    rw [at_xHat, le_div_iff₀' positive]
    exact met
  case exact_of_two =>
    rw [at_xHat, number]
    exact exact_of_two

/-- From a state at the target a solve ends at once. -/
theorem finishes_of_reached {state : State ℝ n 0 job.depth} (centred : state.Centred a t)
    (positive : 0 < a) (reached : state.current.x = t) {k : Nat} (early : k ≤ 2) (left : Nat) :
    ∃ events solution, job.Finishes left k state events solution ∧
      TargetFound a job.eps t events solution := by
  have stays := centred.xHat_eq_of_reached positive reached
  refine isotropic.finishes_of_met centred positive ?met early (fun _ => stays) left
  case met =>
    have none_left : maxNorm (state.current.xHat - t) ≤ 0 := by
      rw [stays, maxNorm_le_iff le_rfl]
      intro i inside
      right
      rw [Vector.getElem_sub, sub_self]
      exact abs_zero.le
    exact (mul_nonpos_of_nonneg_of_nonpos positive.le none_left).trans job.eps_pos.le

/-- From a state that aims at the target a solve ends there, after this iteration. -/
theorem finishes_of_aimed {state : State ℝ n 0 job.depth} (centred : state.Centred a t)
    (positive : 0 < a) (aimed : state.Aimed t) {k : Nat} (early : k + 1 ≤ 2) (left : Nat) :
    ∃ events solution, job.Finishes (left + 1) k state events solution ∧
      TargetFound a job.eps t events solution := by
  by_cases met : a * maxNorm (state.current.xHat - t) ≤ job.eps
  case pos =>
    exact isotropic.finishes_of_met centred positive met (by omega) (by omega) _
  case neg =>
    have near : normSq ((job.search k state).point 1 - t) ≤
        (0.05 : ℝ) * normSq (state.current.x - t) := by
      rw [aimed.point_eq, normSq_sub_eq_zero_iff.mpr rfl]
      exact mul_nonneg (by norm_num) (normSq_nonneg _)
    obtain ⟨report, trial, measured, next, iterated, centred', at_point, -⟩ :=
      isotropic.advances centred positive met near
    rw [aimed.point_eq] at at_point
    obtain ⟨events, solution, finishes, found⟩ :=
      isotropic.finishes_of_reached centred' positive at_point early left
    exact ⟨_, solution, .advanced iterated finishes, found.after report trial⟩

/-- From a state without pairs the first step is proximal, and the next state aims at the
target. -/
theorem finishes_of_unlearned {state : State ℝ n 0 job.depth} (centred : state.Centred a t)
    (positive : 0 < a) (empty : state.memory.size = 0)
    (nonneg : 0 ≤ state.memory.curvatureTol) (loose : state.memory.curvatureTol < 1)
    (left : Nat) :
    ∃ events solution, job.Finishes (left + 2) 0 state events solution ∧
      TargetFound a job.eps t events solution := by
  by_cases reached : state.current.x = t
  case pos => exact isotropic.finishes_of_reached centred positive reached (by omega) _
  by_cases met : a * maxNorm (state.current.xHat - t) ≤ job.eps
  case pos => exact isotropic.finishes_of_met centred positive met (by omega) (by omega) _
  have point_eq : (job.search 0 state).point 1 = state.current.xHat := by
    refine Search.point_eq_xHat ?direction ?proximal 1
    case direction => exact CurvatureMemory.applyInverse_of_empty empty _
    case proximal =>
      show state.current.r = state.current.x - state.current.xHat
      rw [centred.current_eq]
      rfl
  have near : normSq ((job.search 0 state).point 1 - t) ≤
      (0.05 : ℝ) * normSq (state.current.x - t) := by
    rw [point_eq, centred.xHat_sub positive, normSq_hmul]
    exact mul_le_mul_of_nonneg_right (by norm_num) (normSq_nonneg _)
  obtain ⟨report, trial, measured, next, iterated, centred', at_point, offered⟩ :=
    isotropic.advances centred positive met near
  have aimed : next.Aimed t := centred.aimed positive empty nonneg loose reached centred'
    (at_point.trans point_eq) offered
  obtain ⟨events, solution, finishes, found⟩ :=
    isotropic.finishes_of_aimed centred' positive aimed le_rfl left
  exact ⟨_, solution, .advanced iterated finishes, found.after report trial⟩

/-- A solve of an isotropic quadratic that nobody stops finds the target. -/
theorem solve_eq (above : job.params.estimate.lMin ≤ a)
    (loose : job.params.memory.curvatureTol < 1) (enough : 3 ≤ job.params.maxIter)
    {observer : Observer ℝ σ}
    (never : ∀ listener k, (observer.wantsStop listener k).1 = false) (listener : σ) :
    ∃ solution, (job.solve observer listener).2 = .ok solution ∧
      TargetFound a job.eps t (job.events observer listener) solution := by
  have positive : 0 < a := (job.params_valid .lMin).1.trans_le above
  obtain ⟨state, started, centred, unlearned⟩ := isotropic.start_eq above
  have empty : state.memory.size = 0 := by
    rw [unlearned]
    rfl
  have tol_eq : state.memory.curvatureTol = job.params.memory.curvatureTol := by
    rw [unlearned]
    rfl
  obtain ⟨left, maxIter_eq⟩ : ∃ left, job.params.maxIter - 1 = left + 2 :=
    ⟨job.params.maxIter - 3, by omega⟩
  obtain ⟨events, solution, finishes, found⟩ := isotropic.finishes_of_unlearned centred positive
    empty (tol_eq ▸ (job.params_valid .curvatureTol).1) (tol_eq ▸ loose) left
  rw [← maxIter_eq] at finishes
  obtain ⟨reported, answer⟩ := finishes.solve started never listener
  rw [reported]
  exact ⟨solution, answer, found⟩

end Job.Isotropic

/-! ## Requests -/

/-- A request to minimise `(a/2) ‖x - t‖²` from a point. -/
noncomputable def isotropicRequest (ε : Type) (a : ℝ) (t x : Vector ℝ n) (params : Params ℝ)
    (eps : ℝ) : Request ℝ ε where
  problem := isotropicProblem ε a t
  params := params
  buffers := { x := x.toArray, z := #[], y := #[], errZ := #[] }
  sigma := #[]
  eps := eps

variable {params : Params ℝ} {eps : ℝ}

theorem isotropicRequest_faultless (numVars_pos : 0 < n) (params_valid : params.Valid)
    (eps_pos : 0 < eps) : (isotropicRequest ε a t x params eps).fault? = none := by
  have sizes : (isotropicRequest ε a t x params eps).sizeFault? = none := by
    simp [Request.sizeFault?, Request.sizes, isotropicRequest, isotropicProblem]
  exact Request.fault?_eq_none_iff.mpr ⟨numVars_pos, sizes, Box.valid_whole n, Box.valid_whole 0,
    rfl, params_valid, eps_pos⟩

/-- **Isotropic quadratics are solved in two iterations.** A request to minimise
`(a/2) ‖x - t‖²` without constraints, from any point, succeeds under every observer that
never stops it, if its settings permit three iterations, do not exclude every curvature pair
and do not put the smallest estimate above `a`. It makes two iterations at most, of unit
steps that are accepted at once and with the step size it began with. It ends at `t` after
two, and within the tolerance of it before. -/
theorem Request.solve_isotropic (numVars_pos : 0 < n) (params_valid : params.Valid)
    (eps_pos : 0 < eps) (above : params.estimate.lMin ≤ a)
    (loose : params.memory.curvatureTol < 1) (enough : 3 ≤ params.maxIter)
    {observer : Observer ℝ σ}
    (never : ∀ listener k, (observer.wantsStop listener k).1 = false) (listener : σ) :
    let request := isotropicRequest ε a t x params eps
    ∃ solution : Solution ℝ n 0,
      (request.solve observer listener).result = .ok solution.summary ∧
      (request.solve observer listener).buffers = solution.buffers ∧
      TargetFound a eps t (request.events observer listener) solution := by
  intro request
  have faultless : request.fault? = none :=
    isotropicRequest_faultless numVars_pos params_valid eps_pos
  have isotropic : (request.job faultless).Isotropic a t := ⟨rfl, rfl⟩
  obtain ⟨solution, answer, found⟩ := isotropic.solve_eq above loose enough never listener
  have handed_over := request.outcome_of_ok answer
  rw [events_eq faultless, solve_eq_outcome faultless]
  exact ⟨solution, congrArg Outcome.result handed_over, congrArg Outcome.buffers handed_over,
    found⟩

/-- Settings that permit three iterations and one pair, and no tightening. -/
noncomputable def terseParams : Params ℝ where
  maxIter := 3
  memory := { depth := 1, curvatureTol := 1 / 2 }
  estimate := { epsilon := 1, delta := 1, lMin := 2, maxUpdates := 0 }
  search := { tauMin := 1 / 2 }

theorem terseParams_valid : terseParams.Valid := by
  intro which
  cases which <;> norm_num [Params.Meets, terseParams, IsPositive, Scalar.isFinite]

/-- A quadratic in the plane, from the origin. -/
theorem solve_isotropic_plane : terseParams.Valid ∧ ∃ solution : Solution ℝ 2 0,
    ((isotropicRequest Unit 2 #v[3, -1] #v[0, 0] terseParams 1e-3).solve
      Observer.silent ()).result = .ok solution.summary ∧
    TargetFound 2 1e-3 #v[3, -1] ((isotropicRequest Unit 2 #v[3, -1] #v[0, 0] terseParams
      1e-3).events Observer.silent ()) solution := by
  have eps_pos : (0 : ℝ) < 1e-3 := by norm_num
  have loose : terseParams.memory.curvatureTol < 1 := by
    show (1 / 2 : ℝ) < 1
    norm_num
  have never : ∀ (listener : Unit) (k : Nat),
      ((Observer.silent : Observer ℝ Unit).wantsStop listener k).1 = false := fun _ _ => rfl
  obtain ⟨solution, answer, -, found⟩ := Request.solve_isotropic Nat.two_pos terseParams_valid
    eps_pos (le_refl (2 : ℝ)) loose le_rfl never ()
  exact ⟨terseParams_valid, solution, answer, found⟩

end ProximalNewton
