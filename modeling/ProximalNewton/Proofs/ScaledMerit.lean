import Mathlib.Tactic.FieldSimp
import ProximalNewton.Proofs.Correspondence
import ProximalNewton.Proofs.RealVectors

/-!
# The unit of the objective

Over exact arithmetic the objective, the penalty weights and the multipliers of a
problem may be measured in any unit. This module says what becomes of the values of
one evaluation when all of them are multiplied by a number `c`: `scaled` puts a
quantity into the new unit. Points and constraint values have no share in the unit,
merits, gradients and multipliers are multiplied by it, and step sizes are divided.

* `Merit.evaluate_scaled`: an evaluation of the merit function commutes with the
  change of unit, if the adjoint of the constraint map is homogeneous.
* `Iterate.ofPoint_scaled`: the proximal gradient step stays where it is.

The tests that compare such quantities (`descentLimit`, `envelope`,
`requiredDecrease`) are multiplied by `c` as a whole.
-/

namespace ProximalNewton

variable {ε : Type} {n m : Nat}

/-! ## Step sizes -/

namespace StepSize

/-- The step size in the new unit. -/
noncomputable def scaled (c : ℝ) (step : StepSize ℝ) : StepSize ℝ where
  lipschitz := c * step.lipschitz
  gamma := step.gamma / c
  sigma := step.sigma / c

variable {c : ℝ}

theorem ofLipschitz_scaled (nonzero : c ≠ 0) (lipschitz : ℝ) :
    ofLipschitz (c * lipschitz) = (ofLipschitz lipschitz).scaled c := by
  have gamma : 0.95 / (c * lipschitz) = 0.95 / lipschitz / c := by field_simp
  have product : 0.95 / lipschitz / c * (c * lipschitz) = 0.95 / lipschitz * lipschitz := by
    field_simp
  unfold ofLipschitz scaled
  dsimp only
  rw [gamma, product]
  congr 1
  ring

theorem halved_scaled (step : StepSize ℝ) : (step.scaled c).halved = step.halved.scaled c := by
  unfold halved scaled
  dsimp only
  rw [mul_assoc, div_right_comm, div_right_comm step.sigma]

theorem descentLimit_scaled (positive : 0 < c) (step : StepSize ℝ) (psi gradDotR normSqR : ℝ) :
    (step.scaled c).descentLimit (c * psi) (c * gradDotR) normSqR =
      c * step.descentLimit psi gradDotR normSqR := by
  have magnitude : Scalar.abs (c * psi) = c * Scalar.abs psi :=
    (abs_mul c psi).trans (congrArg (· * _) (abs_of_pos positive))
  unfold descentLimit scaled
  rw [magnitude]
  ring

theorem envelope_scaled (step : StepSize ℝ) (psi gradDotR normSqR : ℝ) :
    (step.scaled c).envelope (c * psi) (c * gradDotR) normSqR =
      c * step.envelope psi gradDotR normSqR := by
  unfold envelope scaled
  dsimp only
  rw [div_div_eq_mul_div]
  ring

theorem requiredDecrease_scaled (nonzero : c ≠ 0) (step : StepSize ℝ) (normSqR : ℝ) :
    (step.scaled c).requiredDecrease normSqR = c * step.requiredDecrease normSqR := by
  unfold requiredDecrease scaled
  field_simp

end StepSize

/-- The estimate of the Lipschitz constant is that of the gradient. -/
theorem differenceQuotient_scaled {c : ℝ} (positive : 0 < c) (h gradAtShifted grad : Vector ℝ n) :
    differenceQuotient h (c * gradAtShifted) (c * grad) =
      c * differenceQuotient h gradAtShifted grad := by
  unfold differenceQuotient
  rw [← hmul_sub, norm_hmul positive.le, mul_div_assoc]

theorem residual_scaled {c : ℝ} (positive : 0 < c) (gamma : ℝ) (r gradHat grad : Vector ℝ n) :
    residual (gamma / c) r (c * gradHat) (c * grad) = c * residual gamma r gradHat grad := by
  have weight : 1 / (gamma / c) = c * (1 / gamma) := by
    rw [one_div_div, mul_one_div]
  unfold residual residualVector
  rw [weight, ← hmul_hmul, ← hmul_sub, ← hmul_add, maxNorm_hmul positive.le]

/-! ## Iterates -/

namespace Iterate

/-- The iterate in the new unit. -/
noncomputable def scaled (c : ℝ) (iterate : Iterate ℝ n) : Iterate ℝ n :=
  { iterate with
    gradPsi := c * iterate.gradPsi
    psi := c * iterate.psi
    gradDotR := c * iterate.gradDotR }

variable {c : ℝ}

/-- The step `γ∇ψ(x)` has no unit. -/
theorem ofPoint_scaled (nonzero : c ≠ 0) (C : Box ℝ n) (gamma : ℝ) (x gradPsi : Vector ℝ n)
    (psi : ℝ) :
    ofPoint C (gamma / c) x (c * gradPsi) (c * psi) = (ofPoint C gamma x gradPsi psi).scaled c := by
  have step : gamma / c * (c * gradPsi) = gamma * gradPsi := by
    rw [hmul_hmul, div_mul_cancel₀ _ nonzero]
  unfold ofPoint scaled
  dsimp only
  rw [step, dot_hmul_left]

theorem withGamma_scaled (nonzero : c ≠ 0) (iterate : Iterate ℝ n) (C : Box ℝ n) (gamma : ℝ) :
    (iterate.scaled c).withGamma C (gamma / c) = (iterate.withGamma C gamma).scaled c :=
  ofPoint_scaled nonzero C gamma _ _ _

theorem envelope_scaled (iterate : Iterate ℝ n) (step : StepSize ℝ) :
    (iterate.scaled c).envelope (step.scaled c) = c * iterate.envelope step :=
  step.envelope_scaled _ _ _

theorem descentLimit_scaled (positive : 0 < c) (iterate : Iterate ℝ n) (step : StepSize ℝ) :
    (iterate.scaled c).descentLimit (step.scaled c) = c * iterate.descentLimit step :=
  step.descentLimit_scaled positive _ _ _

end Iterate

/-! ## Oracles -/

namespace Oracles

/-- The objective in the new unit; the constraint map is as it was. -/
noncomputable def scaled (c : ℝ) (oracles : Oracles ℝ ε n m) : Oracles ℝ ε n m :=
  { oracles with
    f := fun x => (oracles.f x).map fun f => c * f
    gradF := fun x => (oracles.gradF x).map fun gradF => c * gradF }

/-- At every point the adjoint of the constraint map is homogeneous in the vector
that it is applied to, and fails for all of its multiples if for one. -/
def HomogeneousAdjoint (oracles : Oracles ℝ ε n m) : Prop :=
  ∀ (c : ℝ) (x : Vector ℝ n) (y : Vector ℝ m), 0 < c →
    oracles.gradG x (c * y) = (oracles.gradG x y).map fun adjoint : Vector ℝ n => c * adjoint

end Oracles

/-! ## The merit function -/

/-- The ledger in the new unit. -/
noncomputable def Ledger.scaled (c : ℝ) (ledger : Ledger ℝ m) : Ledger ℝ m :=
  { ledger with multipliers := c * ledger.multipliers }

/-- The merit of a point in the new unit. -/
noncomputable def Value.scaled (c : ℝ) (value : Value ℝ m) : Value ℝ m :=
  { value with psi := c * value.psi }

/-- The merit gradient in the new unit. -/
noncomputable def Gradient.scaled (c : ℝ) (gradient : Gradient ℝ n m) : Gradient ℝ n m :=
  { gradient with gradPsi := c * gradient.gradPsi }

/-- The merit and its gradient in the new unit. -/
noncomputable def Evaluation.scaled (c : ℝ) (evaluation : Evaluation ℝ n m) : Evaluation ℝ n m :=
  { evaluation with psi := c * evaluation.psi, gradPsi := c * evaluation.gradPsi }

/-- The parts of a merit gradient in the new unit. -/
noncomputable def MeritGradient.scaled (c : ℝ) (grad : MeritGradient ℝ n) : MeritGradient ℝ n where
  adjoint := c * grad.adjoint
  total := c * grad.total

/-- Before the first evaluation there is nothing to convert. -/
theorem Ledger.blank_scaled (c : ℝ) : (Ledger.blank : Ledger ℝ m).scaled c = Ledger.blank := by
  have multipliers : c * Vector.replicate m (0 : ℝ) = Vector.replicate m 0 := by
    ext j inside
    rw [Vector.getElem_hmul, Vector.getElem_replicate, mul_zero]
  unfold Ledger.scaled Ledger.blank
  dsimp only
  rw [multipliers]

theorem multiplierEstimate_scaled (c : ℝ) (z g y sigma : Vector ℝ m) :
    multiplierEstimate z g (c * y) (c * sigma) = c * multiplierEstimate z g y sigma := by
  unfold multiplierEstimate
  rw [hmul_add]
  congr 1
  ext j inside
  rw [Vector.getElem_zipWith, Vector.getElem_hmul, Vector.getElem_hmul, Vector.getElem_zipWith,
    mul_assoc]

theorem distanceSq_scaled (c : ℝ) (g shift z sigma : Vector ℝ m) :
    distanceSq g shift z (c * sigma) = c * distanceSq g shift z sigma := by
  unfold distanceSq
  rw [← foldl_hmul fun a b => (mul_add c a b).symm]
  congr 1
  ext j inside
  rw [Vector.getElem_zipWith, Vector.getElem_hmul, Vector.getElem_hmul, Vector.getElem_zipWith,
    mul_assoc, mul_assoc, mul_assoc]

theorem meritValue_scaled (c : ℝ) (oracles : Oracles ℝ ε n m) (x : Vector ℝ n)
    (g shift z sigma : Vector ℝ m) :
    meritValue (oracles.scaled c) x g shift z (c * sigma) =
      (meritValue oracles x g shift z sigma).map fun psi => c * psi := by
  refine bind_map rfl ?_
  intro f
  rw [distanceSq_scaled]
  refine congrArg Except.ok ?_
  ring

theorem meritGradient_scaled {c : ℝ} (positive : 0 < c) {oracles : Oracles ℝ ε n m}
    (homogeneous : oracles.HomogeneousAdjoint) (x : Vector ℝ n) (yHat : Vector ℝ m) :
    meritGradient (oracles.scaled c) x (c * yHat) =
      (meritGradient oracles x yHat).map (MeritGradient.scaled c) := by
  refine bind_map rfl ?_
  intro gradF
  refine bind_map (homogeneous c x yHat positive) ?_
  intro adjoint
  refine congrArg Except.ok ?_
  rw [← hmul_add]
  rfl

namespace Merit

/-- The merit function in the new unit, in which the weights and the multipliers are
measured too. -/
noncomputable def scaled (c : ℝ) (merit : Merit ℝ ε n m) : Merit ℝ ε n m where
  oracles := merit.oracles.scaled c
  D := merit.D
  sigma := c * merit.sigma
  y := c * merit.y

variable {c : ℝ}

/-- The shift `Σ⁻¹y` has no unit. -/
theorem shift_scaled (nonzero : c ≠ 0) (merit : Merit ℝ ε n m) :
    (merit.scaled c).shift = merit.shift := by
  ext j inside
  unfold shift scaled
  rw [Vector.getElem_zipWith, Vector.getElem_zipWith, Vector.getElem_hmul, Vector.getElem_hmul]
  exact mul_div_mul_left _ _ nonzero

theorem slackOf_scaled (nonzero : c ≠ 0) (merit : Merit ℝ ε n m) (g : Vector ℝ m) :
    (merit.scaled c).slackOf g = merit.slackOf g := by
  unfold slackOf
  rw [shift_scaled nonzero]
  rfl

theorem multipliersOf_scaled (nonzero : c ≠ 0) (merit : Merit ℝ ε n m) (g : Vector ℝ m) :
    (merit.scaled c).multipliersOf g = c * merit.multipliersOf g := by
  unfold multipliersOf
  rw [slackOf_scaled nonzero]
  exact multiplierEstimate_scaled c _ _ _ _

theorem psi_scaled (nonzero : c ≠ 0) (merit : Merit ℝ ε n m) (x : Vector ℝ n) (g : Vector ℝ m) :
    (merit.scaled c).psi x g = (merit.psi x g).map fun psi => c * psi := by
  unfold psi
  rw [shift_scaled nonzero, slackOf_scaled nonzero]
  exact meritValue_scaled c _ _ _ _ _ _

theorem value_scaled (nonzero : c ≠ 0) (merit : Merit ℝ ε n m) (x : Vector ℝ n)
    (ledger : Ledger ℝ m) :
    (merit.scaled c).value x (ledger.scaled c) =
      (merit.value x ledger).map (Prod.map (Value.scaled c) (Ledger.scaled c)) := by
  unfold value
  simp only [slackOf_scaled nonzero]
  show merit.oracles.g x >>= _ = _
  cases merit.oracles.g x with
  | error error => rfl
  | ok g => exact bind_map (psi_scaled nonzero merit x g) fun psi => rfl

theorem gradient_scaled (positive : 0 < c) {merit : Merit ℝ ε n m}
    (homogeneous : merit.oracles.HomogeneousAdjoint) (x : Vector ℝ n) (ledger : Ledger ℝ m) :
    (merit.scaled c).gradient x (ledger.scaled c) =
      (merit.gradient x ledger).map (Prod.map (Gradient.scaled c) (Ledger.scaled c)) := by
  unfold gradient
  simp only [slackOf_scaled positive.ne', multipliersOf_scaled positive.ne']
  show merit.oracles.g x >>= _ = _
  cases merit.oracles.g x with
  | error error => rfl
  | ok g => exact bind_map (meritGradient_scaled positive homogeneous x _) fun grad => rfl

/-- An evaluation gives the same answers in the new unit. -/
theorem evaluate_scaled (positive : 0 < c) {merit : Merit ℝ ε n m}
    (homogeneous : merit.oracles.HomogeneousAdjoint) (x : Vector ℝ n) (ledger : Ledger ℝ m) :
    (merit.scaled c).evaluate x (ledger.scaled c) =
      (merit.evaluate x ledger).map (Prod.map (Evaluation.scaled c) (Ledger.scaled c)) := by
  unfold evaluate
  refine bind_map (gradient_scaled positive homogeneous x ledger) ?_
  rintro ⟨gradient, after⟩
  exact bind_map (psi_scaled positive.ne' merit x after.constraint) fun psi => rfl

end Merit

end ProximalNewton
