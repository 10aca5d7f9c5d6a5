import Mathlib.Tactic.FieldSimp
import ProximalNewton.Proofs.RealProjection

/-!
# The merit function over the reals, component by component

Over exact arithmetic the slack clamps the shifted constraint value, and the multiplier
estimate is what clamping takes off it, times the weight. So a multiplier is above zero only
where the slack is at its upper end, and below zero only where it is at its lower end. The
penalty is half the weighted sum of the squares of what clamping takes off.
-/

namespace ProximalNewton

/-- Half the weighted squared length of a vector. -/
noncomputable def halfSq {m : Nat} (sigma v : Vector ℝ m) : ℝ :=
  0.5 * ∑ j : Fin m, sigma.get j * v.get j ^ 2

namespace Merit

variable {ε : Type} {n m : Nat}

/-- What the merit adds to the objective where the constraint map has the value `g`. -/
noncomputable def penalty (merit : Merit ℝ ε n m) (g : Vector ℝ m) : ℝ :=
  0.5 * distanceSq g merit.shift (merit.slackOf g) merit.sigma

variable {merit : Merit ℝ ε n m} {j : Nat}

theorem getElem_add_shift (g : Vector ℝ m) (inside : j < m) :
    (g + merit.shift)[j] = g[j] + merit.y[j] / merit.sigma[j] := by
  unfold shift
  rw [Vector.getElem_add, Vector.getElem_zipWith]

theorem getElem_slackOf (g : Vector ℝ m) (inside : j < m) :
    (merit.slackOf g)[j] = merit.D.sides[j].clamp (g[j] + merit.y[j] / merit.sigma[j]) := by
  unfold slackOf slack
  rw [Box.getElem_project, getElem_add_shift]

/-- A multiplier estimate pulls the shifted constraint value to its slack. -/
theorem getElem_multipliersOf (g : Vector ℝ m) (inside : j < m) (weighted : merit.sigma[j] ≠ 0) :
    (merit.multipliersOf g)[j] =
      merit.sigma[j] * (g[j] + merit.y[j] / merit.sigma[j] - (merit.slackOf g)[j]) := by
  have estimate : (merit.multipliersOf g)[j] =
      merit.sigma[j] * (g[j] - (merit.slackOf g)[j]) + merit.y[j] := by
    unfold multipliersOf multiplierEstimate
    rw [Vector.getElem_add, Vector.getElem_zipWith, Vector.getElem_sub]
  rw [estimate]
  field_simp
  ring

/-- A positive multiplier is found only where the slack is at its upper bound. -/
theorem upper_of_multiplier_pos {g : Vector ℝ m} {inside : j < m}
    (weight_pos : 0 < merit.sigma[j]) (positive : 0 < (merit.multipliersOf g)[j]) :
    merit.D.sides[j].upper = some (merit.slackOf g)[j] := by
  rw [getElem_multipliersOf g inside weight_pos.ne'] at positive
  have moved := sub_pos.mp ((mul_pos_iff_of_pos_left weight_pos).mp positive)
  rw [getElem_slackOf g inside] at moved ⊢
  exact Interval.upper_of_clamp_lt moved

/-- A negative multiplier is found only where the slack is at its lower bound. -/
theorem lower_of_multiplier_neg {g : Vector ℝ m} {inside : j < m}
    (weight_pos : 0 < merit.sigma[j]) (negative : (merit.multipliersOf g)[j] < 0) :
    merit.D.sides[j].lower = some (merit.slackOf g)[j] := by
  rw [getElem_multipliersOf g inside weight_pos.ne'] at negative
  have moved := sub_neg.mp (neg_of_mul_neg_right negative weight_pos.le)
  rw [getElem_slackOf g inside] at moved ⊢
  exact Interval.lower_of_lt_clamp moved

/-- The weighted squared distance as an inner product. -/
theorem distanceSq_eq_dot (g shift z sigma : Vector ℝ m) :
    distanceSq g shift z sigma =
      dot (sigma.zipWith (· * ·) (g + shift - z)) (g + shift - z) := by
  unfold distanceSq dot
  congr 1
  ext j inside
  simp

/-- The penalty is that of the distance between the shifted constraint value and its slack. -/
theorem penalty_eq (g : Vector ℝ m) :
    merit.penalty g = halfSq merit.sigma (g + merit.shift - merit.slackOf g) := by
  unfold penalty halfSq
  rw [distanceSq_eq_dot, dot_eq_sum]
  congr 1
  refine Finset.sum_congr rfl ?_
  intro j _
  simp only [Fin.getElem_fin, Vector.getElem_zipWith, mul_assoc]
  exact congrArg (merit.sigma.get j * ·) (sq _).symm

/-- The merit is the objective with the penalty added. -/
theorem psi_eq_map (x : Vector ℝ n) (g : Vector ℝ m) :
    merit.psi x g = (merit.oracles.f x).map (· + merit.penalty g) := by
  unfold psi meritValue penalty
  cases merit.oracles.f x with
  | error error => rfl
  | ok f => rfl

end Merit

end ProximalNewton
