import Mathlib.Algebra.BigOperators.Field
import Mathlib.Tactic.FieldSimp
import Mathlib.Tactic.Linarith
import ProximalNewton.Iterate
import ProximalNewton.Proofs.RealProjection

/-!
# The envelope is the minimum of the proximal model

At a point `x` the proximal model of the merit is its linearisation there with the
distance from `x` penalised, `ψ + ⟨∇ψ, v - x⟩ + ‖v - x‖² / (2γ)`. Over exact arithmetic
the projected gradient step `x̂` minimises it over `C`, and the forward-backward envelope
is the minimum.

`Iterate.proximalModel_about` expands the model about any other point `w`: beside its
value there and the distance from `w`, a term is left that pairs `v - w` with
`x - γ∇ψ - w`. For `w = x̂` this term has a sign, as `x̂` is the projection of `x - γ∇ψ`.
-/

namespace ProximalNewton

variable {n : Nat}

namespace Iterate

/-- The merit linearised at the point of an iterate, with the distance from this point
penalised by `1 / (2γ)`. -/
noncomputable def proximalModel (iterate : Iterate ℝ n) (gamma : ℝ) (v : Vector ℝ n) : ℝ :=
  iterate.psi + dot iterate.gradPsi (v - iterate.x) + 0.5 / gamma * normSq (v - iterate.x)

variable (iterate : Iterate ℝ n)

/-- The model expanded about another point. -/
theorem proximalModel_about {gamma : ℝ} (positive : 0 < gamma) (v w : Vector ℝ n) :
    iterate.proximalModel gamma v =
      iterate.proximalModel gamma w + normSq (v - w) / (2 * gamma) -
        dot (iterate.x - gamma * iterate.gradPsi - w) (v - w) / gamma := by
  have expanded : dot iterate.gradPsi (v - iterate.x) + 0.5 / gamma * normSq (v - iterate.x) =
      dot iterate.gradPsi (w - iterate.x) + 0.5 / gamma * normSq (w - iterate.x) +
        normSq (v - w) / (2 * gamma) -
        dot (iterate.x - gamma * iterate.gradPsi - w) (v - w) / gamma := by
    unfold normSq
    simp only [dot_eq_sum, Finset.sum_div, Finset.mul_sum, ← Finset.sum_add_distrib,
      ← Finset.sum_sub_distrib]
    refine Finset.sum_congr rfl ?_
    intro i _
    simp only [Fin.getElem_fin, Vector.getElem_sub, Vector.getElem_hmul]
    field_simp
    ring
  unfold proximalModel
  linarith

/-- At its own point the model is the merit. -/
theorem proximalModel_self (gamma : ℝ) : iterate.proximalModel gamma iterate.x = iterate.psi := by
  have still : iterate.x - iterate.x = Vector.replicate n 0 := by
    ext i inside
    simp
  unfold proximalModel normSq
  rw [still, dot_eq_sum, dot_eq_sum]
  simp

/-- The envelope is the model at the projected step. -/
theorem envelope_withGamma (C : Box ℝ n) (step : StepSize ℝ) :
    (iterate.withGamma C step.gamma).envelope step =
      iterate.proximalModel step.gamma (iterate.withGamma C step.gamma).xHat := by
  set stepped := iterate.withGamma C step.gamma
  have gradDotR_eq : stepped.gradDotR = -dot iterate.gradPsi (stepped.xHat - iterate.x) :=
    dot_sub_comm _ _ _
  have normSqR_eq : stepped.normSqR = normSq (stepped.xHat - iterate.x) := normSq_sub_comm _ _
  show iterate.psi - stepped.gradDotR + 0.5 / step.gamma * stepped.normSqR = _
  unfold proximalModel
  rw [gradDotR_eq, normSqR_eq]
  ring

/-- Away from the projected step the model grows over `C` at least as the penalty does. -/
theorem envelope_add_le_proximalModel {C : Box ℝ n} {step : StepSize ℝ}
    (positive : 0 < step.gamma) {v : Vector ℝ n} (inside : C.Contains v) :
    (iterate.withGamma C step.gamma).envelope step +
        normSq (v - (iterate.withGamma C step.gamma).xHat) / (2 * step.gamma) ≤
      iterate.proximalModel step.gamma v := by
  set stepped := iterate.withGamma C step.gamma
  have obtuse : dot (iterate.x - step.gamma * iterate.gradPsi - stepped.xHat)
      (v - stepped.xHat) ≤ 0 := Box.dot_sub_project_nonpos inside _
  have grows := div_nonpos_of_nonpos_of_nonneg obtuse positive.le
  rw [envelope_withGamma, iterate.proximalModel_about positive v stepped.xHat]
  linarith

/-- Nowhere on `C` is the model below the envelope. -/
theorem envelope_le_proximalModel {C : Box ℝ n} {step : StepSize ℝ} (positive : 0 < step.gamma)
    {v : Vector ℝ n} (inside : C.Contains v) :
    (iterate.withGamma C step.gamma).envelope step ≤ iterate.proximalModel step.gamma v :=
  (le_add_of_nonneg_right (div_nonneg (normSq_nonneg _) (by linarith))).trans
    (iterate.envelope_add_le_proximalModel positive inside)

/-- **The envelope is the minimum of the proximal model.** The proximal step of an iterate
ends in `C`, where the model takes the value of the envelope, and no point of `C` has a
smaller one. From a point of `C` the envelope is therefore below the merit, by the squared
length of the step over `2γ` at least. -/
theorem envelope_minimum {C : Box ℝ n} (valid : C.Valid) {step : StepSize ℝ}
    (positive : 0 < step.gamma) :
    let stepped := iterate.withGamma C step.gamma
    C.Contains stepped.xHat ∧
      stepped.envelope step = iterate.proximalModel step.gamma stepped.xHat ∧
      (∀ v, C.Contains v → stepped.envelope step ≤ iterate.proximalModel step.gamma v) ∧
      (C.Contains iterate.x →
        stepped.envelope step ≤ iterate.psi - normSq stepped.r / (2 * step.gamma)) := by
  intro stepped
  refine ⟨Box.contains_project valid _, iterate.envelope_withGamma C step, ?least, ?descends⟩
  case least =>
    intro v inside
    have grows := iterate.envelope_add_le_proximalModel positive inside
    have penalty : 0 ≤ normSq (v - stepped.xHat) / (2 * step.gamma) :=
      div_nonneg (normSq_nonneg _) (by linarith)
    linarith
  case descends =>
    intro inside
    have grows := iterate.envelope_add_le_proximalModel positive inside
    rw [proximalModel_self] at grows
    exact le_sub_iff_add_le.mpr grows

end Iterate

/-! ## A step into a corner -/

/-- The quadrant of points right of zero and below one. -/
def quadrant : Box ℝ 2 where
  sides := #v[⟨some 0, none⟩, ⟨none, some 1⟩]

theorem quadrant_valid : quadrant.Valid := by
  intro i inside
  match i, inside with
  | 0, _ => exact ⟨by simp [quadrant, Interval.Unordered, Scalar.isNaN], nofun⟩
  | 1, _ => exact ⟨by simp [quadrant, Interval.Unordered, Scalar.isNaN], nofun⟩

/-- A point of the quadrant from which a long gradient step leaves it at both ends. -/
noncomputable def quadrantIterate : Iterate ℝ 2 :=
  .ofPoint quadrant 1 #v[1, -1] #v[1, -1] 0

theorem quadrant_contains_x : quadrant.Contains quadrantIterate.x := by
  intro i inside
  match i, inside with
  | 0, _ => exact ⟨rfl, by simp [quadrant, quadrantIterate, Iterate.ofPoint], nofun⟩
  | 1, _ => exact ⟨rfl, nofun, by simp [quadrant, quadrantIterate, Iterate.ofPoint]⟩

/-- The envelope at this point bounds the model on the quadrant from below, and is below
the merit. -/
theorem envelope_minimum_quadrant :
    let step := StepSize.ofLipschitz (0.19 : ℝ)
    let stepped := quadrantIterate.withGamma quadrant step.gamma
    quadrant.Valid ∧ 0 < step.gamma ∧ quadrant.Contains quadrantIterate.x ∧
      (∀ v, quadrant.Contains v →
        stepped.envelope step ≤ quadrantIterate.proximalModel step.gamma v) ∧
      stepped.envelope step ≤ quadrantIterate.psi - normSq stepped.r / (2 * step.gamma) := by
  intro step stepped
  have positive : 0 < step.gamma := by
    show (0 : ℝ) < 0.95 / 0.19
    norm_num
  obtain ⟨-, -, least, descends⟩ := quadrantIterate.envelope_minimum quadrant_valid positive
  exact ⟨quadrant_valid, positive, quadrant_contains_x, least, descends quadrant_contains_x⟩

end ProximalNewton
