import ProximalNewton.Proofs.RealVectors

/-!
# Projection of real vectors

Over exact arithmetic clamping to an interval moves a number only to an end that the
number lies beyond. Projection on a box clamps each component. It reaches the box
(`Box.contains_project`), and seen from the projection the vector lies in no direction
in which the box has members (`Box.dot_sub_project_nonpos`), which is what makes it
the nearest point of the box.
-/

namespace ProximalNewton

variable {n : Nat}

/-! ## Clamping real numbers -/

namespace Interval

variable {side : Interval ℝ} {value : ℝ}

/-- Only the lower end moves a value up. -/
theorem clamp_le (above : ∀ low ∈ side.lower, low < side.clamp value) :
    side.clamp value ≤ value := by
  rcases side.clamp_cases value with
    ⟨low, lower, -, clamped⟩ | ⟨high, -, beyond, clamped⟩ | ⟨-, -, clamped⟩
  · have strict := above low lower
    rw [clamped] at strict
    exact absurd strict (lt_irrefl low)
  · rw [clamped]
    exact le_of_lt beyond
  · rw [clamped]

/-- Only the upper end moves a value down. -/
theorem le_clamp (below : ∀ high ∈ side.upper, side.clamp value < high) :
    value ≤ side.clamp value := by
  rcases side.clamp_cases value with
    ⟨low, -, under, clamped⟩ | ⟨high, upper, -, clamped⟩ | ⟨-, -, clamped⟩
  · rw [clamped]
    exact le_of_lt under
  · have strict := below high upper
    rw [clamped] at strict
    exact absurd strict (lt_irrefl high)
  · rw [clamped]

/-- A value that is moved down ends at the upper end. -/
theorem upper_of_clamp_lt (moved : side.clamp value < value) :
    side.upper = some (side.clamp value) := by
  rcases side.clamp_cases value with
    ⟨low, -, under, clamped⟩ | ⟨high, upper, -, clamped⟩ | ⟨-, -, clamped⟩
  · rw [clamped] at moved
    exact absurd moved (not_lt_of_gt under)
  · rw [clamped, upper]
  · rw [clamped] at moved
    exact absurd moved (lt_irrefl value)

/-- A value that is moved up ends at the lower end. -/
theorem lower_of_lt_clamp (moved : value < side.clamp value) :
    side.lower = some (side.clamp value) := by
  rcases side.clamp_cases value with
    ⟨low, lower, -, clamped⟩ | ⟨high, -, beyond, clamped⟩ | ⟨-, -, clamped⟩
  · rw [clamped, lower]
  · rw [clamped] at moved
    exact absurd moved (not_lt_of_gt beyond)
  · rw [clamped] at moved
    exact absurd moved (lt_irrefl value)

/-- Seen from the clamped value, the value and the members of the interval do not lie on
the same side. -/
theorem sub_clamp_mul_nonpos {member : ℝ} (inside : side.Contains member) (value : ℝ) :
    (value - side.clamp value) * (member - side.clamp value) ≤ 0 := by
  obtain ⟨-, above, below⟩ := inside
  rcases side.clamp_cases value with
    ⟨low, lower, under, clamped⟩ | ⟨high, upper, beyond, clamped⟩ | ⟨-, -, clamped⟩
  · rw [clamped]
    exact mul_nonpos_of_nonpos_of_nonneg (sub_nonpos.mpr under.le)
      (sub_nonneg.mpr (above low lower))
  · rw [clamped]
    exact mul_nonpos_of_nonneg_of_nonpos (sub_nonneg.mpr beyond.le)
      (sub_nonpos.mpr (below high upper))
  · rw [clamped, sub_self, zero_mul]

/-- No member of the interval is nearer to a value than the clamped one. -/
theorem sq_sub_clamp_le {member : ℝ} (inside : side.Contains member) (value : ℝ) :
    (value - side.clamp value) ^ 2 ≤ (value - member) ^ 2 := by
  have apart := side.sub_clamp_mul_nonpos inside value
  calc (value - side.clamp value) ^ 2
      ≤ (value - side.clamp value) ^ 2 + (member - side.clamp value) ^ 2 :=
        le_add_of_nonneg_right (sq_nonneg _)
    _ ≤ (value - side.clamp value) ^ 2 + (member - side.clamp value) ^ 2 -
          2 * ((value - side.clamp value) * (member - side.clamp value)) := by linarith
    _ = (value - member) ^ 2 := by ring

/-- Between two steps from one value along one slope, the shorter one is between the longer
one and the part of it that the step sizes are in proportion to. -/
theorem sub_clamp_between (valid : side.Valid) {gamma gamma' : ℝ} (positive : 0 < gamma')
    (shorter : gamma' ≤ gamma) (value slope : ℝ) :
    let step := value - side.clamp (value - gamma * slope)
    let step' := value - side.clamp (value - gamma' * slope)
    (gamma' * step - gamma * step') * (step - step') ≤ 0 := by
  intro step step'
  have member : side.Contains (side.clamp (value - gamma * slope)) := contains_clamp valid rfl
  have member' : side.Contains (side.clamp (value - gamma' * slope)) := contains_clamp valid rfl
  have apart := side.sub_clamp_mul_nonpos member' (value - gamma * slope)
  have apart' := side.sub_clamp_mul_nonpos member (value - gamma' * slope)
  -- The slope cancels when either sign is weighted with the step size of the other step.
  calc (gamma' * step - gamma * step') * (step - step')
      = gamma' * ((value - gamma * slope - side.clamp (value - gamma * slope)) *
            (side.clamp (value - gamma' * slope) - side.clamp (value - gamma * slope))) +
          gamma * ((value - gamma' * slope - side.clamp (value - gamma' * slope)) *
            (side.clamp (value - gamma * slope) - side.clamp (value - gamma' * slope))) := by ring
    _ ≤ 0 := add_nonpos (mul_nonpos_of_nonneg_of_nonpos positive.le apart)
        (mul_nonpos_of_nonneg_of_nonpos (positive.le.trans shorter) apart')

/-- The squared distance to an interval lies above its tangent, and no further above it than
the square of the step. -/
theorem sq_sub_clamp_tangent (valid : side.Valid) (value value' : ℝ) :
    0 ≤ (value' - side.clamp value') ^ 2 - (value - side.clamp value) ^ 2 -
        2 * ((value - side.clamp value) * (value' - value)) ∧
      (value' - side.clamp value') ^ 2 - (value - side.clamp value) ^ 2 -
        2 * ((value - side.clamp value) * (value' - value)) ≤ (value' - value) ^ 2 := by
  have member : side.Contains (side.clamp value) := contains_clamp valid rfl
  have member' : side.Contains (side.clamp value') := contains_clamp valid rfl
  have apart := side.sub_clamp_mul_nonpos member' value
  have nearest := side.sq_sub_clamp_le member value'
  have square := sq_nonneg (value' - side.clamp value' - (value - side.clamp value))
  refine ⟨by linarith, by linarith⟩

end Interval

/-! ## Projection on a box -/

/-- Over the reals a projected vector lies in its box. -/
theorem Box.contains_project {box : Box ℝ n} (valid : box.Valid) (v : Vector ℝ n) :
    box.Contains (box.project v) :=
  (Box.contains_project_iff valid v).mpr fun _ _ => rfl

/-- Seen from the projection, no member of the box lies in the direction of the vector. -/
theorem Box.dot_sub_project_nonpos {box : Box ℝ n} {member : Vector ℝ n}
    (inside : box.Contains member) (v : Vector ℝ n) :
    dot (v - box.project v) (member - box.project v) ≤ 0 := by
  rw [dot_eq_sum]
  refine Finset.sum_nonpos ?_
  intro i _
  simp only [Fin.getElem_fin, Vector.getElem_sub, Box.getElem_project]
  exact Interval.sub_clamp_mul_nonpos (inside i i.isLt) _

end ProximalNewton
