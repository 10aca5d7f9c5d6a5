import ProximalNewton.Proofs.MachineLaws
import ProximalNewton.Proofs.ProximalModel

/-!
# Projection is Euclidean

What projection on a box is depends on the arithmetic. In every arithmetic whose order is
lawful it is an idempotent map that fixes the members of the box and passes over the
components that are not numbers, and it makes no difference whether the projection is
written to a new vector, over another one or in place (`Box.Projects`). Over exact
arithmetic it is the projection of Euclidean geometry: the nearest member, seen from which
no other member lies in the direction of the vector, and never further from another
projection than the two vectors are apart (`Box.Nearest`).

`Box.project_euclidean` states both for the boxes without a defect.
-/

namespace ProximalNewton

variable {n : Nat}

/-! ## Any lawful order -/

section Lawful

variable {F : Type} [Scalar F] [LawfulScalar F]

namespace Interval

variable {side : Interval F} {value : F}

theorem clamp_of_isNaN (unordered : Scalar.isNaN value = true) : side.clamp value = value := by
  rcases side.clamp_cases value with
    ⟨low, -, below, -⟩ | ⟨high, -, above, -⟩ | ⟨-, -, clamped⟩
  · rw [(LawfulScalar.ordered_of_lt below).1] at unordered
    contradiction
  · rw [(LawfulScalar.ordered_of_lt above).2] at unordered
    contradiction
  · exact clamped

theorem clamp_of_contains (inside : side.Contains value) : side.clamp value = value := by
  obtain ⟨-, not_below, not_above⟩ := inside
  rcases side.clamp_cases value with
    ⟨low, lower, below, -⟩ | ⟨high, upper, above, -⟩ | ⟨-, -, clamped⟩
  · exact absurd (not_below low lower) (LawfulScalar.lt_iff.mp below).2
  · exact absurd (not_above high upper) (LawfulScalar.lt_iff.mp above).2
  · exact clamped

theorem clamp_eq_self_iff (valid : side.Valid) (ordered : Scalar.isNaN value = false) :
    side.clamp value = value ↔ side.Contains value := by
  constructor
  · intro fixed
    rw [← fixed]
    exact contains_clamp valid ordered
  · exact clamp_of_contains

theorem clamp_clamp (valid : side.Valid) (value : F) :
    side.clamp (side.clamp value) = side.clamp value := by
  cases known : Scalar.isNaN value with
  | true => rw [clamp_of_isNaN known, clamp_of_isNaN known]
  | false => exact clamp_of_contains (contains_clamp valid known)

end Interval

/-- What projection on a box is whatever the arithmetic. -/
structure Box.Projects (box : Box F n) : Prop where
  /-- Written over another vector it is the same. -/
  into_eq : ∀ v out, box.projectInto v out = box.project v
  /-- Written over the vector itself it is the same. -/
  inPlace_eq : ∀ v, box.projectInPlace v = box.project v
  /-- Of the vectors of numbers it fixes the members of the box and no others. -/
  fixed_iff : ∀ v, (∀ (i : Nat) (inside : i < n), Scalar.isNaN v[i] = false) →
    (box.project v = v ↔ box.Contains v)
  /-- Components that are not numbers are passed over. -/
  passed : ∀ v (i : Nat) (inside : i < n), Scalar.isNaN v[i] = true → (box.project v)[i] = v[i]
  idempotent : ∀ v, box.project (box.project v) = box.project v

theorem Box.Valid.projects {box : Box F n} (valid : box.Valid) : box.Projects := by
  constructor
  case into_eq => exact box.projectInto_eq
  case inPlace_eq => exact box.projectInPlace_eq
  case fixed_iff =>
    intro v ordered
    have components : box.project v = v ↔
        ∀ (i : Nat) (inside : i < n), box.sides[i].clamp v[i] = v[i] := by
      simp only [Vector.ext_iff, getElem_project]
    rw [components]
    exact forall₂_congr fun i inside =>
      Interval.clamp_eq_self_iff (valid i inside) (ordered i inside)
  case passed =>
    intro v i inside unordered
    rw [getElem_project, Interval.clamp_of_isNaN unordered]
  case idempotent =>
    intro v
    ext i inside
    rw [getElem_project, getElem_project, Interval.clamp_clamp (valid i inside)]

end Lawful

/-! ## Exact arithmetic -/

/-- Clamping takes no two numbers further apart. -/
theorem Interval.abs_clamp_sub_clamp_le {side : Interval ℝ} (valid : side.Valid)
    (value value' : ℝ) : |side.clamp value - side.clamp value'| ≤ |value - value'| := by
  have member : side.Contains (side.clamp value) := contains_clamp valid rfl
  have member' : side.Contains (side.clamp value') := contains_clamp valid rfl
  have apart := side.sub_clamp_mul_nonpos member' value
  have apart' := side.sub_clamp_mul_nonpos member value'
  have square := sq_nonneg (value - value' - (side.clamp value - side.clamp value'))
  rw [abs_le_iff_mul_self_le]
  linarith

namespace Box

/-- What projection on a box is over exact arithmetic. -/
structure Nearest (box : Box ℝ n) : Prop where
  member : ∀ v, box.Contains (box.project v)
  /-- No member lies in the direction of the vector. -/
  obtuse : ∀ v w, box.Contains w → dot (v - box.project v) (w - box.project v) ≤ 0
  /-- No member is nearer to the vector. -/
  nearest : ∀ v w, box.Contains w → norm (v - box.project v) ≤ norm (v - w)
  /-- No other member is as near. -/
  unique : ∀ v w, box.Contains w → norm (v - w) ≤ norm (v - box.project v) → w = box.project v
  /-- Two projections are no further apart than the vectors. -/
  nonexpansive : ∀ u v, norm (box.project u - box.project v) ≤ norm (u - v)

/-- From a member, a vector is further away than its projection is from both. -/
theorem normSq_project_add_le {box : Box ℝ n} {w : Vector ℝ n} (inside : box.Contains w)
    (v : Vector ℝ n) :
    normSq (v - box.project v) + normSq (w - box.project v) ≤ normSq (v - w) := by
  have obtuse := Box.dot_sub_project_nonpos inside v
  have about : v - w = (v - box.project v) - (w - box.project v) := by
    apply get_injective
    simp only [get_sub, sub_sub_sub_cancel_right]
  rw [about, normSq_sub (v - box.project v)]
  linarith

theorem Valid.nearest {box : Box ℝ n} (valid : box.Valid) : box.Nearest := by
  constructor
  case member => exact Box.contains_project valid
  case obtuse =>
    intro v w inside
    exact Box.dot_sub_project_nonpos inside v
  case nearest =>
    intro v w inside
    have further := normSq_project_add_le inside v
    rw [norm_le_norm_iff]
    linarith [normSq_nonneg (w - box.project v)]
  case unique =>
    intro v w inside near
    have further := normSq_project_add_le inside v
    rw [norm_le_norm_iff] at near
    exact normSq_sub_eq_zero_iff.mp (le_antisymm (by linarith) (normSq_nonneg _))
  case nonexpansive =>
    intro u v
    refine norm_le_norm ?_
    intro i inside
    rw [Vector.getElem_sub, Vector.getElem_sub, getElem_project, getElem_project]
    exact Interval.abs_clamp_sub_clamp_le (valid i inside) _ _

/-- **Projection is the Euclidean projection.** Over exact arithmetic it takes every vector
to the only nearest member of the box and no two vectors further apart. In every arithmetic
with a lawful order, the machine formats among them, it fixes exactly the members among the
vectors of numbers, is idempotent, and is the same vector from every entry point. Equality
is that of the numbers themselves, which tells a zero from a negative zero. -/
theorem project_euclidean :
    (∀ {n : Nat} (box : Box ℝ n), box.Valid → box.Nearest) ∧
    ∀ {F : Type} [Scalar F] [LawfulScalar F] {n : Nat} (role : Role) (box : Box F n),
      box.fault? role = none → box.Projects := by
  constructor
  · intro n box valid
    exact valid.nearest
  · intro F _ _ n role box faultless
    exact (Box.fault?_eq_none_iff.mp faultless).projects

end Box

/-! ## A box with an end at zero -/

/-- A bounded side beside one that is open below, in binary64. -/
def cornerBox : Box Float 3 :=
  .ofBounds #v[0, -MachineScalar.infinity, -1] #v[1, 2, MachineScalar.infinity]

/-- The corner fixes a negative zero and moves what lies beyond an end, and the quadrant is
projected on as Euclid does. -/
theorem Box.project_euclidean_corner :
    quadrant.Valid ∧ quadrant.Nearest ∧ cornerBox.fault? .C = none ∧ cornerBox.Projects ∧
      cornerBox.project #v[-0, -1e300, 1e300] = #v[-0, -1e300, 1e300] ∧ (-0 : Float) ≠ 0 ∧
      cornerBox.project #v[3, 5, -5] = #v[1, 2, -1] ∧
      cornerBox.project #v[0 / 0, 5, -5] = #v[0 / 0, 2, -1] := by
  have faultless : cornerBox.fault? .C = none := by decide +kernel
  exact ⟨quadrant_valid, Box.project_euclidean.1 quadrant quadrant_valid, faultless,
    Box.project_euclidean.2 .C cornerBox faultless, by decide +kernel, by decide +kernel,
    by decide +kernel, by decide +kernel⟩

end ProximalNewton
