import Mathlib
import ProximalNewton.Proofs.Evaluation
import ProximalNewton.Proofs.RealMerit

/-!
# The multiplier estimate is the gradient of the penalty

The merit value and the merit gradient are computed separately: the one adds half a weighted
squared distance to the objective, the other applies the adjoint of the constraint map to the
multiplier estimate. Over exact arithmetic they belong together. The multiplier estimate
gives a plane that touches the penalty from below, and the penalty leaves this plane no
faster than a parabola (`Merit.penalty_tangent`), wherever the constraint values lie with
respect to the sides of `D`. So the merit gradient is the slope of the merit along every path
along which the objective and the constraint map have one
(`Merit.penalty_gradient`).
-/

namespace ProximalNewton

variable {ε : Type} {n m : Nat}

/-! ## The penalty and its tangents -/

namespace Merit

variable {merit : Merit ℝ ε n m} {g g' w : Vector ℝ m}

/-- The penalty is the least distance to a member of `D`. -/
theorem isLeast_penalty (valid : merit.D.Valid) (weights : ∀ weight ∈ merit.sigma, 0 < weight)
    (g : Vector ℝ m) :
    IsLeast ((fun w => halfSq merit.sigma (g + merit.shift - w)) '' {w | merit.D.Contains w})
      (merit.penalty g) := by
  refine ⟨⟨merit.slackOf g, Box.contains_project valid _, (penalty_eq g).symm⟩, ?_⟩
  rintro _ ⟨w, member, rfl⟩
  rw [penalty_eq]
  refine mul_le_mul_of_nonneg_left (Finset.sum_le_sum ?_) (by norm_num)
  intro j _
  refine mul_le_mul_of_nonneg_left ?_ (weights _ (Vector.getElem_mem j.isLt)).le
  simp only [Vector.get_eq_getElem, Vector.getElem_sub, getElem_add_shift, getElem_slackOf]
  exact Interval.sq_sub_clamp_le (member j j.isLt) _

/-- What lies between the penalty and its tangent at `g`, component by component. -/
theorem penalty_sub_tangent (weights : ∀ weight ∈ merit.sigma, 0 < weight) (g g' : Vector ℝ m) :
    merit.penalty g' - merit.penalty g - dot (merit.multipliersOf g) (g' - g) =
      0.5 * ∑ j : Fin m, merit.sigma.get j *
        ((g' + merit.shift - merit.slackOf g').get j ^ 2 -
          (g + merit.shift - merit.slackOf g).get j ^ 2 -
          2 * ((g + merit.shift - merit.slackOf g).get j * (g' - g).get j)) := by
  rw [penalty_eq, penalty_eq, dot_eq_sum]
  unfold halfSq
  rw [← mul_sub, ← Finset.sum_sub_distrib, Finset.mul_sum, Finset.mul_sum,
    ← Finset.sum_sub_distrib]
  refine Finset.sum_congr rfl ?_
  intro j _
  have weighted := (weights _ (Vector.getElem_mem j.isLt)).ne'
  simp only [Fin.getElem_fin, Vector.get_eq_getElem, Vector.getElem_sub, getElem_add_shift,
    getElem_multipliersOf g j.isLt weighted]
  ring

/-- **The tangent of the penalty.** The multiplier estimate at `g` is the slope of a plane
that touches the penalty at `g` from below, and the penalty leaves it by no more than half
the weighted squared length of the step. -/
theorem penalty_tangent (valid : merit.D.Valid) (weights : ∀ weight ∈ merit.sigma, 0 < weight)
    (g g' : Vector ℝ m) :
    0 ≤ merit.penalty g' - merit.penalty g - dot (merit.multipliersOf g) (g' - g) ∧
      merit.penalty g' - merit.penalty g - dot (merit.multipliersOf g) (g' - g) ≤
        halfSq merit.sigma (g' - g) := by
  have tangent : ∀ j : Fin m, _ := fun j =>
    Interval.sq_sub_clamp_tangent (valid j j.isLt) (g[j] + merit.y[j] / merit.sigma[j])
      (g'[j] + merit.y[j] / merit.sigma[j])
  have weight_nonneg : ∀ j : Fin m, 0 ≤ merit.sigma.get j := fun j =>
    (weights _ (Vector.getElem_mem j.isLt)).le
  rw [penalty_sub_tangent weights]
  simp only [Fin.getElem_fin, add_sub_add_right_eq_sub] at tangent
  constructor
  · refine mul_nonneg (by norm_num) (Finset.sum_nonneg ?_)
    intro j _
    refine mul_nonneg (weight_nonneg j) ?_
    simp only [Vector.get_eq_getElem, Vector.getElem_sub, getElem_add_shift, getElem_slackOf]
    exact (tangent j).1
  · refine mul_le_mul_of_nonneg_left (Finset.sum_le_sum ?_) (by norm_num)
    intro j _
    refine mul_le_mul_of_nonneg_left ?_ (weight_nonneg j)
    simp only [Vector.get_eq_getElem, Vector.getElem_sub, getElem_add_shift, getElem_slackOf]
    exact (tangent j).2

end Merit

/-! ## Along a path -/

/-- What lies between zero and a function that vanishes with its slope has no slope there. -/
theorem hasDerivAt_zero_of_between {inner outer : ℝ → ℝ} {t : ℝ} (nonneg : ∀ s, 0 ≤ inner s)
    (le : ∀ s, inner s ≤ outer s) (vanishes : outer t = 0) (flat : HasDerivAt outer 0 t) :
    HasDerivAt inner 0 t := by
  have at_t : inner t = 0 := le_antisymm ((le t).trans_eq vanishes) (nonneg t)
  rw [hasDerivAt_iff_isLittleO] at flat ⊢
  refine Asymptotics.IsBigO.trans_isLittleO (Asymptotics.IsBigO.of_bound 1 ?_) flat
  refine Filter.Eventually.of_forall ?_
  intro s
  simp only [at_t, vanishes, sub_zero, smul_zero, one_mul, Real.norm_eq_abs]
  exact abs_le_abs_of_nonneg (nonneg s) (le s)

theorem hasDerivAt_dot (fixed : Vector ℝ m) {slope : Vector ℝ m} {v : ℝ → Vector ℝ m} {t : ℝ}
    (slopes : ∀ j : Fin m, HasDerivAt (fun s => (v s).get j) (slope.get j) t) :
    HasDerivAt (fun s => dot fixed (v s)) (dot fixed slope) t := by
  simp only [dot_eq_sum]
  exact HasDerivAt.fun_sum fun j _ => (slopes j).const_mul (fixed.get j)

/-- A squared length has no slope where the vector vanishes. -/
theorem hasDerivAt_halfSq {sigma slope : Vector ℝ m} {v : ℝ → Vector ℝ m} {t : ℝ}
    (slopes : ∀ j : Fin m, HasDerivAt (fun s => (v s).get j) (slope.get j) t)
    (vanishes : ∀ j : Fin m, (v t).get j = 0) : HasDerivAt (fun s => halfSq sigma (v s)) 0 t := by
  have square : ∀ j : Fin m, HasDerivAt (fun s => sigma.get j * (v s).get j ^ 2) 0 t := by
    intro j
    have term := ((slopes j).fun_pow 2).const_mul (sigma.get j)
    rw [vanishes j] at term
    simpa using term
  have sum := (HasDerivAt.fun_sum fun j (_ : j ∈ Finset.univ) => square j).const_mul (0.5 : ℝ)
  rw [Finset.sum_const_zero, mul_zero] at sum
  exact sum

namespace Merit

variable {merit : Merit ℝ ε n m}

/-- The slope of the penalty along a path of constraint values. -/
theorem hasDerivAt_penalty (valid : merit.D.Valid)
    (weights : ∀ weight ∈ merit.sigma, 0 < weight) {g : ℝ → Vector ℝ m} {slope : Vector ℝ m}
    {t : ℝ} (slopes : ∀ j : Fin m, HasDerivAt (fun s => (g s).get j) (slope.get j) t) :
    HasDerivAt (fun s => merit.penalty (g s)) (dot (merit.multipliersOf (g t)) slope) t := by
  have moves : ∀ j : Fin m, HasDerivAt (fun s => (g s - g t).get j) (slope.get j) t := by
    intro j
    simp only [Vector.get_eq_getElem, Vector.getElem_sub]
    exact (slopes j).sub_const _
  have still : ∀ j : Fin m, (g t - g t).get j = 0 := by
    intro j
    simp
  have square : halfSq merit.sigma (g t - g t) = 0 := by
    unfold halfSq
    simp only [still]
    simp
  have tangent := fun s => merit.penalty_tangent valid weights (g t) (g s)
  have rest := hasDerivAt_zero_of_between (fun s => (tangent s).1) (fun s => (tangent s).2) square
    (hasDerivAt_halfSq moves still)
  have linear := hasDerivAt_dot (merit.multipliersOf (g t)) moves
  have whole := (rest.add linear).add_const (merit.penalty (g t))
  rw [zero_add] at whole
  refine whole.congr_of_eventuallyEq (Filter.Eventually.of_forall ?_)
  intro s
  simp

/-- The functions of the problem along a path, and their slopes at time `t`. The gradient of
the objective gives the slope of the objective, and the transposed Jacobian, applied to the
multiplier estimate, gives that of the constraint value weighted by the multipliers. -/
structure Follows (merit : Merit ℝ ε n m) (path : ℝ → Vector ℝ n) (velocity : Vector ℝ n) (t : ℝ)
    (f : ℝ → ℝ) (g : ℝ → Vector ℝ m) (gradF adjoint : Vector ℝ n) : Prop where
  objective : ∀ s, merit.oracles.f (path s) = .ok (f s)
  constraint : ∀ s, merit.oracles.g (path s) = .ok (g s)
  gradient : merit.oracles.gradF (path t) = .ok gradF
  transposed : merit.oracles.gradG (path t) (merit.multipliersOf (g t)) = .ok adjoint
  objective_slope : HasDerivAt f (dot gradF velocity) t
  constraint_slope : ∃ slope : Vector ℝ m,
    (∀ j : Fin m, HasDerivAt (fun s => (g s).get j) (slope.get j) t) ∧
      dot adjoint velocity = dot (merit.multipliersOf (g t)) slope

/-- **The multiplier estimate is the gradient of the penalty.** The penalty is the least
weighted distance to a member of `D`, and its tangent at a constraint value is given by the
multiplier estimate there. So the merit gradient is the slope of the merit along every path
along which the functions of the problem have slopes. -/
theorem penalty_gradient (merit : Merit ℝ ε n m) (valid : merit.D.Valid)
    (weights : ∀ weight ∈ merit.sigma, 0 < weight) :
    (∀ g, IsLeast ((fun w => halfSq merit.sigma (g + merit.shift - w)) '' {w | merit.D.Contains w})
      (merit.penalty g)) ∧
    (∀ g g', 0 ≤ merit.penalty g' - merit.penalty g - dot (merit.multipliersOf g) (g' - g) ∧
      merit.penalty g' - merit.penalty g - dot (merit.multipliersOf g) (g' - g) ≤
        halfSq merit.sigma (g' - g)) ∧
    (∀ x g, merit.psi x g = (merit.oracles.f x).map (· + merit.penalty g)) ∧
    ∀ path velocity t f g gradF adjoint,
      merit.Follows path velocity t f g gradF adjoint →
        (∀ s, merit.psi (path s) (g s) = .ok (f s + merit.penalty (g s))) ∧
        meritGradient merit.oracles (path t) (merit.multipliersOf (g t)) =
          .ok { adjoint, total := gradF + adjoint } ∧
        HasDerivAt (fun s => f s + merit.penalty (g s)) (dot (gradF + adjoint) velocity) t := by
  refine ⟨isLeast_penalty valid weights, penalty_tangent valid weights, psi_eq_map, ?_⟩
  intro path velocity t f g gradF adjoint follows
  refine ⟨?_, ?_, ?_⟩
  · intro s
    rw [psi_eq_map, follows.objective]
    rfl
  · exact meritGradient_eq_ok.mpr ⟨gradF, adjoint, follows.gradient, follows.transposed, rfl⟩
  · obtain ⟨slope, slopes, weighted⟩ := follows.constraint_slope
    have sum := follows.objective_slope.add (hasDerivAt_penalty valid weights slopes)
    rw [← weighted] at sum
    have split : dot (gradF + adjoint) velocity = dot gradF velocity + dot adjoint velocity := by
      rw [dot_eq_dotProduct, dot_eq_dotProduct, dot_eq_dotProduct, get_add, add_dotProduct]
    rw [split]
    exact sum

/-- A unit slope, with the constraint that the variable is at most one. -/
noncomputable def halflineMerit : Merit ℝ Unit 1 1 where
  oracles :=
    { f := fun x => .ok (x.get ⟨0, Nat.one_pos⟩)
      gradF := fun _ => .ok (.replicate 1 1)
      g := fun x => .ok x
      gradG := fun _ y => .ok y }
  D := ⟨.replicate 1 ⟨none, some 1⟩⟩
  sigma := .replicate 1 0.5
  y := .replicate 1 1

theorem halflineMerit_follows (t : ℝ) :
    halflineMerit.Follows (fun s => #v[s]) #v[1] t id (fun s => #v[s]) #v[1]
      (halflineMerit.multipliersOf #v[t]) where
  objective _ := rfl
  constraint _ := rfl
  gradient := rfl
  transposed := rfl
  objective_slope := by
    have one : dot #v[(1 : ℝ)] #v[1] = 1 := by simp [dot_eq_sum]
    rw [one]
    exact hasDerivAt_id t
  constraint_slope := by
    refine ⟨#v[1], ?_, rfl⟩
    intro j
    have only : j = 0 := Subsingleton.elim j 0
    subst only
    exact hasDerivAt_id t

/-- Where the variable is three, the merit has the slope that its gradient says. -/
theorem penalty_gradient_halfline : halflineMerit.D.Valid ∧
    (∀ weight ∈ halflineMerit.sigma, 0 < weight) ∧
    HasDerivAt (fun s => s + halflineMerit.penalty #v[s])
      (dot (#v[1] + halflineMerit.multipliersOf #v[3]) #v[1]) 3 := by
  have valid : halflineMerit.D.Valid := by
    intro j inside
    cases Nat.lt_one_iff.mp inside
    exact ⟨by simp [Interval.Unordered, Scalar.isNaN], nofun⟩
  have weights : ∀ weight ∈ halflineMerit.sigma, 0 < weight := by
    intro weight member
    have half : weight = 0.5 := (Vector.mem_replicate.mp member).2
    norm_num [half]
  have slope := (halflineMerit.penalty_gradient valid weights).2.2.2 _ _ _ _ _ _ _
    (halflineMerit_follows 3)
  exact ⟨valid, weights, slope.2.2⟩

end Merit

end ProximalNewton
