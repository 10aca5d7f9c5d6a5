import Mathlib.Algebra.BigOperators.Fin
import Mathlib.LinearAlgebra.Matrix.DotProduct
import ProximalNewton.Proofs.RealScalar

/-!
# Vectors of real numbers

Over exact arithmetic the reductions of the library are the sums and maxima of
linear algebra. `dot` is a sum over the components, in whatever order; it is linear
in each argument, and scaling a vector by a positive number scales its norms.
-/

open Matrix

namespace ProximalNewton

variable {n : Nat}

theorem maxNum_eq_max (a b : ℝ) : maxNum a b = max a b := by
  unfold maxNum
  simp only [Scalar.isNaN, Bool.false_eq_true, if_false]
  split
  · rw [max_eq_right (le_of_lt ‹_›)]
  · rw [max_eq_left (not_lt.mp ‹_›)]

theorem minNum_eq_min (a b : ℝ) : minNum a b = min a b := by
  unfold minNum
  simp only [Scalar.isNaN, Bool.false_eq_true, if_false]
  split
  · rw [min_eq_right (le_of_lt ‹_›)]
  · rw [min_eq_left (not_lt.mp ‹_›)]

/-! ## Inner products -/

theorem dot_eq_sum (a b : Vector ℝ n) : dot a b = ∑ i : Fin n, a[i] * b[i] := by
  have products : a.toList.zipWith (· * ·) b.toList = List.ofFn fun i : Fin n => a[i] * b[i] := by
    apply List.ext_getElem
    · simp
    · intro i first second
      simp
  rw [dot_eq_foldl_toList, ← List.sum_ofFn, ← products, List.sum_eq_foldl]

theorem dot_sub_comm (a b c : Vector ℝ n) : dot a (b - c) = -dot a (c - b) := by
  rw [dot_eq_sum, dot_eq_sum, ← Finset.sum_neg_distrib]
  refine Finset.sum_congr rfl ?_
  intro i _
  simp only [Fin.getElem_fin, Vector.getElem_sub]
  ring

theorem normSq_sub_comm (a b : Vector ℝ n) : normSq (a - b) = normSq (b - a) := by
  unfold normSq
  rw [dot_eq_sum, dot_eq_sum]
  refine Finset.sum_congr rfl ?_
  intro i _
  simp only [Fin.getElem_fin, Vector.getElem_sub]
  ring

theorem normSq_nonneg (v : Vector ℝ n) : 0 ≤ normSq v := by
  unfold normSq
  rw [dot_eq_sum]
  exact Finset.sum_nonneg fun i _ => mul_self_nonneg _

theorem norm_le_norm_iff {v w : Vector ℝ n} : norm v ≤ norm w ↔ normSq v ≤ normSq w :=
  Real.sqrt_le_sqrt_iff (normSq_nonneg w)

theorem norm_mul_self (v : Vector ℝ n) : norm v * norm v = normSq v :=
  Real.mul_self_sqrt (normSq_nonneg v)

/-- No component is longer than the vector. -/
theorem abs_getElem_le_norm (v : Vector ℝ n) (i : Nat) (inside : i < n) : |v[i]| ≤ norm v := by
  have square : v[i] ^ 2 ≤ normSq v := by
    unfold normSq
    rw [dot_eq_sum, sq]
    exact Finset.single_le_sum (f := fun j : Fin n => v[j] * v[j])
      (fun j _ => mul_self_nonneg _) (Finset.mem_univ ⟨i, inside⟩)
  exact Real.abs_le_sqrt square

/-- A vector with smaller components is shorter. -/
theorem norm_le_norm {v w : Vector ℝ n}
    (smaller : ∀ (i : Nat) (inside : i < n), |v[i]| ≤ |w[i]|) : norm v ≤ norm w := by
  rw [norm_le_norm_iff]
  unfold normSq
  rw [dot_eq_sum, dot_eq_sum]
  refine Finset.sum_le_sum ?_
  intro i _
  exact abs_le_iff_mul_self_le.mp (smaller i i.isLt)

theorem add_sub_self (x h : Vector ℝ n) : x + h - x = h := by
  ext i inside
  rw [Vector.getElem_sub, Vector.getElem_add]
  exact add_sub_cancel_left _ _

/-! ## Coordinates -/

/-- `dot` is the inner product of the coordinates. -/
theorem dot_eq_dotProduct (a b : Vector ℝ n) : dot a b = a.get ⬝ᵥ b.get :=
  dot_eq_sum a b

@[simp]
theorem get_add (a b : Vector ℝ n) : (a + b).get = a.get + b.get := by
  funext i
  exact Vector.getElem_add a b i i.isLt

@[simp]
theorem get_sub (a b : Vector ℝ n) : (a - b).get = a.get - b.get := by
  funext i
  exact Vector.getElem_sub a b i i.isLt

@[simp]
theorem get_smul (c : ℝ) (a : Vector ℝ n) : (c * a).get = c • a.get := by
  funext i
  exact Vector.getElem_hmul c a i i.isLt

/-- Scaling from the right. -/
@[simp]
theorem get_map_mul (a : Vector ℝ n) (c : ℝ) : (a.map (· * c)).get = c • a.get := by
  funext i
  exact (Vector.getElem_map ..).trans (mul_comm _ _)

theorem get_injective {a b : Vector ℝ n} (same : a.get = b.get) : a = b := by
  ext i inside
  exact congrFun same ⟨i, inside⟩

/-- The law of cosines. -/
theorem normSq_sub (a b : Vector ℝ n) : normSq (a - b) = normSq a + normSq b - 2 * dot a b := by
  unfold normSq
  simp only [dot_eq_dotProduct, get_sub, sub_dotProduct, dotProduct_sub]
  rw [dotProduct_comm b.get a.get]
  ring

/-- Points apart are at a distance. -/
theorem normSq_sub_eq_zero_iff {a b : Vector ℝ n} : normSq (a - b) = 0 ↔ a = b := by
  unfold normSq
  rw [dot_eq_dotProduct, dotProduct_self_eq_zero, get_sub, sub_eq_zero]
  exact ⟨get_injective, congrArg Vector.get⟩

/-! ## Scaled vectors -/

theorem hmul_add (c : ℝ) (a b : Vector ℝ n) : c * (a + b) = c * a + c * b := by
  apply get_injective
  rw [get_smul, get_add, get_add, get_smul, get_smul, smul_add]

theorem hmul_sub (c : ℝ) (a b : Vector ℝ n) : c * (a - b) = c * a - c * b := by
  ext i inside
  rw [Vector.getElem_hmul, Vector.getElem_sub, Vector.getElem_sub, Vector.getElem_hmul,
    Vector.getElem_hmul, mul_sub]

theorem hmul_hmul (c d : ℝ) (a : Vector ℝ n) : c * (d * a) = (c * d) * a := by
  apply get_injective
  rw [get_smul, get_smul, get_smul, smul_smul]

/-- A reduction by a homogeneous step is homogeneous. -/
theorem foldl_hmul {step : ℝ → ℝ → ℝ} {c : ℝ}
    (homogeneous : ∀ a b, step (c * a) (c * b) = c * step a b) (v : Vector ℝ n) :
    (c * v).foldl step 0 = c * v.foldl step 0 := by
  have start : (0 : ℝ) = c * 0 := (mul_zero c).symm
  conv_lhs => rw [start]
  show (v.map (c * ·)).foldl step (c * 0) = _
  rw [Vector.foldl_map]
  exact Vector.foldl_hom (c * ·) homogeneous

theorem dot_hmul_left (c : ℝ) (a b : Vector ℝ n) : dot (c * a) b = c * dot a b := by
  rw [dot_eq_dotProduct, dot_eq_dotProduct, get_smul, smul_dotProduct, smul_eq_mul]

theorem dot_hmul_right (c : ℝ) (a b : Vector ℝ n) : dot a (c * b) = c * dot a b := by
  rw [dot_eq_dotProduct, dot_eq_dotProduct, get_smul, dotProduct_smul, smul_eq_mul]

theorem normSq_hmul (c : ℝ) (a : Vector ℝ n) : normSq (c * a) = c ^ 2 * normSq a := by
  unfold normSq
  rw [dot_hmul_left, dot_hmul_right, ← mul_assoc, sq]

theorem norm_hmul {c : ℝ} (nonneg : 0 ≤ c) (a : Vector ℝ n) : norm (c * a) = c * norm a := by
  unfold norm
  rw [normSq_hmul]
  exact (Real.sqrt_mul (sq_nonneg c) _).trans (congrArg (· * _) (Real.sqrt_sq nonneg))

theorem maxNorm_hmul {c : ℝ} (nonneg : 0 ≤ c) (a : Vector ℝ n) :
    maxNorm (c * a) = c * maxNorm a := by
  refine foldl_hmul ?_ a
  intro largest component
  rw [maxNum_eq_max, maxNum_eq_max, mul_max_of_nonneg _ _ nonneg]
  exact congrArg (max _) ((abs_mul c component).trans (congrArg (· * _) (abs_of_nonneg nonneg)))

end ProximalNewton
