import Mathlib.Algebra.Order.Star.Real
import Mathlib.LinearAlgebra.Matrix.PosDef
import ProximalNewton.Proofs.RealVectors
import ProximalNewton.Proofs.RecentPairs

/-!
# The inverse estimate as a matrix

Over exact arithmetic the two-loop recursion multiplies by a matrix that is never
formed. `inverseMatrix` is this matrix: a multiple of the identity, updated by each
pair of the memory from the oldest to the newest (`bfgsUpdate`).

* `CurvatureStore.apply_eq_inverseMatrix`: an application to a vector is the product
  with this matrix.
* `CurvatureStore.apply_positiveDefinite`: admission of a pair means that `s·y` is
  positive, and this is enough for the matrix to stay symmetric and positive definite
  under every update, and to take the last `y` to the last `s`.
-/

open Matrix

namespace ProximalNewton

variable {n depth : Nat}

/-! ## Updates of a matrix -/

section Updates

variable {H : Matrix (Fin n) (Fin n) ℝ} {s y : Fin n → ℝ}

/-- The estimate after a pair of changes: `(I - ρ s yᵀ) H (I - ρ y sᵀ) + ρ s sᵀ`, with
`ρ = 1 / s·y`. -/
noncomputable def bfgsUpdate (H : Matrix (Fin n) (Fin n) ℝ) (s y : Fin n → ℝ) :
    Matrix (Fin n) (Fin n) ℝ :=
  let rho := 1 / (s ⬝ᵥ y)
  (1 - rho • vecMulVec s y) * H * (1 - rho • vecMulVec y s) + rho • vecMulVec s s

/-- A correction of the identity by a matrix of rank one. -/
theorem one_sub_vecMulVec_mulVec (rho : ℝ) (a b q : Fin n → ℝ) :
    (1 - rho • vecMulVec a b) *ᵥ q = q - (rho * (b ⬝ᵥ q)) • a := by
  rw [sub_mulVec, one_mulVec, smul_mulVec, vecMulVec_mulVec, op_smul_eq_smul, smul_smul]

/-- The product with an updated matrix takes one product with the matrix before. -/
theorem bfgsUpdate_mulVec (H : Matrix (Fin n) (Fin n) ℝ) (s y q : Fin n → ℝ) :
    bfgsUpdate H s y *ᵥ q =
      let alpha := 1 / (s ⬝ᵥ y) * (s ⬝ᵥ q)
      let r := H *ᵥ (q - alpha • y)
      r + (alpha - 1 / (s ⬝ᵥ y) * (y ⬝ᵥ r)) • s := by
  dsimp only [bfgsUpdate]
  rw [add_mulVec, ← mulVec_mulVec, ← mulVec_mulVec, one_sub_vecMulVec_mulVec,
    one_sub_vecMulVec_mulVec, smul_mulVec, vecMulVec_mulVec, op_smul_eq_smul, smul_smul, sub_smul]
  abel

/-- An updated matrix takes the one change to the other. -/
theorem bfgsUpdate_mulVec_self (curved : 0 < s ⬝ᵥ y) : bfgsUpdate H s y *ᵥ y = s := by
  have unit : 1 / (s ⬝ᵥ y) * (s ⬝ᵥ y) = 1 := one_div_mul_cancel curved.ne'
  rw [bfgsUpdate_mulVec]
  dsimp only
  rw [unit, one_smul, sub_self, mulVec_zero, dotProduct_zero, mul_zero, sub_zero, one_smul,
    zero_add]

/-- The quadratic form of an updated matrix is the one of the matrix before, at the
vector less its part along `y`, and a square. -/
theorem dotProduct_bfgsUpdate_mulVec (H : Matrix (Fin n) (Fin n) ℝ) (s y x : Fin n → ℝ) :
    x ⬝ᵥ (bfgsUpdate H s y *ᵥ x) =
      let rho := 1 / (s ⬝ᵥ y)
      let q := x - (rho * (s ⬝ᵥ x)) • y
      q ⬝ᵥ (H *ᵥ q) + rho * (s ⬝ᵥ x) ^ 2 := by
  rw [bfgsUpdate_mulVec]
  dsimp only
  rw [dotProduct_add, dotProduct_smul, sub_dotProduct, smul_dotProduct, smul_eq_mul, smul_eq_mul,
    dotProduct_comm x s]
  ring

/-- The transpose of a correction of rank one. -/
theorem transpose_one_sub_vecMulVec (rho : ℝ) (a b : Fin n → ℝ) :
    (1 - rho • vecMulVec a b)ᵀ = 1 - rho • vecMulVec b a := by
  rw [transpose_sub, transpose_one, transpose_smul, transpose_vecMulVec]

/-- An update along positive curvature keeps a matrix symmetric and positive
definite. -/
theorem posDef_bfgsUpdate (posDef : H.PosDef) (curved : 0 < s ⬝ᵥ y) :
    (bfgsUpdate H s y).PosDef := by
  have rho_pos : 0 < 1 / (s ⬝ᵥ y) := one_div_pos.mpr curved
  refine PosDef.of_dotProduct_mulVec_pos ?symmetric ?positive
  case symmetric =>
    have symmetric : Hᵀ = H := posDef.isHermitian
    show (bfgsUpdate H s y)ᵀ = bfgsUpdate H s y
    dsimp only [bfgsUpdate]
    rw [transpose_add, transpose_mul, transpose_mul, transpose_one_sub_vecMulVec,
      transpose_one_sub_vecMulVec, transpose_smul, transpose_vecMulVec, symmetric, Matrix.mul_assoc]
  case positive =>
    intro x nonzero
    rw [star_trivial, dotProduct_bfgsUpdate_mulVec]
    dsimp only
    by_cases along : s ⬝ᵥ x = 0
    · rw [along, mul_zero, zero_smul, sub_zero]
      have positive := posDef.dotProduct_mulVec_pos nonzero
      rw [star_trivial] at positive
      linarith
    · have nonneg := posDef.posSemidef.dotProduct_mulVec_nonneg
        (x - (1 / (s ⬝ᵥ y) * (s ⬝ᵥ x)) • y)
      rw [star_trivial] at nonneg
      have square := mul_pos rho_pos (sq_pos_of_ne_zero along)
      linarith

end Updates

/-! ## The matrix of a list of pairs -/

/-- The factor `s·y / y·y` of the newest pair, one if there is no pair. -/
noncomputable def initialFactor (pairs : List (CurvaturePair ℝ n)) : ℝ :=
  match pairs.getLast? with
  | none => 1
  | some newest => (newest.s.get ⬝ᵥ newest.y.get) / (newest.y.get ⬝ᵥ newest.y.get)

/-- The inverse estimate of a list of pairs, oldest first. -/
noncomputable def inverseMatrix (pairs : List (CurvaturePair ℝ n)) :
    Matrix (Fin n) (Fin n) ℝ :=
  pairs.foldl (fun H pair => bfgsUpdate H pair.s.get pair.y.get) (initialFactor pairs • 1)

/-- The curvature along the pair is positive, and the pair carries its reciprocal. -/
structure CurvaturePair.Curved (pair : CurvaturePair ℝ n) : Prop where
  positive : 0 < pair.s.get ⬝ᵥ pair.y.get
  rho_eq : pair.rho = 1 / (pair.s.get ⬝ᵥ pair.y.get)

/-- Along a pair of positive curvature the change of the residual does not vanish. -/
theorem CurvaturePair.Curved.change_pos {pair : CurvaturePair ℝ n} (curved : pair.Curved) :
    0 < pair.y.get ⬝ᵥ pair.y.get := by
  have nonzero : pair.y.get ≠ 0 := by
    intro zero
    have positive := curved.positive
    rw [zero, dotProduct_zero] at positive
    exact lt_irrefl _ positive
  have square := dotProduct_star_self_pos_iff.mpr nonzero
  rwa [star_trivial] at square

/-- A pair is admitted only if the curvature along it is positive, whatever its
changes, when the relative bound is not negative. -/
theorem Admissible.curved {tol : ℝ} (nonneg : 0 ≤ tol) {s y : Vector ℝ n}
    (admissible : Admissible tol s y) : (CurvaturePair.ofChanges s y).Curved := by
  have bound_nonneg : 0 ≤ tol * norm s * norm y :=
    mul_nonneg (mul_nonneg nonneg (Real.sqrt_nonneg _)) (Real.sqrt_nonneg _)
  have positive : 0 < dot s y := bound_nonneg.trans_lt (not_le.mp admissible.2)
  rw [dot_eq_dotProduct] at positive
  exact ⟨positive, congrArg (1 / ·) (dot_eq_dotProduct s y)⟩

section Pairs

variable {pairs : List (CurvaturePair ℝ n)}

theorem initialFactor_pos (curved : ∀ pair ∈ pairs, pair.Curved) : 0 < initialFactor pairs := by
  unfold initialFactor
  split
  · exact one_pos
  · rename_i newest last
    have newest_curved := curved newest (List.mem_of_getLast? last)
    exact div_pos newest_curved.positive newest_curved.change_pos

/-- The initial estimate multiplies by the factor of the newest pair. -/
theorem get_initialEstimate (curved : ∀ pair ∈ pairs, pair.Curved) (q : Vector ℝ n) :
    (initialEstimate pairs q).get = initialFactor pairs • q.get := by
  unfold initialEstimate initialFactor
  cases last : pairs.getLast? with
  | none => exact (one_smul ℝ _).symm
  | some newest =>
    have newest_curved := curved newest (List.mem_of_getLast? last)
    dsimp only
    rw [dot_eq_dotProduct, if_pos newest_curved.change_pos, get_map_mul, newest_curved.rho_eq,
      one_div_one_div]

/-- The recursion multiplies by the updated matrix if its initial estimate multiplies
by the matrix before the updates. -/
theorem get_twoLoop {initial : Vector ℝ n → Vector ℝ n} {H : Matrix (Fin n) (Fin n) ℝ}
    (start : ∀ q, (initial q).get = H *ᵥ q.get) {newestFirst : List (CurvaturePair ℝ n)}
    (curved : ∀ pair ∈ newestFirst, pair.Curved) (q : Vector ℝ n) :
    (twoLoop initial newestFirst q).get =
      newestFirst.foldr (fun pair H => bfgsUpdate H pair.s.get pair.y.get) H *ᵥ q.get := by
  induction newestFirst generalizing q with
  | nil => exact start q
  | cons newest older ih =>
    have newest_curved := curved newest List.mem_cons_self
    have before := ih fun pair member => curved pair (List.mem_cons_of_mem _ member)
    rw [List.foldr_cons, bfgsUpdate_mulVec]
    dsimp only [twoLoop]
    rw [get_add, get_smul, dot_eq_dotProduct, dot_eq_dotProduct, before, get_add, get_smul,
      newest_curved.rho_eq, neg_smul, ← sub_eq_add_neg]

/-- The recursion over a list of pairs multiplies by its matrix. -/
theorem get_inverseOf (curved : ∀ pair ∈ pairs, pair.Curved) (scale : ℝ) (v : Vector ℝ n) :
    (inverseOf pairs scale v).get = scale • (inverseMatrix pairs *ᵥ v.get) := by
  have start : ∀ q, (initialEstimate pairs q).get =
      (initialFactor pairs • (1 : Matrix (Fin n) (Fin n) ℝ)) *ᵥ q.get := by
    intro q
    rw [get_initialEstimate curved, smul_mulVec, one_mulVec]
  have curved_reverse : ∀ pair ∈ pairs.reverse, pair.Curved :=
    fun pair member => curved pair (List.mem_reverse.mp member)
  unfold inverseOf inverseMatrix
  rw [get_map_mul, get_twoLoop start curved_reverse, List.foldr_reverse]

/-- Every update is along positive curvature, from a positive multiple of the
identity. -/
theorem posDef_inverseMatrix (curved : ∀ pair ∈ pairs, pair.Curved) :
    (inverseMatrix pairs).PosDef := by
  have start : (initialFactor pairs • (1 : Matrix (Fin n) (Fin n) ℝ)).PosDef :=
    PosDef.one.smul (initialFactor_pos curved)
  unfold inverseMatrix
  generalize initialFactor pairs • (1 : Matrix (Fin n) (Fin n) ℝ) = H at start
  induction pairs generalizing H with
  | nil => exact start
  | cons oldest newer ih =>
    have oldest_curved := curved oldest List.mem_cons_self
    exact ih (fun pair member => curved pair (List.mem_cons_of_mem _ member)) _
      (posDef_bfgsUpdate start oldest_curved.positive)

/-- The last update makes the matrix take the newest change of the residual to the
change of the point. -/
theorem inverseMatrix_mulVec_newest {newest : CurvaturePair ℝ n} (curved : newest.Curved)
    (last : pairs.getLast? = some newest) : inverseMatrix pairs *ᵥ newest.y.get = newest.s.get := by
  obtain ⟨older, rfl⟩ := List.getLast?_eq_some_iff.mp last
  unfold inverseMatrix
  rw [List.foldl_append]
  exact bfgsUpdate_mulVec_self curved.positive

/-- The inverse estimate takes a multiple of the newest change of the residual to the same
multiple of the change of the point. -/
theorem inverseOf_hmul_newest (curved : ∀ pair ∈ pairs, pair.Curved) {newest : CurvaturePair ℝ n}
    (last : pairs.getLast? = some newest) (c : ℝ) :
    inverseOf pairs 1 (c * newest.y) = c * newest.s := by
  have taken := inverseMatrix_mulVec_newest (curved newest (List.mem_of_getLast? last)) last
  apply get_injective
  rw [get_inverseOf curved, one_smul, get_smul, get_smul, mulVec_smul, taken]

end Pairs

/-- A map of vectors that is linear, symmetric and positive definite. -/
structure PositiveOperator (op : Vector ℝ n → Vector ℝ n) : Prop where
  add : ∀ u v, op (u + v) = op u + op v
  smul : ∀ (c : ℝ) v, op (c * v) = c * op v
  symmetric : ∀ u v, dot u (op v) = dot v (op u)
  positive : ∀ v, v ≠ Vector.replicate n 0 → 0 < dot v (op v)

/-- Multiplication by a positive definite matrix. -/
theorem PositiveOperator.of_posDef {H : Matrix (Fin n) (Fin n) ℝ} (posDef : H.PosDef)
    {op : Vector ℝ n → Vector ℝ n} (product : ∀ v, (op v).get = H *ᵥ v.get) :
    PositiveOperator op where
  add u v := by
    apply get_injective
    rw [get_add, product, product, product, get_add, mulVec_add]
  smul c v := by
    apply get_injective
    rw [get_smul, product, product, get_smul, mulVec_smul]
  symmetric u v := by
    have symmetric : Hᵀ = H := posDef.isHermitian
    rw [dot_eq_dotProduct, dot_eq_dotProduct, product, product, dotProduct_mulVec,
      ← mulVec_transpose, symmetric, dotProduct_comm]
  positive v nonzero := by
    have nonzero : v.get ≠ 0 := by
      intro zero
      apply nonzero
      apply get_injective
      rw [zero]
      funext i
      exact (Vector.getElem_replicate _).symm
    have positive := posDef.dotProduct_mulVec_pos nonzero
    rw [star_trivial] at positive
    rwa [dot_eq_dotProduct, product]

/-! ## Applications of a store -/

/-- Two pairs of different directions, and between them an offer without a change. -/
noncomputable def crossedCalls : List (CurvatureCall ℝ 2) :=
  [.offer #v[1, 0] #v[1, 1], .offer #v[0, 0] #v[0, 0], .offer #v[1, 1] #v[0, 1]]

theorem recentPairs_crossedCalls :
    recentPairs 2 0 crossedCalls =
      [.ofChanges #v[1, 0] #v[1, 1], .ofChanges #v[1, 1] #v[0, 1]] := by
  have admissible_iff : ∀ s y : Vector ℝ 2,
      Admissible 0 s y ↔ (0 : ℝ) < s[0] * y[0] + s[1] * y[1] := by
    intro s y
    have value : dot s y = s[0] * y[0] + s[1] * y[1] := by
      rw [dot_eq_sum, Fin.sum_univ_two]
      rfl
    unfold Admissible
    rw [value, zero_mul, zero_mul, not_le]
    exact and_iff_right rfl
  norm_num [recentPairs, admittedPairs, crossedCalls, CurvatureCall.admitted?, admissible_iff,
    List.rtake, List.rtakeWhile, CurvatureCall.isClear, List.filterMap_cons]

namespace CurvatureStore

section Reached

variable (positive : 0 < depth) {tol : ℝ} (nonneg : 0 ≤ tol) (calls : List (CurvatureCall ℝ n))

include nonneg in
/-- Whatever was offered to a store, the pairs it holds are of positive curvature. -/
theorem curved_after :
    ∀ pair ∈ ((empty tol positive).after calls).memory.pairs.toList, pair.Curved := by
  intro pair member
  rw [toList_after] at member
  obtain ⟨s, y, admissible, rfl⟩ := mem_recentPairs tol calls member
  exact admissible.curved nonneg

include nonneg in
/-- **The two-loop recursion computes the inverse estimate.** After any calls, an
application multiplies by the matrix that the pairs held determine, and by `scale`. -/
theorem apply_eq_inverseMatrix (scale : ℝ) (v : Vector ℝ n) :
    (((empty tol positive).after calls).apply scale v).1.get =
        scale • (inverseMatrix ((empty tol positive).after calls).memory.pairs.toList *ᵥ v.get) ∧
      ((empty tol positive).after calls).memory.pairs.toList = recentPairs depth tol calls := by
  refine ⟨?_, toList_after positive tol calls⟩
  rw [apply_eq_inverseOf]
  exact get_inverseOf (curved_after positive nonneg calls) scale v

/-- A store with the two pairs, applied to a vector. -/
theorem apply_eq_inverseMatrix_crossed : 0 < 2 ∧ 0 ≤ (0 : ℝ) ∧
    (((empty 0 Nat.two_pos).after crossedCalls).apply 3 #v[1, 2]).1.get =
      (3 : ℝ) • (inverseMatrix [.ofChanges #v[1, 0] #v[1, 1], .ofChanges #v[1, 1] #v[0, 1]] *ᵥ
        #v[1, 2].get) := by
  refine ⟨Nat.two_pos, le_refl 0, ?_⟩
  obtain ⟨product, held⟩ :=
    apply_eq_inverseMatrix Nat.two_pos (le_refl 0) crossedCalls 3 #v[1, 2]
  rw [held, recentPairs_crossedCalls] at product
  exact product

include nonneg in
/-- **The inverse estimate stays positive definite.** After any calls, an application
is a linear, symmetric and positive definite map of vectors, and it takes the newest
change of the residual to the change of the point over it. -/
theorem apply_positiveDefinite :
    PositiveOperator (fun v => (((empty tol positive).after calls).apply 1 v).1) ∧
      (((empty tol positive).after calls).size ≠ 0 →
        ∃ newest, ((empty tol positive).after calls).memory.pairs.newest? = some newest ∧
          (((empty tol positive).after calls).apply 1 newest.y).1 = newest.s) := by
  have curved := curved_after positive nonneg calls
  generalize (empty tol positive).after calls = store at curved ⊢
  have product : ∀ v : Vector ℝ n,
      (store.apply 1 v).1.get = inverseMatrix store.memory.pairs.toList *ᵥ v.get := by
    intro v
    rw [apply_eq_inverseOf, get_inverseOf curved, one_smul]
  refine ⟨.of_posDef (posDef_inverseMatrix curved) product, ?_⟩
  intro occupied
  have nonempty : store.memory.pairs.toList ≠ [] := by
    intro none_held
    apply occupied
    rw [(shows_toList store).size, none_held, List.length_nil]
  have last := List.getLast?_eq_some_getLast nonempty
  refine ⟨_, (store.memory.pairs.newest?_eq).trans last, ?_⟩
  apply get_injective
  rw [product]
  exact inverseMatrix_mulVec_newest (curved _ (List.getLast_mem nonempty)) last

/-- A store with the two pairs takes the second change of the residual to the second
change of the point. -/
theorem apply_positiveDefinite_crossed : 0 < 2 ∧ 0 ≤ (0 : ℝ) ∧
    PositiveOperator (fun v : Vector ℝ 2 =>
      (((empty 0 Nat.two_pos).after crossedCalls).apply 1 v).1) ∧
    (((empty 0 Nat.two_pos).after crossedCalls).apply 1 #v[0, 1]).1 = #v[1, 1] := by
  obtain ⟨operator, secant⟩ := apply_positiveDefinite Nat.two_pos (le_refl 0) crossedCalls
  have held := (toList_after Nat.two_pos 0 crossedCalls).trans recentPairs_crossedCalls
  have occupied : ((empty 0 Nat.two_pos).after crossedCalls).size ≠ 0 := by
    rw [(shows_toList _).size, held]
    decide
  obtain ⟨newest, last, taken⟩ := secant occupied
  rw [RingBuffer.newest?_eq, held] at last
  obtain rfl := Option.some_inj.mp last
  exact ⟨Nat.two_pos, le_refl 0, operator, taken⟩

end Reached

end CurvatureStore

end ProximalNewton
