import ProximalNewton.Scalar

/-!
Vector reductions over a scalar: inner product and norms.

Every sum starts at zero and takes the terms in index order, so that its value
in a machine format is determined. Componentwise formulas need no definitions of
their own: `Vector` already carries `+`, `-` and scaling by a number from the
left.
-/

namespace ProximalNewton

variable {F : Type} [Scalar F] {n : Nat}

/-- Inner product, `((0 + a₀b₀) + a₁b₁) + …`. -/
def dot (a b : Vector F n) : F :=
  (a.zipWith (· * ·) b).foldl (· + ·) 0

/-- Squared Euclidean length. -/
def normSq (v : Vector F n) : F :=
  dot v v

/-- Euclidean length. -/
def norm (v : Vector F n) : F :=
  Scalar.sqrt (normSq v)

/-- Largest magnitude of a component; zero for the empty vector. Unordered
components are passed over. -/
def maxNorm (v : Vector F n) : F :=
  v.foldl (fun largest component => maxNum largest (Scalar.abs component)) 0

/-! ## Writing a vector component by component -/

/-- After `k` components are rewritten in their order, these are new and the others old. -/
theorem getElem_fold_set {α : Type} (new : (i : Nat) → i < n → α → α) {k : Nat} (le : k ≤ n)
    (v : Vector α n) (i : Nat) (inside : i < n) :
    (k.fold (fun j before w =>
      w.set j (new j (Nat.lt_of_lt_of_le before le) w[j])) v)[i] =
        if i < k then new i inside v[i] else v[i] := by
  induction k generalizing i with
  | zero => simp
  | succ k rewritten =>
    rw [Nat.fold_succ, Vector.getElem_set]
    have here : k < n := le
    by_cases same : k = i
    · subst same
      rw [if_pos rfl, if_pos (Nat.lt_succ_self k), rewritten (Nat.le_of_lt here) k here,
        if_neg (Nat.lt_irrefl k)]
    · rw [if_neg same, rewritten (Nat.le_of_lt here) i inside]
      have step : i < k + 1 ↔ i < k := by omega
      simp only [step]

/-- After every component is rewritten in its order, all are new. -/
theorem getElem_fold_set_all {α : Type} (new : (i : Nat) → i < n → α → α) (v : Vector α n)
    (i : Nat) (inside : i < n) :
    (n.fold (fun j before w => w.set j (new j before w[j])) v)[i] = new i inside v[i] := by
  rw [getElem_fold_set new (Nat.le_refl n), if_pos inside]

/-! ## Reading a reduction off the list of components -/

theorem dot_eq_foldl_toList (a b : Vector F n) :
    dot a b = (a.toList.zipWith (· * ·) b.toList).foldl (· + ·) 0 := by
  simp [dot, ← Vector.foldl_toList]

theorem maxNorm_eq_foldl_toList (v : Vector F n) :
    maxNorm v =
      v.toList.foldl (fun largest component => maxNum largest (Scalar.abs component)) 0 := by
  simp [maxNorm, ← Vector.foldl_toList]

end ProximalNewton
