import Mathlib.Analysis.Real.Sqrt
import ProximalNewton.Proofs.ScalarLaws

/-!
# Exact arithmetic

The real numbers as a scalar. Every value is a finite number, and the operations
are those of the field, so that a statement about a solve over `ℝ` is one about
the method without rounding.
-/

namespace ProximalNewton

/-- A unit step that was halved `k` times. -/
theorem repeat_half (k : Nat) : Nat.repeat (fun s : ℝ => s * 0.5) k 1 = 1 / 2 ^ k := by
  induction k with
  | zero => simp [Nat.repeat]
  | succ k ih =>
    rw [Nat.repeat, ih, pow_succ]
    norm_num
    ring

/-- Halving a unit step more than `1 / t` times brings it below `t`. -/
theorem halving_real {t : ℝ} (positive : 0 < t) :
    Nat.repeat (fun s : ℝ => s * 0.5) (⌈1 / t⌉₊ + 1) 1 < t := by
  rw [repeat_half, one_div_lt (by positivity) positive]
  calc
    1 / t ≤ (⌈1 / t⌉₊ : ℝ) := Nat.le_ceil _
    _ < 2 ^ ⌈1 / t⌉₊ := by exact_mod_cast Nat.lt_two_pow_self
    _ ≤ 2 ^ (⌈1 / t⌉₊ + 1) := pow_le_pow_right₀ one_le_two (Nat.le_succ _)

noncomputable instance realScalar : Scalar ℝ where
  decLE := inferInstance
  decLT := inferInstance
  abs a := |a|
  sqrt := Real.sqrt
  isNaN _ := false
  isFinite _ := true
  halvings t := ⌈1 / t⌉₊
  halving_lt _ := halving_real

instance lawfulReal : LawfulScalar ℝ where
  ordered_of_le _ := ⟨rfl, rfl⟩
  le_total _ _ := le_total _ _
  le_trans := le_trans
  lt_iff := lt_iff_le_not_ge
  ordered_zero := rfl
  isNaN_abs _ := rfl
  isNaN_add_right := nofun
  isNaN_sub_right := nofun
  isNaN_mul_right := nofun

end ProximalNewton
