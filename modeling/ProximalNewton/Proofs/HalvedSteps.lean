import Mathlib.Analysis.SpecialFunctions.Log.Base
import ProximalNewton.Proofs.MachineNorms
import ProximalNewton.Proofs.RealScalar

/-!
# Halving a unit step

A search halves its step from one on. In exact arithmetic the step is a power of two, and
in a machine format as well, until it is too small for the format and becomes zero. Either
way a step that is not below a positive bound is an exact power of two, so that the bound
limits how often the step has been halved.

`MeasuredScalar` collects what this rests on. The real numbers are an instance, and so is
every machine format.

* `nearest_half_minimum`: half of the smallest positive number of a format rounds to zero.
* `Permits.measured`: the steps down to a bound are powers of two that are not below it,
  and there are at most `1 + ⌊log₂ (1 / bound)⌋` of them.
-/

namespace ProximalNewton

open Float.Model (Format)
open Float.Model.UnpackedFloat

variable {F : Type} [Scalar F]

/-- A unit step that was halved `k` times. -/
def halved (k : Nat) : F :=
  Nat.repeat (fun s => s * 0.5) k 1

theorem halved_zero : (halved 0 : F) = 1 := rfl

theorem halved_succ (k : Nat) : (halved (k + 1) : F) = halved k * 0.5 := rfl

/-- None of the first `k` halvings of a unit step falls below the bound. -/
def Permits (bound : F) (k : Nat) : Prop :=
  ∀ j < k, ¬ halved (j + 1) < bound

theorem permits_zero (bound : F) : Permits bound 0 :=
  fun _ inside => absurd inside (Nat.not_lt_zero _)

theorem Permits.succ {bound : F} {k : Nat} (permitted : Permits bound k)
    (next : ¬ halved (k + 1) < bound) : Permits bound (k + 1) := by
  intro j inside
  rcases Nat.lt_succ_iff_lt_or_eq.mp inside with earlier | rfl
  · exact permitted j earlier
  · exact next

/-! ## Scalars with a measure -/

/-- A scalar whose numbers between zero and one are worth a real number, in their order, and
whose halved unit steps are worth powers of two until they are worth nothing. -/
class MeasuredScalar (F : Type) [Scalar F] where
  /-- The number is worth this. -/
  Worth : F → ℝ → Prop
  exists_worth : ∀ {a : F}, 0 < a → a < 1 → ∃ v, 0 < v ∧ Worth a v
  lt_iff : ∀ {a b : F} {v w : ℝ}, Worth a v → Worth b w → (a < b ↔ v < w)
  le_iff : ∀ {a b : F} {v w : ℝ}, Worth a v → Worth b w → (a ≤ b ↔ v ≤ w)
  worth_one : Worth 1 1
  worth_halved : ∀ k, Worth (halved k) (1 / 2 ^ k) ∨ Worth (halved k) 0

namespace MeasuredScalar

variable [MeasuredScalar F] {bound : F} {k : Nat} {v : ℝ}

/-- A step that is not below a positive bound is a power of two. -/
theorem worth_halved_of_not_lt (positive : 0 < v) (worth : Worth bound v)
    (above : ¬ halved k < bound) :
    Worth (halved k : F) (1 / 2 ^ k) ∧ bound ≤ halved k ∧ v ≤ 1 / 2 ^ k := by
  rcases worth_halved (F := F) k with power | zero
  · have le : v ≤ 1 / 2 ^ k := by
      rw [lt_iff power worth] at above
      exact not_lt.mp above
    exact ⟨power, (le_iff worth power).mpr le, le⟩
  · exact absurd ((lt_iff zero worth).mpr positive) above

end MeasuredScalar

open MeasuredScalar

/-- The steps down to a bound between zero and one are powers of two that are not below it,
and there are at most `1 + ⌊log₂ (1 / bound)⌋` of them. -/
theorem Permits.measured [MeasuredScalar F] {bound : F} {k : Nat} (positive : 0 < bound)
    (below_one : bound < 1) (permitted : Permits bound k) :
    ∃ v : ℝ, 0 < v ∧ Worth bound v ∧ k + 1 ≤ 1 + ⌊Real.logb 2 (1 / v)⌋₊ ∧
      ∀ j ≤ k, Worth (halved j : F) (1 / 2 ^ j) ∧ bound ≤ halved j := by
  obtain ⟨v, v_pos, worth⟩ := exists_worth positive below_one
  have above : ∀ j ≤ k, ¬ halved j < bound := by
    intro j inside
    cases j with
    | zero =>
      rw [halved_zero, lt_iff worth_one worth]
      exact ((lt_iff worth worth_one).mp below_one).not_gt
    | succ j => exact permitted j inside
  have measured := fun j inside => worth_halved_of_not_lt v_pos worth (above j inside)
  refine ⟨v, v_pos, worth, ?_, fun j inside => ⟨(measured j inside).1, (measured j inside).2.1⟩⟩
  have power_le : (2 : ℝ) ^ k ≤ 1 / v :=
    (le_one_div (pow_pos two_pos k) v_pos).mpr (measured k le_rfl).2.2
  have log_ge : (k : ℝ) ≤ Real.logb 2 (1 / v) := by
    rw [Real.le_logb_iff_rpow_le one_lt_two (one_div_pos.mpr v_pos), Real.rpow_natCast]
    exact power_le
  have floor_ge := Nat.le_floor log_ge
  omega

/-! ## The real numbers -/

/-- A halved unit step in exact arithmetic, where the second case does not occur. -/
theorem halved_real (k : Nat) : (halved k : ℝ) = 1 / 2 ^ k ∨ (halved k : ℝ) = 0 :=
  Or.inl (repeat_half k)

instance MeasuredScalar.real : MeasuredScalar ℝ where
  Worth a v := a = v
  exists_worth positive _ := ⟨_, positive, rfl⟩
  lt_iff left right := by rw [left, right]
  le_iff left right := by rw [left, right]
  worth_one := rfl
  worth_halved := halved_real

/-! ## Machine formats -/

section Rounding

variable {format : Format}

/-- A power of two is a number of the format exactly when its exponent is not too low. -/
theorem onGrid_two_zpow_iff {e : ℤ} : OnGrid format (2 ^ e) ↔ format.minExponent ≤ e := by
  constructor
  · rintro ⟨k, e', -, low, value⟩
    have nonzero : k ≠ 0 := by
      rintro rfl
      rw [Nat.cast_zero, zero_mul] at value
      exact (two_zpow_pos e).ne' value
    have one_le : (1 : ℚ) ≤ k := Nat.one_le_cast.mpr (Nat.one_le_iff_ne_zero.mpr nonzero)
    have le : (2 : ℚ) ^ e' ≤ 2 ^ e := by
      rw [value]
      exact le_mul_of_one_le_left (two_zpow_pos e').le one_le
    exact low.trans ((zpow_le_zpow_iff_right₀ one_lt_two).mp le)
  · intro low
    refine ⟨1, e, Nat.one_lt_two_pow ?_, low, by simp⟩
    simp [Format.mantissaBits]

/-- Half of the smallest positive number of a format rounds to zero, which is even. -/
theorem nearest_half_minimum (format : Format) :
    nearest format (2 ^ (format.minExponent - 1)) = 0 := by
  have log_eq : Int.log 2 ((2 : ℚ) ^ (format.minExponent - 1)) = format.minExponent - 1 := by
    exact_mod_cast Int.log_zpow (R := ℚ) (b := 2) Nat.one_lt_two (format.minExponent - 1)
  have place : lastPlace format (2 ^ (format.minExponent - 1)) = format.minExponent := by
    unfold lastPlace Format.targetExponent
    rw [log_eq]
    omega
  have half : (2 : ℚ) ^ (format.minExponent - 1) / 2 ^ format.minExponent = 1 / 2 := by
    rw [← zpow_sub₀ two_ne_zero, sub_sub_cancel_left]
    norm_num
  have kept : nearestEven (1 / 2) = 0 := by
    unfold nearestEven
    norm_num
  unfold nearest keptMantissa
  rw [place, half, kept, Int.cast_zero, zero_mul]

end Rounding

section Machine

open BinaryScalar

variable {F : Type} [Scalar F] [BinaryScalar F]

/-- An infinite number is below no other. -/
theorem BinaryScalar.Overflows.not_lt {a : F} (overflows : Overflows a) (b : F) : ¬ a < b := by
  have top : NoneAbove (unpack (format F) (bits a)) := by
    rw [overflows]
    trivial
  rw [lt_eq, not_lt_of_noneAbove top]
  exact Bool.false_ne_true

/-- Half of a number that is at most one. -/
theorem BinaryScalar.Represents.mul_half {a : F} {v : ℚ} (value : Represents a v)
    (le_one : v ≤ 1) : Represents (a * 0.5) (nearest (format F) (v * (1 / 2))) := by
  have one : Represents (1 : F) 1 := one_value
  have half : Represents (0.5 : F) (1 / 2) := half_value
  have nonneg : 0 ≤ v * (1 / 2) := mul_nonneg value.nonneg (by norm_num)
  exact ((value.mul half).of_le nonneg one (by linarith)).1

/-- A halved unit step is a power of two, or zero. -/
theorem represents_halved (k : Nat) :
    Represents (halved k : F) (2 ^ (-(k : ℤ))) ∨ Represents (halved k : F) 0 := by
  induction k with
  | zero =>
    refine Or.inl ?_
    have one : Represents (1 : F) 1 := one_value
    simpa [halved_zero] using one
  | succ k ih =>
    rw [halved_succ]
    rcases ih with power | zero
    · have low : (format F).minExponent ≤ -k := onGrid_two_zpow_iff.mp power.onGrid
      have le_one : (2 : ℚ) ^ (-(k : ℤ)) ≤ 1 := zpow_le_one_of_nonpos₀ one_le_two (by omega)
      have half := power.mul_half le_one
      have exponent : (2 : ℚ) ^ (-(k : ℤ)) * (1 / 2) = 2 ^ (-(k : ℤ) - 1) := by
        rw [zpow_sub_one₀ two_ne_zero, one_div]
      rw [exponent] at half
      rcases low.eq_or_lt with lowest | above
      · rw [← lowest, nearest_half_minimum] at half
        exact Or.inr half
      · rw [nearest_of_onGrid (onGrid_two_zpow_iff.mpr (by omega))] at half
        refine Or.inl ?_
        rwa [show -((k + 1 : ℕ) : ℤ) = -k - 1 by push_cast; ring]
    · have half := zero.mul_half zero_le_one
      rw [zero_mul, nearest_zero] at half
      exact Or.inr half

/-- A halved unit step is worth a power of two or nothing. -/
theorem halved_machine (k : Nat) :
    (∃ value : ℚ, Represents (halved k : F) value ∧ value = (1 / 2 ^ k : ℝ)) ∨
      ∃ value : ℚ, Represents (halved k : F) value ∧ value = (0 : ℝ) := by
  rcases represents_halved (F := F) k with power | zero
  · refine Or.inl ⟨_, power, ?_⟩
    push_cast
    rw [zpow_neg, zpow_natCast, one_div]
  · exact Or.inr ⟨0, zero, Rat.cast_zero⟩

instance MeasuredScalar.machine : MeasuredScalar F where
  Worth a v := ∃ value : ℚ, Represents a value ∧ value = v
  exists_worth {a} positive below_one := by
    rcases nonneg_iff.mp (LawfulScalar.le_of_lt positive) with ⟨v, value⟩ | overflows
    · exact ⟨v, Rat.cast_pos.mpr ((represents_zero.lt_iff value).mp positive), v, value, rfl⟩
    · exact absurd below_one (overflows.not_lt 1)
  lt_iff := by
    rintro a b _ _ ⟨v, left, rfl⟩ ⟨w, right, rfl⟩
    rw [left.lt_iff right, Rat.cast_lt]
  le_iff := by
    rintro a b _ _ ⟨v, left, rfl⟩ ⟨w, right, rfl⟩
    rw [left.le_iff right, Rat.cast_le]
  worth_one := ⟨1, one_value, Rat.cast_one⟩
  worth_halved := halved_machine

end Machine

end ProximalNewton
