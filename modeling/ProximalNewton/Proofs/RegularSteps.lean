import ProximalNewton.Proofs.MachineArithmetic
import ProximalNewton.StepSize

/-!
# Step sizes in a machine format

A step size is made from an estimate `L` by a rounded quotient, `γ ≈ 0.95/L`, and then
changed only by doubling `L` and halving `γ` and `σ`. Each of these can round, overflow or
underflow. `StepSize.Regular` is what is left in every case: `L` is above zero, finite or
not, and unless `γ` has overflowed, `γ` and `σ` are finite and `γ` is not too small for
`L`. That last part is stated with powers of two (`Reciprocal`), which survive the rounding
of small numbers, where a relative error would not.

* `StepSize.regular_ofLipschitz`, `StepSize.Regular.halved`: it holds of a new step size
  and is kept by halving.
* `StepSize.Regular.usable_iff`: a regular step size whose `L` and `γ` are finite can be
  used: both are above zero, and `σ` is finite and not below zero.
-/

namespace ProximalNewton

open Float.Model (Format)
open BinaryScalar

/-! ## Quotients -/

section Quotients

variable {format : Format} {v g c : ℚ}

/-- Between `31/32 · 1/v` and `1/v` there is a number of six bits. -/
theorem exists_onGrid_below_inverse (format : Format) (wide : 8 ≤ format.mantissaBits)
    (positive : 0 < v) (below : v < overflowBound format) :
    ∃ w, OnGrid format w ∧ 31 / 32 / v ≤ w ∧ w * v ≤ 1 := by
  have inverse_pos : 0 < 1 / v := one_div_pos.mpr positive
  have log_ge : -((2 ^ (format.exponentBits - 1) : ℕ) : ℤ) ≤ Int.log 2 (1 / v) := by
    rw [← Int.zpow_le_iff_le_log Nat.one_lt_two inverse_pos, Nat.cast_ofNat, zpow_neg,
      zpow_natCast, ← one_div]
    exact one_div_le_one_div_of_le positive below.le
  have above : 32 ≤ 1 / v / 2 ^ (Int.log 2 (1 / v) - 5) := by
    rw [le_div_two_zpow_iff]
    calc (32 : ℚ) * 2 ^ (Int.log 2 (1 / v) - 5)
        = 2 ^ ((5 : ℤ) + (Int.log 2 (1 / v) - 5)) := by
          rw [two_zpow_add]
          norm_num
      _ = 2 ^ Int.log 2 (1 / v) := by rw [add_sub_cancel]
      _ ≤ 1 / v := two_zpow_log_le inverse_pos
  have under : 1 / v / 2 ^ (Int.log 2 (1 / v) - 5) < 64 := by
    rw [div_lt_iff₀ (two_zpow_pos _)]
    calc 1 / v < 2 ^ (Int.log 2 (1 / v) + 1) := lt_two_zpow_log _
      _ = 2 ^ ((6 : ℤ) + (Int.log 2 (1 / v) - 5)) := by
          congr 1
          ring
      _ = 64 * 2 ^ (Int.log 2 (1 / v) - 5) := by
          rw [two_zpow_add]
          norm_num
  have low : format.minExponent ≤ Int.log 2 (1 / v) - 5 := by
    rw [minExponent_eq]
    omega
  generalize Int.log 2 (1 / v) - 5 = place at above under low
  generalize scaled_eq : 1 / v / 2 ^ place = scaled at above under
  have scaled_nonneg : 0 ≤ scaled := by linarith
  have inverse_eq : 1 / v = scaled * 2 ^ place := by
    rw [← scaled_eq, div_mul_cancel₀ _ (two_zpow_pos place).ne']
  have floor_le : (⌊scaled⌋₊ : ℚ) ≤ scaled := Nat.floor_le scaled_nonneg
  have lt_floor : scaled < ⌊scaled⌋₊ + 1 := Nat.lt_floor_add_one scaled
  refine ⟨⌊scaled⌋₊ * 2 ^ place, ⟨_, _, ?fits, low, rfl⟩, ?_, ?_⟩
  case fits =>
    have bits : ⌊scaled⌋₊ < 64 := by
      rw [Nat.floor_lt scaled_nonneg]
      exact_mod_cast under
    calc ⌊scaled⌋₊ < 2 ^ 6 := bits
      _ ≤ 2 ^ format.mantissaBits := Nat.pow_le_pow_right two_pos (by omega)
  · calc 31 / 32 / v = 31 / 32 * scaled * 2 ^ place := by
          rw [mul_assoc, ← inverse_eq, mul_one_div]
      _ ≤ ⌊scaled⌋₊ * 2 ^ place :=
        mul_le_mul_of_nonneg_right (by linarith) (two_zpow_pos place).le
  · calc ⌊scaled⌋₊ * 2 ^ place * v ≤ scaled * 2 ^ place * v :=
          mul_le_mul_of_nonneg_right
            (mul_le_mul_of_nonneg_right floor_le (two_zpow_pos place).le) positive.le
      _ = 1 := by rw [← inverse_eq, one_div_mul_cancel positive.ne']

/-- The powers of two around the inverses of the finite numbers are numbers of the
format. -/
theorem onGrid_two_zpow (wide : 8 ≤ format.mantissaBits) {j : ℤ}
    (range : j ≤ (2 ^ (format.exponentBits - 1) : ℕ)) : OnGrid format (2 ^ (-j - 1)) := by
  refine ⟨1, -j - 1, ?_, ?_, by simp⟩
  · exact Nat.one_lt_two_pow (by omega)
  · rw [minExponent_eq]
    omega

theorem OnGrid.mul_two (grid : OnGrid format v) : OnGrid format (v * 2) := by
  rcases grid with ⟨k, e, fits, low, rfl⟩
  refine ⟨k, e + 1, fits, by omega, ?_⟩
  rw [two_zpow_add, zpow_one, mul_assoc]

/-- Of two numbers the second is at least half of what the first one divides one into, as
far as powers of two can tell. -/
def Reciprocal (format : Format) (v g : ℚ) : Prop :=
  ∀ j : ℤ, j ≤ (2 ^ (format.exponentBits - 1) : ℕ) → v < 2 ^ j → 2 ^ (-j - 1) ≤ g

theorem reciprocal_nearest_div (format : Format) (wide : 8 ≤ format.mantissaBits)
    (positive : 0 < v) (half_le : 1 / 2 ≤ c) :
    Reciprocal format v (nearest format (c / v)) := by
  intro j range below
  refine le_nearest (two_zpow_pos _).le (onGrid_two_zpow wide range) ?_
  rw [le_div_iff₀ positive]
  calc (2 : ℚ) ^ (-j - 1) * v ≤ 2 ^ (-j - 1) * 2 ^ j :=
        mul_le_mul_of_nonneg_left below.le (two_zpow_pos _).le
    _ = 1 / 2 := by
        rw [← two_zpow_add, show -j - 1 + j = -1 by ring]
        norm_num
    _ ≤ c := half_le

theorem Reciprocal.halved (wide : 8 ≤ format.mantissaBits) (reciprocal : Reciprocal format v g) :
    Reciprocal format (v * 2) (nearest format (g / 2)) := by
  intro j range below
  refine le_nearest (two_zpow_pos _).le (onGrid_two_zpow wide range) ?_
  have before := reciprocal (j - 1) (by omega) (by
    rw [zpow_sub_one₀ two_ne_zero]
    linarith)
  rw [le_div_iff₀ two_pos]
  calc (2 : ℚ) ^ (-j - 1) * 2 = 2 ^ (-(j - 1) - 1) := by
        rw [← zpow_add_one₀ two_ne_zero]
        congr 1
        ring
    _ ≤ g := before

theorem Reciprocal.pos (reciprocal : Reciprocal format v g) (below : v < overflowBound format) :
    0 < g := by
  refine (two_zpow_pos _).trans_le (reciprocal (2 ^ (format.exponentBits - 1) : ℕ) le_rfl ?_)
  rwa [zpow_natCast]

end Quotients

/-! ## Step sizes in a machine format -/

section Halving

variable {F : Type} [Scalar F] [BinaryScalar F] {a : F} {v : ℚ}

theorem two_represents : Represents (1 + 1 : F) 2 :=
  two_value

/-- Half of a finite number is finite. -/
theorem BinaryScalar.Represents.halved (value : Represents a v) :
    Represents (a / (1 + 1)) (nearest (format F) (v / 2)) := by
  have nonneg : 0 ≤ v / 2 := div_nonneg value.nonneg zero_le_two
  have half_le : v / 2 ≤ v := half_le_self value.nonneg
  exact ((value.div two_represents two_ne_zero).of_le nonneg value half_le).1

/-- A finite number is doubled exactly or overflows. -/
theorem BinaryScalar.Represents.doubled (value : Represents a v) :
    Represents (a * (1 + 1)) (v * 2) ∨ Overflows (a * (1 + 1)) := by
  have twice := value.mul two_represents
  rcases twice.cases with ⟨finite, -⟩ | overflows
  · rw [nearest_of_onGrid value.onGrid.mul_two] at finite
    exact Or.inl finite
  · exact Or.inr overflows

/-- A maximum of a finite number and a finite number above zero is of the latter kind. -/
theorem BinaryScalar.Represents.maxNum {floor : F} {w : ℚ}
    (finite : Scalar.isFinite a = true) (positive : 0 < w) (value : Represents floor w) :
    ∃ v, w ≤ v ∧ Represents (maxNum a floor) v := by
  have floor_pos : 0 < floor := (represents_zero.lt_iff value).mpr positive
  have ordered : Scalar.isNaN floor = false := (LawfulScalar.ordered_of_lt floor_pos).2
  unfold ProximalNewton.maxNum
  split_ifs with unordered known below
  · exact ⟨w, le_rfl, value⟩
  · exact absurd (ordered.symm.trans known) Bool.false_ne_true
  · exact ⟨w, le_rfl, value⟩
  · rw [Bool.not_eq_true] at unordered
    have above : floor ≤ a := LawfulScalar.le_of_not_lt unordered ordered below
    have a_pos : 0 < a := LawfulScalar.lt_of_lt_of_le floor_pos above
    obtain ⟨v, -, a_value⟩ := exists_represents a_pos finite
    exact ⟨v, (value.le_iff a_value).mp above, a_value⟩

end Halving

namespace StepSize

variable {F : Type} [Scalar F]

/-- Fit to be computed with: the estimate and the step are finite and above zero, the
search constant is finite and not below zero. -/
structure Usable (step : StepSize F) : Prop where
  lipschitz : IsPositive step.lipschitz
  gamma : IsPositive step.gamma
  sigma : Scalar.isFinite step.sigma = true ∧ 0 ≤ step.sigma

instance Usable.decidable (step : StepSize F) : Decidable step.Usable :=
  decidable_of_iff
    ((IsPositive step.lipschitz ∧ IsPositive step.gamma) ∧
      Scalar.isFinite step.sigma = true ∧ 0 ≤ step.sigma)
    ⟨fun ⟨⟨lipschitz, gamma⟩, sigma⟩ => ⟨lipschitz, gamma, sigma⟩,
      fun usable => ⟨⟨usable.lipschitz, usable.gamma⟩, usable.sigma⟩⟩

variable [BinaryScalar F]

/-- The proximal step and the search constant are finite, and the proximal step is not
too small for the estimate. -/
def Settled (step : StepSize F) : Prop :=
  ∃ g s, Represents step.gamma g ∧ Represents step.sigma s ∧
    ∀ v, Represents step.lipschitz v → Reciprocal (format F) v g

/-- What is true of a step size that was made from a finite estimate and has been halved
since. -/
structure Regular (step : StepSize F) : Prop where
  lipschitz : (∃ v, 0 < v ∧ Represents step.lipschitz v) ∨ Overflows step.lipschitz
  gamma : step.Settled ∨ Overflows step.gamma

variable {step : StepSize F} {lipschitz : F} {v : ℚ}

theorem regular_ofLipschitz (positive : 0 < v) (value : Represents lipschitz v) :
    (ofLipschitz lipschitz).Regular := by
  refine ⟨Or.inl ⟨v, positive, value⟩, ?_⟩
  obtain ⟨c, near_one, half_le, c_le⟩ := near_one_value (F := F)
  have quotient : RoundsTo (ofLipschitz lipschitz).gamma (c / v) :=
    Represents.div near_one value positive.ne'
  rcases quotient.cases with ⟨gamma, below⟩ | overflows
  · left
    -- six bits are room enough for a bound on the rounded quotient
    obtain ⟨w, grid, quotient_le, product_le⟩ :=
      exists_onGrid_below_inverse (format F) wide_mantissa positive value.lt_overflowBound
    have quotient_nonneg : 0 ≤ c / v := div_nonneg (by linarith) positive.le
    have gamma_le : nearest (format F) (c / v) ≤ w :=
      nearest_le quotient_nonneg grid
        ((div_le_div_of_nonneg_right c_le positive.le).trans quotient_le)
    have reciprocal := reciprocal_nearest_div (format F) wide_mantissa positive half_le
    generalize nearest (format F) (c / v) = g at gamma gamma_le reciprocal
    have one : Represents (1 : F) 1 := one_value
    have half : Represents (0.5 : F) (1 / 2) := half_value
    obtain ⟨product, product_le_one⟩ := (gamma.mul value).of_le
      (mul_nonneg gamma.nonneg positive.le) one
      ((mul_le_mul_of_nonneg_right gamma_le positive.le).trans product_le)
    obtain ⟨rest, rest_le_one⟩ := (one.sub product product_le_one).of_le
      (sub_nonneg.mpr product_le_one) one (sub_le_self 1 product.nonneg)
    obtain ⟨scaled, scaled_le⟩ := (gamma.mul rest).of_le
      (mul_nonneg gamma.nonneg rest.nonneg) gamma (mul_le_of_le_one_right gamma.nonneg rest_le_one)
    obtain ⟨sigma, -⟩ := (scaled.mul half).of_le
      (mul_nonneg scaled.nonneg half.nonneg) scaled
      (mul_le_of_le_one_right scaled.nonneg (by norm_num))
    refine ⟨g, _, gamma, sigma, ?_⟩
    intro v' value'
    rwa [value'.unique value]
  · exact Or.inr overflows

theorem Settled.halved (regular : step.Regular) (settled : step.Settled) :
    step.halved.Settled := by
  rcases settled with ⟨g, s, gamma, sigma, reciprocal⟩
  refine ⟨_, _, gamma.halved, sigma.halved, ?_⟩
  intro v' value'
  rcases regular.lipschitz with ⟨v, positive, value⟩ | overflows
  · rcases value.doubled with doubled | overflows
    · rw [value'.unique doubled]
      exact (reciprocal v value).halved wide_mantissa
    · exact absurd overflows value'.not_overflows
  · exact absurd (overflows.mul two_represents two_pos) value'.not_overflows

theorem Regular.halved (regular : step.Regular) : step.halved.Regular := by
  constructor
  · rcases regular.lipschitz with ⟨v, positive, value⟩ | overflows
    · rcases value.doubled with doubled | overflows
      · exact Or.inl ⟨v * 2, mul_pos positive two_pos, doubled⟩
      · exact Or.inr overflows
    · exact Or.inr (overflows.mul two_represents two_pos)
  · rcases regular.gamma with settled | overflows
    · exact Or.inl (settled.halved regular)
    · exact Or.inr (overflows.div two_represents two_pos)

/-- A regular step size is usable as soon as its estimate and its proximal step are
finite. -/
theorem Regular.usable_iff (regular : step.Regular) :
    step.Usable ↔ Scalar.isFinite step.lipschitz = true ∧ Scalar.isFinite step.gamma = true := by
  constructor
  · intro usable
    exact ⟨usable.lipschitz.2, usable.gamma.2⟩
  · intro finite
    rcases regular.lipschitz with ⟨v, positive, value⟩ | overflows
    · rcases regular.gamma with ⟨g, s, gamma, sigma, reciprocal⟩ | overflows
      · have gamma_pos := (reciprocal v value).pos value.lt_overflowBound
        exact
          { lipschitz := ⟨(represents_zero.lt_iff value).mpr positive, value.isFinite⟩
            gamma := ⟨(represents_zero.lt_iff gamma).mpr gamma_pos, gamma.isFinite⟩
            sigma := ⟨sigma.isFinite, (represents_zero.le_iff sigma).mpr sigma.nonneg⟩ }
      · exact absurd (overflows.isFinite_eq_false.symm.trans finite.2) Bool.false_ne_true
    · exact absurd (overflows.isFinite_eq_false.symm.trans finite.1) Bool.false_ne_true

theorem Regular.lipschitz_pos (regular : step.Regular) : 0 < step.lipschitz := by
  rcases regular.lipschitz with ⟨v, positive, value⟩ | overflows
  · exact (represents_zero.lt_iff value).mpr positive
  · exact overflows.pos

/-- Halving keeps a finite proximal step finite. -/
theorem Regular.isFinite_halved_gamma (regular : step.Regular)
    (finite : Scalar.isFinite step.gamma = true) : Scalar.isFinite step.halved.gamma = true := by
  rcases regular.gamma with ⟨g, s, gamma, -⟩ | overflows
  · exact gamma.halved.isFinite
  · exact absurd (overflows.isFinite_eq_false.symm.trans finite) Bool.false_ne_true

/-- The proximal step of a larger estimate is finite if that of a smaller one is. -/
theorem isFinite_gamma_mono {floor : F} {w : ℚ} (positive : 0 < w)
    (floor_value : Represents floor w) (value : Represents lipschitz v) (le : w ≤ v)
    (finite : Scalar.isFinite (0.95 / floor : F) = true) :
    Scalar.isFinite (ofLipschitz lipschitz).gamma = true := by
  obtain ⟨c, near_one, half_le, c_le⟩ := near_one_value (F := F)
  have longest : RoundsTo (0.95 / floor : F) (c / w) :=
    Represents.div near_one floor_value positive.ne'
  have step : RoundsTo (ofLipschitz lipschitz).gamma (c / v) :=
    Represents.div near_one value (positive.trans_le le).ne'
  have c_nonneg : 0 ≤ c := by linarith
  rcases longest.cases with ⟨-, below⟩ | overflows
  · have shorter : nearest (format F) (c / v) ≤ nearest (format F) (c / w) :=
      nearest_mono (div_nonneg c_nonneg (positive.trans_le le).le)
        (div_le_div_of_nonneg_left c_nonneg positive le)
    exact (step.1 (shorter.trans_lt below)).isFinite
  · exact absurd (overflows.isFinite_eq_false.symm.trans finite) Bool.false_ne_true

end StepSize

end ProximalNewton
