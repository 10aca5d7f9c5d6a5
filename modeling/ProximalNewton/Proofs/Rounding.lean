import Mathlib

/-!
# Rounding to a binary format

A binary format holds the numbers `k · 2ᵉ` whose mantissa `k` fits its width and whose
exponent is not below its least one. Here the exponents have no upper end: what is too
large for a format is left to the packing of a result.

`nearest` takes a number that is not negative to the nearest number of the format, and to
the one of even mantissa from the middle between two. It is monotone (`nearest_mono`) and
leaves the numbers of the format alone (`nearest_of_onGrid`), so that a bound by a number
of the format passes from a result to its rounding and nothing else about rounding has to
be known to use it.
-/

namespace ProximalNewton

open Float.Model

/-! ## Integers -/

/-- The nearest integer, and the even one from the middle between two. -/
def nearestEven (x : ℚ) : ℤ :=
  if Int.fract x < 1 / 2 then ⌊x⌋
  else if 1 / 2 < Int.fract x then ⌊x⌋ + 1
  else ⌊x⌋ + ⌊x⌋ % 2

theorem floor_le_nearestEven (x : ℚ) : ⌊x⌋ ≤ nearestEven x := by
  unfold nearestEven
  split_ifs <;> omega

theorem nearestEven_le_floor_add_one (x : ℚ) : nearestEven x ≤ ⌊x⌋ + 1 := by
  unfold nearestEven
  split_ifs <;> omega

@[simp]
theorem nearestEven_intCast (k : ℤ) : nearestEven k = k := by
  simp [nearestEven]

theorem nearestEven_mono : Monotone nearestEven := by
  intro x y le
  rcases (Int.floor_mono le).lt_or_eq with below | same
  · calc nearestEven x ≤ ⌊x⌋ + 1 := nearestEven_le_floor_add_one x
      _ ≤ ⌊y⌋ := below
      _ ≤ nearestEven y := floor_le_nearestEven y
  · -- between two integers the fractional parts decide
    have fract_le : Int.fract x ≤ Int.fract y := by
      unfold Int.fract
      rw [same]
      linarith
    unfold nearestEven
    rw [same]
    split_ifs <;> first | omega | linarith

/-! ## Places -/

theorem two_pow_mantissaBits (format : Format) :
    2 ^ format.mantissaBits = 2 * 2 ^ format.mantissaBitsWithoutImplicit := by
  rw [Format.mantissaBits, pow_add, pow_one]

theorem minExponent_eq (format : Format) :
    format.minExponent = 3 - (2 ^ (format.exponentBits - 1) : ℕ) - format.mantissaBits := by
  unfold Format.minExponent
  push_cast
  rfl

theorem minExponent_nonpos (format : Format) : format.minExponent ≤ 0 := by
  have := Nat.two_pow_pos (format.exponentBits - 1)
  have := format.hm
  rw [minExponent_eq, Format.mantissaBits]
  omega

theorem two_zpow_pos (e : ℤ) : (0 : ℚ) < 2 ^ e :=
  zpow_pos two_pos e

theorem two_zpow_le {e e' : ℤ} (le : e ≤ e') : (2 : ℚ) ^ e ≤ 2 ^ e' :=
  zpow_le_zpow_right₀ one_le_two le

theorem two_zpow_add (e e' : ℤ) : (2 : ℚ) ^ (e + e') = 2 ^ e * 2 ^ e' :=
  zpow_add₀ two_ne_zero e e'

/-- Scaling by a power of two, from the one side of a comparison to the other. -/
theorem le_div_two_zpow_iff {x y : ℚ} {e : ℤ} : x ≤ y / 2 ^ e ↔ x * 2 ^ e ≤ y :=
  le_div_iff₀ (two_zpow_pos e)

theorem two_zpow_log_le {x : ℚ} (positive : 0 < x) : (2 : ℚ) ^ Int.log 2 x ≤ x := by
  exact_mod_cast Int.zpow_log_le_self (b := 2) Nat.one_lt_two positive

theorem lt_two_zpow_log (x : ℚ) : x < (2 : ℚ) ^ (Int.log 2 x + 1) := by
  exact_mod_cast Int.lt_zpow_succ_log_self (b := 2) Nat.one_lt_two x

section Nearest

variable (format : Format)

/-- The exponent of the last place that is kept of a number. -/
def lastPlace (x : ℚ) : ℤ :=
  format.targetExponent (Int.log 2 x + 1)

/-- The mantissa that is kept of a number. -/
def keptMantissa (x : ℚ) : ℤ :=
  nearestEven (x / 2 ^ lastPlace format x)

/-- The nearest number of a format, and the one of even mantissa from the middle between
two. -/
def nearest (x : ℚ) : ℚ :=
  keptMantissa format x * 2 ^ lastPlace format x

/-- The number is a mantissa that fits the format, at an exponent that is not too low. -/
def OnGrid (x : ℚ) : Prop :=
  ∃ (k : ℕ) (e : ℤ), k < 2 ^ format.mantissaBits ∧ format.minExponent ≤ e ∧ x = k * 2 ^ e

end Nearest

variable {format : Format} {x y w : ℚ}

@[simp]
theorem nearest_zero (format : Format) : nearest format 0 = 0 := by
  simp [nearest, keptMantissa, nearestEven]

theorem lastPlace_cases (format : Format) (x : ℚ) :
    (lastPlace format x = Int.log 2 x + 1 - format.mantissaBits ∧
      format.minExponent ≤ lastPlace format x) ∨
    (lastPlace format x = format.minExponent ∧
      Int.log 2 x + 1 - format.mantissaBits ≤ lastPlace format x) := by
  unfold lastPlace Format.targetExponent
  omega

/-- A kept mantissa has at most one bit more than the format has room for, and then it is
a power of two. -/
theorem keptMantissa_le (format : Format) (x : ℚ) :
    keptMantissa format x ≤ 2 ^ format.mantissaBits := by
  have room : x / 2 ^ lastPlace format x ≤ ((2 ^ format.mantissaBits : ℤ) : ℚ) := by
    rw [div_le_iff₀ (two_zpow_pos _)]
    push_cast
    calc x ≤ (2 : ℚ) ^ (Int.log 2 x + 1) := (lt_two_zpow_log x).le
      _ ≤ 2 ^ ((format.mantissaBits : ℤ) + lastPlace format x) := by
        refine two_zpow_le ?_
        have := lastPlace_cases format x
        omega
      _ = 2 ^ format.mantissaBits * 2 ^ lastPlace format x := by
        rw [two_zpow_add, zpow_natCast]
  exact (nearestEven_mono room).trans_eq (nearestEven_intCast _)

/-- Above the least exponent a kept mantissa fills the format. -/
theorem le_keptMantissa (format : Format) (positive : 0 < x)
    (above : lastPlace format x ≠ format.minExponent) :
    2 ^ format.mantissaBitsWithoutImplicit ≤ keptMantissa format x := by
  have full : ((2 ^ format.mantissaBitsWithoutImplicit : ℤ) : ℚ) ≤ x / 2 ^ lastPlace format x := by
    rw [le_div_two_zpow_iff]
    push_cast
    calc (2 : ℚ) ^ format.mantissaBitsWithoutImplicit * 2 ^ lastPlace format x
        = 2 ^ ((format.mantissaBitsWithoutImplicit : ℤ) + lastPlace format x) := by
          rw [two_zpow_add, zpow_natCast]
      _ ≤ 2 ^ Int.log 2 x := by
        refine two_zpow_le ?_
        have := lastPlace_cases format x
        unfold Format.mantissaBits at this
        omega
      _ ≤ x := two_zpow_log_le positive
  exact (nearestEven_intCast _).symm.trans_le (nearestEven_mono full)

theorem nearest_nonneg (nonneg : 0 ≤ x) : 0 ≤ nearest format x := by
  have kept : 0 ≤ keptMantissa format x := by
    have scaled : ((0 : ℤ) : ℚ) ≤ x / 2 ^ lastPlace format x := by
      rw [Int.cast_zero]
      exact div_nonneg nonneg (two_zpow_pos _).le
    exact (nearestEven_intCast 0).symm.trans_le (nearestEven_mono scaled)
  exact mul_nonneg (by exact_mod_cast kept) (two_zpow_pos _).le

/-- A number of the format is its own rounding. -/
theorem nearest_of_onGrid (grid : OnGrid format x) : nearest format x = x := by
  rcases grid with ⟨k, e, fits, low, rfl⟩
  have place_le : k ≠ 0 → lastPlace format (k * 2 ^ e) ≤ e := by
    intro nonzero
    have positive : (0 : ℚ) < k * 2 ^ e :=
      mul_pos (Nat.cast_pos.mpr (Nat.pos_of_ne_zero nonzero)) (two_zpow_pos e)
    have log_lt : Int.log 2 ((k : ℚ) * 2 ^ e) < format.mantissaBits + e := by
      rw [← Int.lt_zpow_iff_log_lt Nat.one_lt_two positive, Nat.cast_ofNat, two_zpow_add,
        zpow_natCast]
      exact mul_lt_mul_of_pos_right (by exact_mod_cast fits) (two_zpow_pos e)
    have := lastPlace_cases format ((k : ℚ) * 2 ^ e)
    omega
  rcases Nat.eq_zero_or_pos k with rfl | positive
  · simp
  · obtain ⟨shift, same⟩ := Int.eq_ofNat_of_zero_le
      (sub_nonneg.mpr (place_le positive.ne'))
    have scaled : (k * 2 ^ e : ℚ) / 2 ^ lastPlace format (k * 2 ^ e) =
        ((k * 2 ^ shift : ℤ) : ℚ) := by
      rw [mul_div_assoc, ← zpow_sub₀ two_ne_zero, same]
      push_cast
      rw [zpow_natCast]
    unfold nearest keptMantissa
    rw [scaled, nearestEven_intCast, ← scaled, div_mul_cancel₀ _ (two_zpow_pos _).ne']

/-- **Rounding is monotone.** -/
theorem nearest_mono (nonneg : 0 ≤ x) (le : x ≤ y) : nearest format x ≤ nearest format y := by
  rcases nonneg.eq_or_lt with rfl | positive
  · exact (nearest_zero format).trans_le (nearest_nonneg le)
  · have log_le : Int.log 2 x ≤ Int.log 2 y := Int.log_mono_right positive le
    have place_le : lastPlace format x ≤ lastPlace format y := by
      unfold lastPlace Format.targetExponent
      omega
    rcases place_le.eq_or_lt with same | lower
    · have kept_le : keptMantissa format x ≤ keptMantissa format y := by
        unfold keptMantissa
        rw [same]
        exact nearestEven_mono (div_le_div_of_nonneg_right le (two_zpow_pos _).le)
      unfold nearest
      rw [same]
      exact mul_le_mul_of_nonneg_right (Int.cast_le.mpr kept_le) (two_zpow_pos _).le
    · -- a power of two stands between numbers whose last places differ
      have above : lastPlace format y ≠ format.minExponent := by
        have := lastPlace_cases format x
        omega
      have kept_x : (keptMantissa format x : ℚ) ≤ 2 ^ format.mantissaBits := by
        exact_mod_cast keptMantissa_le format x
      have kept_y : (2 : ℚ) ^ format.mantissaBitsWithoutImplicit ≤ keptMantissa format y := by
        exact_mod_cast le_keptMantissa format (positive.trans_le le) above
      calc nearest format x
          ≤ 2 ^ format.mantissaBits * 2 ^ lastPlace format x :=
            mul_le_mul_of_nonneg_right kept_x (two_zpow_pos _).le
        _ = 2 ^ ((format.mantissaBits : ℤ) + lastPlace format x) := by
            rw [two_zpow_add, zpow_natCast]
        _ ≤ 2 ^ ((format.mantissaBitsWithoutImplicit : ℤ) + lastPlace format y) := by
            refine two_zpow_le ?_
            unfold Format.mantissaBits
            omega
        _ = 2 ^ format.mantissaBitsWithoutImplicit * 2 ^ lastPlace format y := by
            rw [two_zpow_add, zpow_natCast]
        _ ≤ nearest format y := mul_le_mul_of_nonneg_right kept_y (two_zpow_pos _).le

theorem nearest_le (nonneg : 0 ≤ x) (grid : OnGrid format w) (le : x ≤ w) :
    nearest format x ≤ w :=
  (nearest_mono nonneg le).trans_eq (nearest_of_onGrid grid)

theorem le_nearest (nonneg : 0 ≤ w) (grid : OnGrid format w) (le : w ≤ x) :
    w ≤ nearest format x :=
  (nearest_of_onGrid grid).symm.trans_le (nearest_mono nonneg le)

end ProximalNewton
