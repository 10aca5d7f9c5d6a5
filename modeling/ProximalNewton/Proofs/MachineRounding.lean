import ProximalNewton.Proofs.MachineLaws
import ProximalNewton.Proofs.Rounding

/-!
# Rounding as a machine does it

A machine shifts the mantissa of a result to the exponent of the last place that is kept,
remembers in two residual bits what it shifts out, rounds by these bits and packs what it
gets. `Describes` says that a mantissa with its residual bits stands for a rational number,
and `HasValue` that an unpacked number is finite, not below zero and of a given value.

* `hasValue_roundWithAccuracy`: a number that is described is rounded to the `nearest` one
  of the format.
* `HasValue.unpack_pack`: packing keeps a number below the bound of the format, and makes
  any other one infinite.

Signs are left out: a step size has no number below zero.
-/

namespace ProximalNewton

open Float.Model (Format totalExponent UnpackedFloat)
open Float.Model.UnpackedFloat

/-! ## Residual bits -/

/-- The residual bits of an extended mantissa tell where a number lies between the
mantissa and the next one. -/
def Describes (em : ExtendedMantissa) (x : ℚ) : Prop :=
  match em.roundBit, em.stickyBit with
  | false, false => x = em.mantissa
  | false, true => em.mantissa < x ∧ x < em.mantissa + 1 / 2
  | true, false => x = em.mantissa + 1 / 2
  | true, true => em.mantissa + 1 / 2 < x ∧ x < em.mantissa + 1

variable {em : ExtendedMantissa} {x : ℚ}

@[simp]
theorem mantissa_ofMantissaAndAccuracy (m : ℕ) (accuracy : Accuracy) :
    (ExtendedMantissa.ofMantissaAndAccuracy m accuracy).mantissa = m := by
  rcases accuracy with _ | _ | _ | _ <;> rfl

/-- A mantissa describes itself. -/
theorem describes_self (m : ℕ) : Describes (.ofMantissaAndAccuracy m .exact) m :=
  rfl

theorem Describes.floor_eq (describes : Describes em x) : ⌊x⌋ = em.mantissa := by
  rcases em with ⟨mantissa, roundBit, stickyBit⟩
  rw [Int.floor_eq_iff]
  cases roundBit <;> cases stickyBit <;> simp only [Describes] at describes <;> push_cast <;>
    constructor <;> linarith

/-- Rounding by the residual bits is rounding to the nearest integer. -/
theorem Describes.roundedMantissa_eq (describes : Describes em x) :
    (em.roundedMantissa : ℤ) = nearestEven x := by
  have floor_eq := describes.floor_eq
  have fract_eq : Int.fract x = x - em.mantissa := by
    unfold Int.fract
    rw [floor_eq, Int.cast_natCast]
  unfold nearestEven
  rw [fract_eq, floor_eq]
  rcases em with ⟨mantissa, _ | _, _ | _⟩ <;> simp only [Describes] at describes
  · rw [if_pos (by linarith)]
    rfl
  · rw [if_pos (by linarith)]
    rfl
  · rw [if_neg (by linarith), if_neg (by linarith)]
    rfl
  · rw [if_neg (by linarith), if_pos (by linarith)]
    rfl

theorem Describes.shiftRightOne (describes : Describes em x) :
    Describes em.shiftRightOne (x / 2) := by
  rcases em with ⟨mantissa, roundBit, stickyBit⟩
  have halves : (mantissa : ℚ) = 2 * (mantissa / 2 : ℕ) + (mantissa % 2 : ℕ) := by
    exact_mod_cast (Nat.div_add_mod mantissa 2).symm
  rcases Nat.mod_two_eq_zero_or_one mantissa with even | odd
  · rw [even, Nat.cast_zero, add_zero] at halves
    cases roundBit <;> cases stickyBit <;>
      simp [Describes, ExtendedMantissa.shiftRightOne, even, halves] at describes ⊢ <;>
      first | linarith | (constructor <;> linarith)
  · rw [odd, Nat.cast_one] at halves
    cases roundBit <;> cases stickyBit <;>
      simp [Describes, ExtendedMantissa.shiftRightOne, odd, halves] at describes ⊢ <;>
      first | linarith | (constructor <;> linarith)

theorem Describes.shiftRight (describes : Describes em x) (shift : ℕ) :
    Describes (em >>> shift) (x / 2 ^ shift) := by
  induction shift with
  | zero =>
    rw [pow_zero, div_one]
    exact describes
  | succ shift ih =>
    have next := ih.shiftRightOne
    rw [div_div, ← pow_succ] at next
    exact next

/-! ## Rounding a finite number -/

variable {format : Format} {m : ℕ} {e : ℤ} {accuracy : Accuracy} {u : UnpackedFloat} {v : ℚ}

/-- The mantissa fits the format and fills it, unless the exponent is the least one. -/
structure Canonical (format : Format) (m : ℕ) (e : ℤ) : Prop where
  fits : m < 2 ^ format.mantissaBits
  low : format.minExponent ≤ e
  full : 2 ^ format.mantissaBitsWithoutImplicit ≤ m ∨ e = format.minExponent

/-- A number in canonical form that is finite and not below zero, and its value. -/
inductive HasValue (format : Format) : UnpackedFloat → ℚ → Prop
  | zero (sign : Sign) : HasValue format (.zero sign) 0
  | finite {m : ℕ} {e : ℤ} (positive : 0 < m) :
    Canonical format m e → HasValue format (.finite .positive m e positive) (m * 2 ^ e)

theorem HasValue.nonneg (value : HasValue format u v) : 0 ≤ v := by
  cases value with
  | zero => exact le_rfl
  | finite positive => exact mul_nonneg (Nat.cast_nonneg _) (two_zpow_pos _).le

theorem HasValue.onGrid (value : HasValue format u v) : OnGrid format v := by
  cases value with
  | zero => exact ⟨0, format.minExponent, Nat.two_pow_pos _, le_rfl, by simp⟩
  | finite positive canonical => exact ⟨_, _, canonical.fits, canonical.low, rfl⟩

theorem log2_lt_mantissaBits (fits : m < 2 ^ format.mantissaBits) :
    m.log2 < format.mantissaBits := by
  rcases Nat.eq_zero_or_pos m with rfl | positive
  · simp [Format.mantissaBits]
  · exact (Nat.log2_lt positive.ne').mpr fits

/-- Shifting a described number to a higher exponent describes it there. -/
theorem Describes.shiftToExponent (describes : Describes (.ofMantissaAndAccuracy m accuracy) x)
    {target : ℤ} (ready : e ≤ target) :
    Describes (UnpackedFloat.shiftToExponent m e accuracy target).1 (x * 2 ^ e / 2 ^ target) ∧
      (UnpackedFloat.shiftToExponent m e accuracy target).2 = target := by
  obtain ⟨shift, same⟩ := Int.eq_ofNat_of_zero_le (sub_nonneg.mpr ready)
  have scaled : x * 2 ^ e / 2 ^ target = x / 2 ^ shift := by
    rw [show target = e + shift by omega, two_zpow_add, zpow_natCast]
    field_simp
  unfold UnpackedFloat.shiftToExponent
  dsimp only
  rw [scaled, same, Int.toNat_natCast]
  exact ⟨describes.shiftRight shift, by omega⟩

/-- The exponent that a described number is shifted to is that of its last place. -/
theorem Describes.targetExponent_eq (describes : Describes em x) (positive : 0 < x)
    (small : em.mantissa = 0 → e ≤ format.minExponent) :
    format.targetExponent (totalExponent em.mantissa e) = lastPlace format (x * 2 ^ e) := by
  have scaled_pos : 0 < x * 2 ^ e := mul_pos positive (two_zpow_pos e)
  have floor_eq := describes.floor_eq
  have below : x < em.mantissa + 1 := by
    have := Int.lt_floor_add_one x
    rwa [floor_eq, Int.cast_natCast] at this
  rcases Nat.eq_zero_or_pos em.mantissa with zero | nonzero
  · have low := small zero
    have log_lt : Int.log 2 (x * 2 ^ e) < e := by
      rw [← Int.lt_zpow_iff_log_lt Nat.one_lt_two scaled_pos, Nat.cast_ofNat]
      rw [zero, Nat.cast_zero, zero_add] at below
      simpa using mul_lt_mul_of_pos_right below (two_zpow_pos e)
    unfold lastPlace Format.targetExponent totalExponent Format.mantissaBits
    rw [zero, Nat.log2_zero]
    omega
  · have above : (em.mantissa : ℚ) ≤ x := by
      have := Int.floor_le x
      rwa [floor_eq, Int.cast_natCast] at this
    have log_eq : Int.log 2 (x * 2 ^ e) = em.mantissa.log2 + e := by
      refine le_antisymm (Int.lt_add_one_iff.mp ?_) ?_
      · rw [← Int.lt_zpow_iff_log_lt Nat.one_lt_two scaled_pos, Nat.cast_ofNat,
          show (em.mantissa.log2 + e + 1 : ℤ) = (em.mantissa.log2 + 1 : ℕ) + e by push_cast; ring,
          two_zpow_add, zpow_natCast]
        have next : ((em.mantissa + 1 : ℕ) : ℚ) ≤ ((2 ^ (em.mantissa.log2 + 1) : ℕ) : ℚ) :=
          Nat.cast_le.mpr Nat.lt_log2_self
        push_cast at next
        exact mul_lt_mul_of_pos_right (below.trans_le next) (two_zpow_pos e)
      · rw [← Int.zpow_le_iff_le_log Nat.one_lt_two scaled_pos, Nat.cast_ofNat, two_zpow_add,
          zpow_natCast]
        have own : ((2 ^ em.mantissa.log2 : ℕ) : ℚ) ≤ (em.mantissa : ℚ) :=
          Nat.cast_le.mpr (Nat.log2_self_le nonzero.ne')
        push_cast at own
        exact mul_le_mul_of_nonneg_right (own.trans above) (two_zpow_pos e).le
    unfold lastPlace totalExponent
    rw [log_eq]
    congr 1
    ring

/-- A rounded mantissa that has become too wide by one bit is shifted once more, which
loses nothing. -/
theorem shiftToTargetExponent_carry (low : format.minExponent ≤ e) :
    shiftToTargetExponent format (2 ^ format.mantissaBits) e .exact =
      (⟨2 ^ format.mantissaBitsWithoutImplicit, false, false⟩, e + 1) := by
  have target : format.targetExponent (totalExponent (2 ^ format.mantissaBits) e) = e + 1 := by
    unfold Format.targetExponent totalExponent
    rw [Nat.log2_two_pow]
    omega
  have half : 2 ^ format.mantissaBits / 2 = 2 ^ format.mantissaBitsWithoutImplicit := by
    rw [two_pow_mantissaBits]
    omega
  have even : 2 ^ format.mantissaBits % 2 = 0 := by
    rw [two_pow_mantissaBits]
    omega
  unfold shiftToTargetExponent UnpackedFloat.shiftToExponent
  dsimp only
  rw [target, show (e + 1 - e).toNat = 1 by omega]
  simp [HShiftRight.hShiftRight, Nat.repeat, ExtendedMantissa.ofMantissaAndAccuracy,
    ExtendedMantissa.shiftRightOne, half, even]

/-- A mantissa that fits is not shifted again. -/
theorem shiftToTargetExponent_fits (fits : m < 2 ^ format.mantissaBits)
    (low : format.minExponent ≤ e) :
    shiftToTargetExponent format m e .exact = (⟨m, false, false⟩, e) := by
  have bits := log2_lt_mantissaBits fits
  have none_left : (format.targetExponent (totalExponent m e) - e).toNat = 0 := by
    unfold Format.targetExponent totalExponent
    omega
  unfold shiftToTargetExponent UnpackedFloat.shiftToExponent
  dsimp only
  rw [none_left]
  simp [HShiftRight.hShiftRight, Nat.repeat, ExtendedMantissa.ofMantissaAndAccuracy]

/-- What a shifted, rounded and again shifted mantissa comes to. -/
theorem hasValue_carried {r : ℕ} (fits : r ≤ 2 ^ format.mantissaBits)
    (low : format.minExponent ≤ e)
    (full : 2 ^ format.mantissaBitsWithoutImplicit ≤ r ∨ e = format.minExponent) :
    HasValue format
      (let carried := shiftToTargetExponent format r e .exact
        if zero : carried.1.mantissa = 0 then .zero .positive
        else .finite .positive carried.1.mantissa carried.2 (Nat.pos_of_ne_zero zero))
      (r * 2 ^ e) := by
  rcases fits.lt_or_eq with fits | rfl
  · rw [shiftToTargetExponent_fits fits low]
    dsimp only
    split
    · rename_i zero
      subst zero
      rw [Nat.cast_zero, zero_mul]
      exact .zero _
    · exact .finite _ ⟨fits, low, full⟩
  · rw [shiftToTargetExponent_carry low]
    dsimp only
    rw [dif_neg (by positivity)]
    have same : ((2 ^ format.mantissaBits : ℕ) : ℚ) * 2 ^ e =
        ((2 ^ format.mantissaBitsWithoutImplicit : ℕ) : ℚ) * 2 ^ (e + 1) := by
      rw [two_pow_mantissaBits, two_zpow_add, zpow_one]
      push_cast
      ring
    rw [same]
    refine .finite _ ⟨?_, by omega, Or.inl le_rfl⟩
    rw [two_pow_mantissaBits]
    have := Nat.two_pow_pos format.mantissaBitsWithoutImplicit
    omega

/-- **Correct rounding.** A number that is described to the last place that is kept of it
is rounded to the nearest number of the format. -/
theorem hasValue_roundWithAccuracy
    (describes : Describes (.ofMantissaAndAccuracy m accuracy) x) (positive : 0 < x)
    (ready : e ≤ format.targetExponent (totalExponent m e))
    (small : m = 0 → e ≤ format.minExponent) :
    HasValue format (roundWithAccuracy format .positive m e accuracy)
      (nearest format (x * 2 ^ e)) := by
  have place : format.targetExponent (totalExponent m e) = lastPlace format (x * 2 ^ e) := by
    rw [← mantissa_ofMantissaAndAccuracy m accuracy]
    exact describes.targetExponent_eq positive (by rwa [mantissa_ofMantissaAndAccuracy])
  have first : Describes (shiftToTargetExponent format m e accuracy).1
        (x * 2 ^ e / 2 ^ lastPlace format (x * 2 ^ e)) ∧
      (shiftToTargetExponent format m e accuracy).2 = lastPlace format (x * 2 ^ e) := by
    rw [← place]
    exact describes.shiftToExponent ready
  unfold roundWithAccuracy
  generalize shiftToTargetExponent format m e accuracy = shift at first ⊢
  rcases shift with ⟨shifted, exponent⟩
  obtain ⟨shifted_describes, rfl⟩ := first
  have kept : (shifted.roundedMantissa : ℤ) = keptMantissa format (x * 2 ^ e) :=
    shifted_describes.roundedMantissa_eq
  have value : nearest format (x * 2 ^ e) =
      shifted.roundedMantissa * 2 ^ lastPlace format (x * 2 ^ e) := by
    unfold nearest
    rw [← kept, Int.cast_natCast]
  have fits := keptMantissa_le format (x * 2 ^ e)
  have full := le_keptMantissa format (mul_pos positive (two_zpow_pos e))
  rw [← kept] at fits full
  rw [value]
  exact hasValue_carried (by exact_mod_cast fits) (le_max_right _ _)
    (or_iff_not_imp_right.mpr fun above => by exact_mod_cast full above)

/-- An exact mantissa is rounded to the nearest number of the format. -/
theorem hasValue_roundWithAccuracy_exact (positive : 0 < m)
    (ready : e ≤ format.targetExponent (totalExponent m e)) :
    HasValue format (roundWithAccuracy format .positive m e .exact)
      (nearest format (m * 2 ^ e)) :=
  hasValue_roundWithAccuracy (describes_self m) (Nat.cast_pos.mpr positive) ready
    fun zero => absurd zero positive.ne'

theorem targetExponent_eq_lastPlace (positive : 0 < m) (e : ℤ) :
    format.targetExponent (totalExponent m e) = lastPlace format (m * 2 ^ e) :=
  (describes_self m).targetExponent_eq (Nat.cast_pos.mpr positive)
    fun zero => absurd zero positive.ne'

/-- Rounding at any exponent: the mantissa is first widened to the last place. -/
theorem hasValue_round (positive : 0 < m) :
    HasValue format (UnpackedFloat.round format .positive m e) (nearest format (m * 2 ^ e)) := by
  unfold UnpackedFloat.round decreaseExponent
  dsimp only
  rw [targetExponent_eq_lastPlace positive, Nat.shiftLeft_eq]
  generalize shifted : (e - lastPlace format (m * 2 ^ e)).toNat = shift
  have widened_pos : 0 < m * 2 ^ shift := Nat.mul_pos positive (Nat.two_pow_pos _)
  have same : ((m * 2 ^ shift : ℕ) : ℚ) * 2 ^ (e - shift) = m * 2 ^ e := by
    rw [Nat.cast_mul, mul_assoc, Nat.cast_pow, Nat.cast_ofNat, ← zpow_natCast, ← two_zpow_add,
      add_sub_cancel]
  rw [← same]
  refine hasValue_roundWithAccuracy_exact widened_pos ?_
  rw [targetExponent_eq_lastPlace widened_pos, same]
  omega

/-! ## Packing -/

/-- The least power of two that is too large for the format. -/
def overflowBound (format : Format) : ℚ :=
  2 ^ 2 ^ (format.exponentBits - 1)

theorem two_le_two_pow_exponentBits (wide : 2 ≤ format.exponentBits) :
    2 ≤ 2 ^ (format.exponentBits - 1) :=
  calc 2 = 2 ^ 1 := (pow_one 2).symm
    _ ≤ 2 ^ (format.exponentBits - 1) := Nat.pow_le_pow_right two_pos (by omega)

/-- The exponents of the finite numbers of a format. -/
theorem lt_overflowBound_iff (wide : 2 ≤ format.exponentBits) (canonical : Canonical format m e) :
    m * 2 ^ e < overflowBound format ↔
      e + format.mantissaBits ≤ (2 ^ (format.exponentBits - 1) : ℕ) := by
  have two_le := two_le_two_pow_exponentBits wide
  unfold overflowBound
  rw [← zpow_natCast]
  constructor
  · intro below
    by_contra above
    rcases canonical.full with full | lowest
    · have full : ((2 ^ format.mantissaBitsWithoutImplicit : ℕ) : ℚ) ≤ m := Nat.cast_le.mpr full
      refine below.not_ge ?_
      calc (2 : ℚ) ^ ((2 ^ (format.exponentBits - 1) : ℕ) : ℤ)
          ≤ 2 ^ ((format.mantissaBitsWithoutImplicit : ℤ) + e) := by
            refine two_zpow_le ?_
            unfold Format.mantissaBits at above
            omega
        _ = (2 ^ format.mantissaBitsWithoutImplicit : ℕ) * 2 ^ e := by
            rw [two_zpow_add, zpow_natCast]
            push_cast
            rfl
        _ ≤ m * 2 ^ e := mul_le_mul_of_nonneg_right full (two_zpow_pos e).le
    · rw [minExponent_eq] at lowest
      omega
  · intro low
    have fits : (m : ℚ) < (2 ^ format.mantissaBits : ℕ) := Nat.cast_lt.mpr canonical.fits
    calc (m : ℚ) * 2 ^ e < (2 ^ format.mantissaBits : ℕ) * 2 ^ e :=
          mul_lt_mul_of_pos_right fits (two_zpow_pos e)
      _ = 2 ^ ((format.mantissaBits : ℤ) + e) := by
          rw [two_zpow_add, zpow_natCast]
          push_cast
          rfl
      _ ≤ 2 ^ ((2 ^ (format.exponentBits - 1) : ℕ) : ℤ) := two_zpow_le (by omega)

theorem unpack_packedInfinity (sign : Sign) :
    unpack format (packedInfinity format sign) = .infinity sign := by
  simp [UnpackedFloat.unpack, packedInfinity]

theorem exponentBias_eq (format : Format) :
    (format.exponentBias : ℤ) = (2 ^ (format.exponentBits - 1) : ℕ) - 1 := by
  unfold Format.exponentBias
  rw [Nat.cast_sub Nat.one_le_two_pow, Nat.cast_one]

theorem two_pow_exponentBits (format : Format) :
    2 ^ format.exponentBits = 2 * 2 ^ (format.exponentBits - 1) := by
  rw [← pow_succ', Nat.sub_add_cancel format.he]

/-- An exponent field that is neither empty nor full. -/
theorem exponent_field {biased : ℕ} (positive : 0 < biased)
    (below : biased + 1 < 2 ^ format.exponentBits) :
    BitVec.ofNat format.exponentBits biased ≠ -1#_ ∧
      BitVec.ofNat format.exponentBits biased ≠ 0#_ ∧
      (BitVec.ofNat format.exponentBits biased).toNat = biased := by
  have own : (BitVec.ofNat format.exponentBits biased).toNat = biased := by
    rw [BitVec.toNat_ofNat, Nat.mod_eq_of_lt (by omega)]
  refine ⟨?_, ?_, own⟩
  · rw [← BitVec.toNat_inj.ne, own, BitVec.neg_one_eq_allOnes, BitVec.toNat_allOnes]
    omega
  · rw [← BitVec.toNat_inj.ne, own, BitVec.toNat_zero]
    omega

/-- The leading one of a mantissa, which is not stored. -/
theorem toNat_leading_one {width : ℕ} (bits : BitVec width) :
    (1#1 ++ bits).toNat = 2 ^ width + bits.toNat := by
  rw [BitVec.toNat_append, ← Nat.shiftLeft_add_eq_or_of_lt bits.isLt, BitVec.toNat_ofNat,
    Nat.shiftLeft_eq]
  omega

/-- Packing a finite number whose exponent is in range loses nothing. -/
theorem unpack_pack_finite (positive : 0 < m) (canonical : Canonical format m e)
    (range : e + format.mantissaBits ≤ (2 ^ (format.exponentBits - 1) : ℕ)) :
    unpack format (pack format (.finite .positive m e positive)) =
      .finite .positive m e positive := by
  have bias := exponentBias_eq format
  have capacity := two_pow_exponentBits format
  have low := canonical.low
  rw [minExponent_eq] at low
  unfold pack Format.mantissaBits at *
  dsimp only
  generalize biased_eq :
    (e + format.exponentBias + format.mantissaBitsWithoutImplicit).toNat = biased
  have biased_pos : 0 < biased := by omega
  have biased_lt : biased + 1 < 2 ^ format.exponentBits := by omega
  obtain ⟨not_full, not_empty, own⟩ := exponent_field biased_pos biased_lt
  rw [if_neg biased_lt.not_ge]
  by_cases normal : m.log2 + 1 = 1 + format.mantissaBitsWithoutImplicit
  · have mantissa_eq : (1#1 ++ BitVec.ofNat format.mantissaBitsWithoutImplicit m).toNat = m := by
      have full := (Nat.log2_eq_iff (k := format.mantissaBitsWithoutImplicit) positive.ne').mp
        (by omega)
      rw [toNat_leading_one, BitVec.toNat_ofNat, Nat.mod_eq_sub_mod full.1,
        Nat.mod_eq_of_lt (by omega)]
      omega
    rw [if_pos normal]
    unfold unpack
    simp only [unpackMantissa_packComponents, unpackExponent_packComponents,
      unpackSign_packComponents, not_full, not_empty, if_false, Sign.ofBitVec_toBitVec, own,
      mantissa_eq]
    congr 1
    omega
  · have small : m < 2 ^ format.mantissaBitsWithoutImplicit := by
      have bits := log2_lt_mantissaBits canonical.fits
      rw [← Nat.log2_lt positive.ne']
      unfold Format.mantissaBits at bits
      omega
    have lowest : e = format.minExponent := canonical.full.resolve_left small.not_ge
    rw [minExponent_eq, Format.mantissaBits] at lowest
    rw [if_neg normal]
    unfold unpack
    have own_mantissa : (BitVec.ofNat format.mantissaBitsWithoutImplicit m).toNat = m := by
      rw [BitVec.toNat_ofNat, Nat.mod_eq_of_lt small]
    have mantissa_ne : BitVec.ofNat format.mantissaBitsWithoutImplicit m ≠ 0#_ := by
      rw [← BitVec.toNat_inj.ne, own_mantissa, BitVec.toNat_zero]
      exact positive.ne'
    have field_ne : BitVec.ofNat format.exponentBits 0 ≠ -1#_ := by
      rw [← BitVec.toNat_inj.ne, BitVec.neg_one_eq_allOnes, BitVec.toNat_allOnes,
        BitVec.toNat_zero]
      omega
    simp only [unpackMantissa_packComponents, unpackExponent_packComponents,
      unpackSign_packComponents, field_ne, mantissa_ne, if_false, if_true, dif_neg,
      Sign.ofBitVec_toBitVec, own_mantissa, not_false_eq_true, BitVec.toNat_zero]
    congr 1
    omega

/-- **Packing.** A number below the bound of a format is kept as it is, and one that
reaches the bound becomes infinite. -/
theorem HasValue.unpack_pack (value : HasValue format u v) (wide : 2 ≤ format.exponentBits) :
    (v < overflowBound format → unpack format (pack format u) = u) ∧
      (overflowBound format ≤ v → unpack format (pack format u) = .infinity .positive) := by
  cases value with
  | zero sign =>
    refine ⟨fun _ => unpack_packedZero, fun above => ?_⟩
    exact absurd (pow_pos two_pos _) above.not_gt
  | @finite m e positive canonical =>
    rw [← not_lt, lt_overflowBound_iff wide canonical]
    refine ⟨unpack_pack_finite positive canonical, fun out_of_range => ?_⟩
    have bias := exponentBias_eq format
    have capacity := two_pow_exponentBits format
    unfold pack
    dsimp only
    rw [if_pos, unpack_packedInfinity]
    unfold Format.mantissaBits at out_of_range
    omega

end ProximalNewton
