import ProximalNewton.Proofs.MachineRounding

/-!
# Arithmetic in a machine format

Products, quotients and differences of finite numbers that are not below zero are the exact
ones, rounded to the `nearest` number of the format, and comparisons are those of the
values. `BinaryScalar` collects what a scalar shares with the unpacked numbers, so that
this can be said of `binary64` and `binary32` at once: `BinaryScalar.Represents` reads the
value of a scalar, and `BinaryScalar.RoundsTo` says that a scalar is an exact result after
rounding, or infinite where this is out of range.
-/

namespace ProximalNewton

open Float.Model (Format totalExponent UnpackedFloat)
open Float.Model.UnpackedFloat

/-! ## Operations on finite numbers -/

section Finite

variable {format : Format} {m m' : ℕ} {e e' : ℤ} {u u' : UnpackedFloat} {v w : ℚ}

theorem hasValue_mul (left : HasValue format u v) (right : HasValue format u' w) :
    HasValue format (UnpackedFloat.mul format u u') (nearest format (v * w)) := by
  cases left with
  | zero sign =>
    rw [zero_mul, nearest_zero]
    cases right with
    | zero sign' => exact .zero _
    | finite positive canonical => exact .zero _
  | @finite m e positive canonical =>
    cases right with
    | zero sign' =>
      rw [mul_zero, nearest_zero]
      exact .zero _
    | @finite m' e' positive' canonical' =>
      have product_pos : 0 < m * m' := Nat.mul_pos positive positive'
      have same : (m * 2 ^ e : ℚ) * (m' * 2 ^ e') = ((m * m' : ℕ) : ℚ) * 2 ^ (e + e') := by
        rw [two_zpow_add]
        push_cast
        ring
      rw [same]
      refine hasValue_roundWithAccuracy_exact product_pos ?_
      -- a product with a full mantissa is full; one of two that are not is low enough
      by_cases full : 2 ^ format.mantissaBitsWithoutImplicit ≤ m * m'
      · have bits := (Nat.le_log2 product_pos.ne').mpr full
        unfold Format.targetExponent totalExponent Format.mantissaBits
        push_cast
        omega
      · have thin : ¬ 2 ^ format.mantissaBitsWithoutImplicit ≤ m := fun full_left =>
          full (full_left.trans (Nat.le_mul_of_pos_right m positive'))
        have thin' : ¬ 2 ^ format.mantissaBitsWithoutImplicit ≤ m' := fun full_right =>
          full (full_right.trans (Nat.le_mul_of_pos_left m' positive))
        have lowest := canonical.full.resolve_left thin
        have lowest' := canonical'.full.resolve_left thin'
        have := minExponent_nonpos format
        unfold Format.targetExponent
        omega

/-- The integer part of a fraction and the accuracy computed from its remainder describe
it. -/
theorem describes_fraction (num : ℕ) {den : ℕ} (positive : 0 < den) :
    Describes (.ofMantissaAndAccuracy (num / den) (accuracyOfFraction (num % den) den))
      (num / den) := by
  have den_pos : (0 : ℚ) < den := Nat.cast_pos.mpr positive
  have split : (num / den : ℚ) = (num / den : ℕ) + (num % den : ℕ) / (den : ℚ) := by
    have parts : (num : ℚ) = den * (num / den : ℕ) + (num % den : ℕ) := by
      exact_mod_cast (Nat.div_add_mod num den).symm
    field_simp
    exact parts
  have rest_lt : ((num % den : ℕ) : ℚ) / den < 1 := by
    rw [div_lt_one den_pos]
    exact_mod_cast Nat.mod_lt num positive
  rw [split]
  generalize num % den = rest at rest_lt ⊢
  generalize num / den = quotient
  unfold accuracyOfFraction
  split
  · rename_i zero
    simp [Describes, ExtendedMantissa.ofMantissaAndAccuracy, zero]
  · rename_i nonzero
    have rest_pos : (0 : ℚ) < rest / den :=
      div_pos (Nat.cast_pos.mpr (Nat.pos_of_ne_zero nonzero)) den_pos
    rcases lt_trichotomy (2 * rest) den with below | middle | above
    · have half : (rest : ℚ) / den < 1 / 2 := by
        rw [div_lt_div_iff₀ den_pos two_pos]
        exact_mod_cast (by omega : rest * 2 < 1 * den)
      rw [compare_lt_iff_lt.mpr below]
      simpa [Describes, ExtendedMantissa.ofMantissaAndAccuracy] using And.intro rest_pos half
    · have half : (rest : ℚ) / den = 1 / 2 := by
        rw [div_eq_div_iff den_pos.ne' two_ne_zero]
        exact_mod_cast (by omega : rest * 2 = 1 * den)
      rw [compare_eq_iff_eq.mpr middle, half]
      rfl
    · have half : 1 / 2 < (rest : ℚ) / den := by
        rw [div_lt_div_iff₀ two_pos den_pos]
        exact_mod_cast (by omega : 1 * den < rest * 2)
      rw [compare_gt_iff_gt.mpr above]
      simpa [Describes, ExtendedMantissa.ofMantissaAndAccuracy] using And.intro half rest_lt

/-- A quotient is computed at an exponent that is low enough to round it from there. -/
theorem divCore_ready (format : Format) (e e' : ℤ) (positive : 0 < m) (positive' : 0 < m') :
    (divCore format m e m' e').2.1 ≤ format.targetExponent
        (totalExponent (divCore format m e m' e').1 (divCore format m e m' e').2.1) ∧
      ((divCore format m e m' e').1 = 0 →
        (divCore format m e m' e').2.1 ≤ format.minExponent) := by
  unfold divCore
  dsimp only
  rw [Nat.shiftLeft_eq]
  generalize place_eq : min (e - e') (format.targetExponent
    (totalExponent m e - totalExponent m' e')) = place
  generalize shift_eq : (e - e' - place).toNat = shift
  have shifted : (shift : ℤ) = e - e' - place := by omega
  have bits : 2 ^ (m.log2 + shift) ≤ m * 2 ^ shift := by
    rw [pow_add]
    exact Nat.mul_le_mul_right _ (Nat.log2_self_le positive.ne')
  have bits' : m' < 2 ^ (m'.log2 + 1) := Nat.lt_log2_self
  -- the quotient has at most one bit less than the difference of bits
  have quotient_bits : m.log2 + shift < (m * 2 ^ shift / m').log2 + 1 + (m'.log2 + 1) := by
    rw [← Nat.pow_lt_pow_iff_right Nat.one_lt_two]
    calc 2 ^ (m.log2 + shift) ≤ m * 2 ^ shift := bits
      _ < m' * (m * 2 ^ shift / m' + 1) := Nat.lt_mul_div_succ _ positive'
      _ ≤ 2 ^ (m'.log2 + 1) * 2 ^ ((m * 2 ^ shift / m').log2 + 1) :=
        Nat.mul_le_mul bits'.le Nat.lt_log2_self
      _ = 2 ^ ((m * 2 ^ shift / m').log2 + 1 + (m'.log2 + 1)) := by
        rw [← pow_add, Nat.add_comm]
  unfold Format.targetExponent totalExponent Format.mantissaBits at place_eq ⊢
  refine ⟨by omega, ?_⟩
  intro zero
  have smaller : m * 2 ^ shift < m' := Nat.lt_of_div_eq_zero positive' zero
  have bits_lt : m.log2 + shift < m'.log2 + 1 :=
    (Nat.pow_lt_pow_iff_right Nat.one_lt_two).mp (bits.trans_lt (smaller.trans bits'))
  omega

theorem hasValue_div (left : HasValue format u v) (right : HasValue format u' w)
    (nonzero : w ≠ 0) :
    HasValue format (UnpackedFloat.div format u u') (nearest format (v / w)) := by
  cases right with
  | zero sign => exact absurd rfl nonzero
  | @finite m' e' positive' canonical' =>
    cases left with
    | zero sign =>
      rw [zero_div, nearest_zero]
      exact .zero _
    | @finite m e positive canonical =>
      obtain ⟨ready, small⟩ := divCore_ready format e e' positive positive'
      have describes : Describes
          (.ofMantissaAndAccuracy (divCore format m e m' e').1 (divCore format m e m' e').2.2)
          _ := describes_fraction _ positive'
      have same : (m * 2 ^ e / (m' * 2 ^ e') : ℚ) =
          ((m <<< (e - e' - (divCore format m e m' e').2.1).toNat : ℕ) : ℚ) / m' *
            2 ^ (divCore format m e m' e').2.1 := by
        have low : (divCore format m e m' e').2.1 ≤ e - e' := min_le_left _ _
        generalize (divCore format m e m' e').2.1 = place at low
        obtain ⟨shift, shifted⟩ := Int.eq_ofNat_of_zero_le (sub_nonneg.mpr low)
        rw [shifted, Int.toNat_natCast, Nat.shiftLeft_eq, show e = shift + place + e' by omega,
          two_zpow_add, two_zpow_add, zpow_natCast]
        push_cast
        have := (two_zpow_pos e').ne'
        field_simp
      rw [same]
      refine hasValue_roundWithAccuracy describes ?_ ready small
      refine div_pos (Nat.cast_pos.mpr ?_) (Nat.cast_pos.mpr positive')
      rw [Nat.shiftLeft_eq]
      exact Nat.mul_pos positive (Nat.two_pow_pos _)

/-- The mantissa at a lower exponent. -/
theorem decreaseExponent_value {target : ℤ} (low : target ≤ e) :
    ((decreaseExponent m e target).1 : ℚ) * 2 ^ target = m * 2 ^ e := by
  obtain ⟨shift, shifted⟩ := Int.eq_ofNat_of_zero_le (sub_nonneg.mpr low)
  unfold decreaseExponent
  dsimp only
  rw [shifted, Int.toNat_natCast, Nat.shiftLeft_eq, show e = shift + target by omega,
    two_zpow_add, zpow_natCast]
  push_cast
  ring

theorem hasValue_sub (left : HasValue format u v) (right : HasValue format u' w) (le : w ≤ v) :
    HasValue format (UnpackedFloat.sub format u u') (nearest format (v - w)) := by
  cases right with
  | zero sign' =>
    rw [sub_zero, nearest_of_onGrid left.onGrid]
    cases left with
    | zero sign =>
      cases sign <;> cases sign' <;> exact .zero _
    | finite positive canonical => exact .finite positive canonical
  | @finite m' e' positive' canonical' =>
    cases left with
    | zero sign =>
      have above : (0 : ℚ) < m' * 2 ^ e' :=
        mul_pos (Nat.cast_pos.mpr positive') (two_zpow_pos e')
      exact absurd le above.not_ge
    | @finite m e positive canonical =>
      have same := decreaseExponent_value (m := m) (min_le_left e e')
      have same' := decreaseExponent_value (m := m') (min_le_right e e')
      unfold UnpackedFloat.sub
      dsimp only [Sign.apply]
      rw [← same, ← same'] at le ⊢
      generalize (decreaseExponent m e (min e e')).1 = k at le ⊢
      generalize (decreaseExponent m' e' (min e e')).1 = k' at le ⊢
      have ordered : k' ≤ k := by exact_mod_cast le_of_mul_le_mul_right le (two_zpow_pos _)
      rw [← sub_mul, ← Nat.cast_sub ordered, ← Nat.cast_sub ordered]
      unfold UnpackedFloat.normalize
      rcases Nat.eq_zero_or_pos (k - k') with zero | positive
      · rw [zero]
        simpa using HasValue.zero .positive
      · rw [Int.compare_eq_gt.mpr (Int.natCast_pos.mpr positive)]
        exact hasValue_round positive

/-! ## Comparisons -/

/-- The place of a number among the others grows with its value. -/
theorem HasValue.lt_of_place_lt (left : HasValue format u v) (right : HasValue format u' w)
    (below : place u < place u') : v < w := by
  cases left with
  | zero sign =>
    cases right with
    | zero sign' => exact absurd below (lt_irrefl _)
    | finite positive canonical => exact mul_pos (Nat.cast_pos.mpr positive) (two_zpow_pos _)
  | @finite m e positive canonical =>
    cases right with
    | zero sign' => simp [place, Prod.Lex.toLex_lt_toLex] at below
    | @finite m' e' positive' canonical' =>
      simp only [place, Prod.Lex.toLex_lt_toLex, lt_self_iff_false, true_and, false_or,
        Nat.cast_lt] at below
      rcases below with lower | ⟨rfl, smaller⟩
      · -- at a higher exponent the mantissa is full
        have fits : (m : ℚ) < (2 ^ format.mantissaBits : ℕ) := Nat.cast_lt.mpr canonical.fits
        have above : e' ≠ format.minExponent := by
          have := canonical.low
          omega
        have full : ((2 ^ format.mantissaBitsWithoutImplicit : ℕ) : ℚ) ≤ m' :=
          Nat.cast_le.mpr (canonical'.full.resolve_right above)
        calc (m : ℚ) * 2 ^ e < (2 ^ format.mantissaBits : ℕ) * 2 ^ e :=
              mul_lt_mul_of_pos_right fits (two_zpow_pos e)
          _ = (2 ^ format.mantissaBitsWithoutImplicit : ℕ) * 2 ^ (e + 1) := by
              rw [two_pow_mantissaBits, two_zpow_add, zpow_one]
              push_cast
              ring
          _ ≤ (2 ^ format.mantissaBitsWithoutImplicit : ℕ) * 2 ^ e' :=
              mul_le_mul_of_nonneg_left (two_zpow_le lower) (Nat.cast_nonneg _)
          _ ≤ m' * 2 ^ e' := mul_le_mul_of_nonneg_right full (two_zpow_pos e').le
      · exact mul_lt_mul_of_pos_right (Nat.cast_lt.mpr smaller) (two_zpow_pos e)

theorem HasValue.eq_of_place_eq (left : HasValue format u v) (right : HasValue format u' w)
    (same : place u = place u') : v = w := by
  cases left with
  | zero sign =>
    cases right with
    | zero sign' => rfl
    | finite positive canonical => simp [place] at same
  | finite positive canonical =>
    cases right with
    | zero sign' => simp [place] at same
    | finite positive' canonical' =>
      simp only [place, toLex_inj, Prod.mk.injEq, true_and, Nat.cast_inj] at same
      rw [same.1, same.2]

theorem HasValue.place_lt_iff (left : HasValue format u v) (right : HasValue format u' w) :
    place u < place u' ↔ v < w := by
  refine ⟨left.lt_of_place_lt right, ?_⟩
  intro below
  rcases lt_trichotomy (place u) (place u') with lt | same | gt
  · exact lt
  · exact absurd (left.eq_of_place_eq right same) below.ne
  · exact absurd (right.lt_of_place_lt left gt) below.not_gt

theorem HasValue.ordered (value : HasValue format u v) : u.isNaN = false := by
  cases value <;> rfl

theorem HasValue.lt_iff (left : HasValue format u v) (right : HasValue format u' w) :
    u.lt u' = true ↔ v < w := by
  rw [lt_iff_place, left.place_lt_iff right]
  exact and_iff_right ⟨left.ordered, right.ordered⟩

theorem HasValue.le_iff (left : HasValue format u v) (right : HasValue format u' w) :
    u.le u' = true ↔ v ≤ w := by
  rw [le_iff_place, ← not_lt, right.place_lt_iff left, not_lt]
  exact and_iff_right ⟨left.ordered, right.ordered⟩

theorem HasValue.isFinite (value : HasValue format u v) : u.isFinite = true := by
  cases value <;> rfl

theorem HasValue.lt_infinity (value : HasValue format u v) :
    u.lt (.infinity .positive) = true := by
  cases value <;> rfl

theorem HasValue.zero_place_le (value : HasValue format u v) :
    place (.zero .positive) ≤ place u := by
  cases value with
  | zero sign => exact le_rfl
  | finite positive canonical =>
    refine le_of_lt ?_
    simp [place, Prod.Lex.toLex_lt_toLex]

/-! ## Stored numbers -/

/-- A stored finite number is canonical and below the bound of its format. -/
theorem canonical_unpack (wide : 2 ≤ format.exponentBits) {bits : BitVec format.numBits}
    {sign : Sign} {positive : 0 < m}
    (unpacked : unpack format bits = .finite sign m e positive) :
    Canonical format m e ∧
      e + format.mantissaBits ≤ (2 ^ (format.exponentBits - 1) : ℕ) := by
  have bias := exponentBias_eq format
  have capacity := two_pow_exponentBits format
  have two_le := two_le_two_pow_exponentBits wide
  have mantissa_lt := (unpackMantissa bits).isLt
  have exponent_lt := (unpackExponent bits).isLt
  have width := two_pow_mantissaBits format
  unfold unpack at unpacked
  dsimp only at unpacked
  split at unpacked
  · split at unpacked <;> cases unpacked
  · rename_i not_full
    rw [← BitVec.toNat_inj, BitVec.neg_one_eq_allOnes, BitVec.toNat_allOnes] at not_full
    split at unpacked
    · rename_i empty
      split at unpacked
      · cases unpacked
      · cases unpacked
        rw [empty, BitVec.toNat_zero]
        have lowest : ((0 : ℕ) : ℤ) -
            (format.exponentBias + format.mantissaBitsWithoutImplicit) + 1 =
            format.minExponent := by
          rw [minExponent_eq, Format.mantissaBits]
          omega
        refine ⟨⟨by omega, lowest.ge, Or.inr lowest⟩, ?_⟩
        rw [lowest, minExponent_eq]
        omega
    · rename_i not_empty
      rw [← BitVec.toNat_inj, BitVec.toNat_zero] at not_empty
      cases unpacked
      rw [toNat_leading_one]
      refine ⟨⟨by omega, ?_, Or.inl (Nat.le_add_right _ _)⟩, ?_⟩
      · rw [minExponent_eq, Format.mantissaBits]
        omega
      · unfold Format.mantissaBits
        omega

end Finite

/-! ## Machine scalars -/

/-- A scalar in a binary format. Its operations unpack the stored bits of their operands
and pack what they compute. -/
class BinaryScalar (F : Type) [Scalar F] extends LawfulScalar F where
  format : Format
  wide_mantissa : 8 ≤ format.mantissaBits
  wide_exponent : 2 ≤ format.exponentBits
  bits : F → BitVec format.numBits
  isFinite_eq : ∀ a : F, Scalar.isFinite a = (unpack format (bits a)).isFinite
  le_eq : ∀ a b : F, a ≤ b ↔ (unpack format (bits a)).le (unpack format (bits b)) = true
  lt_eq : ∀ a b : F, a < b ↔ (unpack format (bits a)).lt (unpack format (bits b)) = true
  add_eq : ∀ a b : F,
    bits (a + b) = pack format ((unpack format (bits a)).add format (unpack format (bits b)))
  sub_eq : ∀ a b : F,
    bits (a - b) = pack format ((unpack format (bits a)).sub format (unpack format (bits b)))
  mul_eq : ∀ a b : F,
    bits (a * b) = pack format ((unpack format (bits a)).mul format (unpack format (bits b)))
  div_eq : ∀ a b : F,
    bits (a / b) = pack format ((unpack format (bits a)).div format (unpack format (bits b)))
  zero_value : HasValue format (unpack format (bits 0)) 0
  one_value : HasValue format (unpack format (bits 1)) 1
  two_value : HasValue format (unpack format (bits (1 + 1))) 2
  half_value : HasValue format (unpack format (bits 0.5)) (1 / 2)
  /-- The decimal fraction `0.95` need not be a number of the format. -/
  near_one_value : ∃ v, HasValue format (unpack format (bits 0.95)) v ∧ 1 / 2 ≤ v ∧ v ≤ 31 / 32

namespace BinaryScalar

variable {F : Type} [Scalar F] [BinaryScalar F] {a b : F} {v w x : ℚ}

/-- The number is finite, not below zero and has this value. -/
def Represents (a : F) (v : ℚ) : Prop :=
  HasValue (format F) (unpack (format F) (bits a)) v

/-- The number is above all that are finite. -/
def Overflows (a : F) : Prop :=
  unpack (format F) (bits a) = .infinity .positive

/-- The number is the nearest one of the format, unless this is too large. -/
def RoundsTo (a : F) (x : ℚ) : Prop :=
  (nearest (format F) x < overflowBound (format F) → Represents a (nearest (format F) x)) ∧
    (overflowBound (format F) ≤ nearest (format F) x → Overflows a)

theorem Represents.nonneg (value : Represents a v) : 0 ≤ v :=
  HasValue.nonneg value

theorem Represents.onGrid (value : Represents a v) : OnGrid (format F) v :=
  HasValue.onGrid value

theorem Represents.unique (value : Represents a v) (value' : Represents a w) : v = w :=
  HasValue.eq_of_place_eq value value' rfl

theorem Represents.isFinite (value : Represents a v) : Scalar.isFinite a = true :=
  (isFinite_eq a).trans (HasValue.isFinite value)

theorem Represents.lt_iff (left : Represents a v) (right : Represents b w) : a < b ↔ v < w :=
  (lt_eq a b).trans (HasValue.lt_iff left right)

theorem Represents.le_iff (left : Represents a v) (right : Represents b w) : a ≤ b ↔ v ≤ w :=
  (le_eq a b).trans (HasValue.le_iff left right)

theorem represents_zero : Represents (0 : F) 0 :=
  zero_value

/-- What is stored is below the bound of the format. -/
theorem Represents.lt_overflowBound (value : Represents a v) : v < overflowBound (format F) := by
  unfold Represents at value
  generalize unpacked : unpack (format F) (bits a) = u at value
  cases value with
  | zero sign => exact pow_pos two_pos _
  | finite positive canonical =>
    rw [lt_overflowBound_iff wide_exponent canonical]
    exact (canonical_unpack wide_exponent unpacked).2

theorem Overflows.isFinite_eq_false (overflows : Overflows a) : Scalar.isFinite a = false := by
  rw [isFinite_eq, overflows]
  rfl

theorem Represents.not_overflows (value : Represents a v) : ¬ Overflows a := fun overflows =>
  Bool.false_ne_true (overflows.isFinite_eq_false.symm.trans value.isFinite)

theorem Overflows.pos (overflows : Overflows a) : 0 < a := by
  rw [lt_eq, overflows]
  exact HasValue.lt_infinity represents_zero

/-- A finite number above zero has a value. -/
theorem exists_represents (positive : 0 < a) (finite : Scalar.isFinite a = true) :
    ∃ v, 0 < v ∧ Represents a v := by
  suffices value : ∃ v, Represents a v by
    rcases value with ⟨v, value⟩
    exact ⟨v, (represents_zero.lt_iff value).mp positive, value⟩
  rw [isFinite_eq] at finite
  rw [lt_eq, lt_iff_place] at positive
  unfold Represents
  generalize unpacked : unpack (format F) (bits a) = u at positive finite ⊢
  cases u with
  | notANumber => cases finite
  | infinity sign => cases finite
  | zero sign => exact ⟨0, .zero sign⟩
  | finite sign m e mantissa_pos =>
    cases sign with
    | positive => exact ⟨_, .finite mantissa_pos (canonical_unpack wide_exponent unpacked).1⟩
    | negative =>
      have above := (HasValue.zero_place_le represents_zero).trans_lt positive.2
      simp [place, Prod.Lex.toLex_lt_toLex] at above

/-! ### Operations -/

theorem roundsTo_of_packed {u : UnpackedFloat} (packed : bits a = pack (format F) u)
    (value : HasValue (format F) u (nearest (format F) x)) : RoundsTo a x := by
  have stored := value.unpack_pack wide_exponent
  unfold RoundsTo Represents Overflows
  rw [packed]
  refine ⟨?_, stored.2⟩
  intro below
  rw [stored.1 below]
  exact value

theorem Represents.mul (left : Represents a v) (right : Represents b w) :
    RoundsTo (a * b) (v * w) :=
  roundsTo_of_packed (mul_eq a b) (hasValue_mul left right)

theorem Represents.div (left : Represents a v) (right : Represents b w) (nonzero : w ≠ 0) :
    RoundsTo (a / b) (v / w) :=
  roundsTo_of_packed (div_eq a b) (hasValue_div left right nonzero)

theorem Represents.sub (left : Represents a v) (right : Represents b w) (le : w ≤ v) :
    RoundsTo (a - b) (v - w) :=
  roundsTo_of_packed (sub_eq a b) (hasValue_sub left right le)

/-- A result that is at most a finite number is finite, and is at most that number. -/
theorem RoundsTo.of_le {bound : F} (rounds : RoundsTo a x) (nonneg : 0 ≤ x)
    (finite : Represents bound w) (le : x ≤ w) :
    Represents a (nearest (format F) x) ∧ nearest (format F) x ≤ w := by
  have nearest_le_w := nearest_le nonneg finite.onGrid le
  exact ⟨rounds.1 (nearest_le_w.trans_lt finite.lt_overflowBound), nearest_le_w⟩

/-- A result is a finite number or overflows. -/
theorem RoundsTo.cases (rounds : RoundsTo a x) :
    (Represents a (nearest (format F) x) ∧
      nearest (format F) x < overflowBound (format F)) ∨ Overflows a := by
  rcases lt_or_ge (nearest (format F) x) (overflowBound (format F)) with below | above
  · exact Or.inl ⟨rounds.1 below, below⟩
  · exact Or.inr (rounds.2 above)

theorem unpack_of_packed_infinity (packed : bits a = pack (format F) (.infinity .positive)) :
    Overflows a := by
  unfold Overflows
  rw [packed]
  exact unpack_packedInfinity _

/-- An infinite number stays so when it is multiplied by one that is above zero. -/
theorem Overflows.mul (left : Overflows a) (right : Represents b w) (positive : 0 < w) :
    Overflows (a * b) := by
  refine unpack_of_packed_infinity ?_
  rw [mul_eq, left]
  unfold Represents at right
  generalize unpack (format F) (bits b) = u at right
  cases right with
  | zero sign => exact absurd rfl positive.ne'
  | finite => rfl

theorem Overflows.div (left : Overflows a) (right : Represents b w) (positive : 0 < w) :
    Overflows (a / b) := by
  refine unpack_of_packed_infinity ?_
  rw [div_eq, left]
  unfold Represents at right
  generalize unpack (format F) (bits b) = u at right
  cases right with
  | zero sign => exact absurd rfl positive.ne'
  | finite => rfl

end BinaryScalar

/-! ## The two formats -/

theorem hasValue_of_unpacked {format : Format} {u : UnpackedFloat} {m : ℕ} {e : ℤ}
    (positive : 0 < m) (unpacked : u = .finite .positive m e positive)
    (canonical : Canonical format m e) {v : ℚ} (value : m * 2 ^ e = v) : HasValue format u v :=
  unpacked ▸ value ▸ .finite positive canonical

instance BinaryScalar.binary64 : BinaryScalar Float where
  format := .binary64
  wide_mantissa := by decide
  wide_exponent := by decide
  bits a := a.toModel.toBits.toBitVec
  isFinite_eq _ := rfl
  le_eq _ _ := decide_eq_true_iff
  lt_eq _ _ := decide_eq_true_iff
  add_eq _ _ := rfl
  sub_eq _ _ := rfl
  mul_eq _ _ := rfl
  div_eq _ _ := rfl
  zero_value := .zero _
  one_value := hasValue_of_unpacked (m := 2 ^ 52) (e := -52) (by decide) rfl
    ⟨by decide, by decide, by decide⟩ (by norm_num)
  two_value := hasValue_of_unpacked (m := 2 ^ 52) (e := -51) (by decide) rfl
    ⟨by decide, by decide, by decide⟩ (by norm_num)
  half_value := hasValue_of_unpacked (m := 2 ^ 52) (e := -53) (by decide) rfl
    ⟨by decide, by decide, by decide⟩ (by norm_num)
  near_one_value := ⟨_, hasValue_of_unpacked (m := 8556839292003942) (e := -53) (by decide) rfl
    ⟨by decide, by decide, by decide⟩ rfl, by norm_num, by norm_num⟩

instance BinaryScalar.binary32 : BinaryScalar Float32 where
  format := .binary32
  wide_mantissa := by decide
  wide_exponent := by decide
  bits a := a.toModel.toBits.toBitVec
  isFinite_eq _ := rfl
  le_eq _ _ := decide_eq_true_iff
  lt_eq _ _ := decide_eq_true_iff
  add_eq _ _ := rfl
  sub_eq _ _ := rfl
  mul_eq _ _ := rfl
  div_eq _ _ := rfl
  zero_value := .zero _
  one_value := hasValue_of_unpacked (m := 2 ^ 23) (e := -23) (by decide) rfl
    ⟨by decide, by decide, by decide⟩ (by norm_num)
  two_value := hasValue_of_unpacked (m := 2 ^ 23) (e := -22) (by decide) rfl
    ⟨by decide, by decide, by decide⟩ (by norm_num)
  half_value := hasValue_of_unpacked (m := 2 ^ 23) (e := -24) (by decide) rfl
    ⟨by decide, by decide, by decide⟩ (by norm_num)
  near_one_value := ⟨_, hasValue_of_unpacked (m := 15938355) (e := -24) (by decide) rfl
    ⟨by decide, by decide, by decide⟩ rfl, by norm_num, by norm_num⟩

end ProximalNewton
