import Mathlib
import ProximalNewton.Proofs.ScalarLaws

/-!
# The laws of the machine formats

Binary64 and binary32 values are compared by kind, exponent and mantissa. Every
number gets a `place` in a lexicographic order of integers, and comparing two
numbers is comparing their places, so that the order laws of `LawfulScalar` are
those of the places. Operations unpack their operands and pack their result, and
packing neither makes nor removes a value that is not a number.
-/

namespace ProximalNewton

open Float.Model

/-! ## Places -/

/-- Where a number stands among the others: its kind and sign, then its exponent,
then its mantissa, the last two reversed below zero. -/
def place : UnpackedFloat → ℤ ×ₗ ℤ ×ₗ ℤ
  | .infinity .negative => toLex (-2, toLex (0, 0))
  | .finite .negative mantissa exponent _ => toLex (-1, toLex (-exponent, -mantissa))
  | .zero _ => toLex (0, toLex (0, 0))
  | .finite .positive mantissa exponent _ => toLex (1, toLex (exponent, mantissa))
  | .infinity .positive => toLex (2, toLex (0, 0))
  | .notANumber => toLex (0, toLex (0, 0))

theorem compare_toLex {α β : Type} [LinearOrder α] [LinearOrder β] (a a' : α) (b b' : β) :
    compare (toLex (a, b)) (toLex (a', b')) = (compare a a').then (compare b b') := by
  rw [Prod.Lex.compare_def]
  rfl

theorem compare_neg_neg (a b : ℤ) : compare (-a) (-b) = compare b a := by
  rcases lt_trichotomy a b with below | rfl | above
  · rw [compare_gt_iff_gt.mpr below, compare_gt_iff_gt.mpr (Int.neg_lt_neg below)]
  · rw [compare_eq_iff_eq.mpr rfl, compare_eq_iff_eq.mpr rfl]
  · rw [compare_lt_iff_lt.mpr above, compare_lt_iff_lt.mpr (Int.neg_lt_neg above)]

theorem compare_natCast (a b : ℕ) : compare (a : ℤ) (b : ℤ) = compare a b := by
  rcases lt_trichotomy a b with below | rfl | above
  · rw [compare_lt_iff_lt.mpr below, compare_lt_iff_lt.mpr (Int.ofNat_lt.mpr below)]
  · rw [compare_eq_iff_eq.mpr rfl, compare_eq_iff_eq.mpr rfl]
  · rw [compare_gt_iff_gt.mpr above, compare_gt_iff_gt.mpr (Int.ofNat_lt.mpr above)]

/-- Two numbers compare as their places do. -/
theorem compare_eq_place {a b : UnpackedFloat} (ordered_a : a.isNaN = false)
    (ordered_b : b.isNaN = false) : a.compare b = some (compare (place a) (place b)) := by
  rcases a with (_ | _) | _ | _ | ⟨_ | _, m, e, _⟩ <;>
  rcases b with (_ | _) | _ | _ | ⟨_ | _, m', e', _⟩ <;>
  first
  | rfl
  | contradiction
  | simp [UnpackedFloat.compare, place, compare_toLex, compare_neg_neg, compare_natCast,
      Ordering.swap_then, Int.compare_swap, Nat.compare_swap]

/-- A value that is not a number compares with nothing. -/
theorem compare_eq_none {a b : UnpackedFloat} (unordered : ¬ (a.isNaN = false ∧ b.isNaN = false)) :
    a.compare b = none := by
  cases a with
  | notANumber => rfl
  | infinity sign =>
    cases b with
    | notANumber => cases sign <;> rfl
    | _ => exact absurd ⟨rfl, rfl⟩ unordered
  | zero sign =>
    cases b with
    | notANumber => rfl
    | _ => exact absurd ⟨rfl, rfl⟩ unordered
  | finite sign mantissa exponent positive =>
    cases b with
    | notANumber => cases sign <;> rfl
    | _ => exact absurd ⟨rfl, rfl⟩ unordered

/-- One value is at most another when both are numbers and their places say so. -/
theorem le_iff_place {a b : UnpackedFloat} :
    a.le b = true ↔ (a.isNaN = false ∧ b.isNaN = false) ∧ place a ≤ place b := by
  unfold UnpackedFloat.le
  by_cases ordered : a.isNaN = false ∧ b.isNaN = false
  · rw [compare_eq_place ordered.1 ordered.2, Option.any_some,
      ← Ordering.ne_gt_iff_isLE]
    exact compare_le_iff_le.trans (and_iff_right ordered).symm
  · rw [compare_eq_none ordered]
    simp [ordered]

theorem lt_iff_place {a b : UnpackedFloat} :
    a.lt b = true ↔ (a.isNaN = false ∧ b.isNaN = false) ∧ place a < place b := by
  unfold UnpackedFloat.lt
  by_cases ordered : a.isNaN = false ∧ b.isNaN = false
  · rw [compare_eq_place ordered.1 ordered.2, beq_iff_eq, Option.some_inj, compare_lt_iff_lt]
    exact (and_iff_right ordered).symm
  · rw [compare_eq_none ordered]
    simp [ordered]

/-! ## Packing -/

/-- A bit pattern is not a number when its exponent field is full and its
mantissa field is not empty. -/
theorem isNaN_unpack (spec : Format) (bits : BitVec spec.numBits) :
    (UnpackedFloat.unpack spec bits).isNaN = true ↔
      UnpackedFloat.unpackExponent bits = -1#_ ∧ UnpackedFloat.unpackMantissa bits ≠ 0#_ := by
  unfold UnpackedFloat.unpack
  dsimp only
  split
  · split
    · simp_all [UnpackedFloat.isNaN]
    · simp_all [UnpackedFloat.isNaN]
  · split
    · split
      · simp_all [UnpackedFloat.isNaN]
      · simp_all [UnpackedFloat.isNaN]
    · simp_all [UnpackedFloat.isNaN]

/-- Packing a value neither makes nor removes one that is not a number. -/
theorem isNaN_unpack_pack (spec : Format) (value : UnpackedFloat) :
    (UnpackedFloat.unpack spec (UnpackedFloat.pack spec value)).isNaN = value.isNaN := by
  rw [Bool.eq_iff_iff, isNaN_unpack]
  fun_cases UnpackedFloat.pack spec value with
  | case1 =>
    have top : BitVec.ofNat spec.mantissaBitsWithoutImplicit 1 <<<
        (spec.mantissaBitsWithoutImplicit - 1) ≠ 0#_ := by
      have wide := spec.hm
      intro zero
      have bit := congrArg (·.getLsbD (spec.mantissaBitsWithoutImplicit - 1)) zero
      simp at bit
      omega
    simpa [UnpackedFloat.packedNaN, UnpackedFloat.isNaN] using top
  | case2 => simp [UnpackedFloat.packedInfinity, UnpackedFloat.isNaN]
  | case3 => simp [UnpackedFloat.packedZero, UnpackedFloat.isNaN]
  | case4 => simp [UnpackedFloat.packedInfinity, UnpackedFloat.isNaN]
  | case5 s m e positive actual biased small normal =>
    -- a normal number leaves the exponent field short of full
    have short : biased % 2 ^ spec.exponentBits ≠ 2 ^ spec.exponentBits - 1 := by
      rw [Nat.mod_eq_of_lt (by omega)]
      omega
    simp [UnpackedFloat.isNaN, BitVec.neg_one_eq_allOnes, ← BitVec.toNat_inj, short]
  | case6 s m e positive actual biased small subnormal =>
    have full : 0 ≠ 2 ^ spec.exponentBits - 1 := by
      have := Nat.one_lt_two_pow (Nat.ne_of_gt spec.he)
      omega
    simp [UnpackedFloat.isNaN, BitVec.neg_one_eq_allOnes, ← BitVec.toNat_inj, full]

/-! ## Operations on values that are not numbers -/

theorem isNaN_unpacked_abs (value : UnpackedFloat) : value.abs.isNaN = value.isNaN := by
  cases value <;> rfl

theorem isNaN_unpacked_add {spec : Format} {a b : UnpackedFloat} (unordered : b.isNaN = true) :
    (UnpackedFloat.add spec a b).isNaN = true := by
  cases b with
  | notANumber => cases a <;> rfl
  | _ => cases unordered

theorem isNaN_unpacked_sub {spec : Format} {a b : UnpackedFloat} (unordered : b.isNaN = true) :
    (UnpackedFloat.sub spec a b).isNaN = true := by
  cases b with
  | notANumber => cases a <;> rfl
  | _ => cases unordered

theorem isNaN_unpacked_mul {spec : Format} {a b : UnpackedFloat} (unordered : b.isNaN = true) :
    (UnpackedFloat.mul spec a b).isNaN = true := by
  cases b with
  | notANumber => cases a <;> rfl
  | _ => cases unordered

/-! ## The two formats -/

/-- A scalar that computes with unpacked values and packs its results is lawful. -/
theorem lawfulScalar_of_unpack {F : Type} [Scalar F] (spec : Format) (unpack : F → UnpackedFloat)
    (isNaN_eq : ∀ a : F, Scalar.isNaN a = (unpack a).isNaN)
    (le_eq : ∀ a b : F, a ≤ b ↔ (unpack a).le (unpack b) = true)
    (lt_eq : ∀ a b : F, a < b ↔ (unpack a).lt (unpack b) = true)
    (ordered_zero : (unpack 0).isNaN = false)
    (isNaN_abs_eq : ∀ a : F, (unpack (Scalar.abs a)).isNaN = (unpack a).abs.isNaN)
    (isNaN_add_eq : ∀ a b : F, (unpack (a + b)).isNaN = ((unpack a).add spec (unpack b)).isNaN)
    (isNaN_sub_eq : ∀ a b : F, (unpack (a - b)).isNaN = ((unpack a).sub spec (unpack b)).isNaN)
    (isNaN_mul_eq : ∀ a b : F, (unpack (a * b)).isNaN = ((unpack a).mul spec (unpack b)).isNaN) :
    LawfulScalar F where
  ordered_of_le {a b} le := by
    rw [isNaN_eq, isNaN_eq]
    exact (le_iff_place.mp ((le_eq a b).mp le)).1
  le_total {a b} ordered_a ordered_b := by
    rw [isNaN_eq] at ordered_a ordered_b
    rw [le_eq, le_eq, le_iff_place, le_iff_place]
    rcases le_total (place (unpack a)) (place (unpack b)) with le | le
    · exact Or.inl ⟨⟨ordered_a, ordered_b⟩, le⟩
    · exact Or.inr ⟨⟨ordered_b, ordered_a⟩, le⟩
  le_trans {a b c} le_ab le_bc := by
    rw [le_eq, le_iff_place] at le_ab le_bc ⊢
    exact ⟨⟨le_ab.1.1, le_bc.1.2⟩, le_ab.2.trans le_bc.2⟩
  lt_iff {a b} := by
    rw [lt_eq, le_eq, le_eq, lt_iff_place, le_iff_place, le_iff_place]
    constructor
    · intro below
      rcases below with ⟨ordered, lt⟩
      exact ⟨⟨ordered, lt.le⟩, fun above => lt.not_ge above.2⟩
    · intro below
      rcases below with ⟨⟨ordered, -⟩, not_above⟩
      exact ⟨ordered, lt_of_not_ge fun above => not_above ⟨ordered.symm, above⟩⟩
  ordered_zero := (isNaN_eq 0).trans ordered_zero
  isNaN_abs a := by
    rw [isNaN_eq, isNaN_eq, isNaN_abs_eq, isNaN_unpacked_abs]
  isNaN_add_right {a b} unordered := by
    rw [isNaN_eq] at unordered ⊢
    exact (isNaN_add_eq a b).trans (isNaN_unpacked_add unordered)
  isNaN_sub_right {a b} unordered := by
    rw [isNaN_eq] at unordered ⊢
    exact (isNaN_sub_eq a b).trans (isNaN_unpacked_sub unordered)
  isNaN_mul_right {a b} unordered := by
    rw [isNaN_eq] at unordered ⊢
    exact (isNaN_mul_eq a b).trans (isNaN_unpacked_mul unordered)

instance LawfulScalar.binary64 : LawfulScalar Float :=
  lawfulScalar_of_unpack .binary64 (fun a => a.toModel.unpack) (fun _ => rfl)
    (fun _ _ => decide_eq_true_iff) (fun _ _ => decide_eq_true_iff) (by decide +kernel)
    (fun _ => isNaN_unpack_pack _ _) (fun _ _ => isNaN_unpack_pack _ _)
    (fun _ _ => isNaN_unpack_pack _ _) (fun _ _ => isNaN_unpack_pack _ _)

instance LawfulScalar.binary32 : LawfulScalar Float32 :=
  lawfulScalar_of_unpack .binary32 (fun a => a.toModel.unpack) (fun _ => rfl)
    (fun _ _ => decide_eq_true_iff) (fun _ _ => decide_eq_true_iff) (by decide +kernel)
    (fun _ => isNaN_unpack_pack _ _) (fun _ _ => isNaN_unpack_pack _ _)
    (fun _ _ => isNaN_unpack_pack _ _) (fun _ _ => isNaN_unpack_pack _ _)

end ProximalNewton
