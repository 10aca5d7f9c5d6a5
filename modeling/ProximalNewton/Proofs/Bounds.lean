import ProximalNewton.Proofs.MachineNorms

/-!
# A box through its bounds

A box stores only the ends that bound it. Its owner gives and sees a lower and an upper bound
for every component, with minus and plus infinity for the sides that are open
(`Box.lowerBounds_ofBounds`, `Box.upperBounds_ofBounds`). In a machine format nothing is lost
between the two views: what an interval contains, where it moves a value and whether it is
valid are the comparisons with its bounds (`Interval.contains_iff_bounds`,
`Interval.clamp_eq_bounds`, `Interval.valid_iff_bounds`).

An infinite bound on its own side moves nothing. On the wrong side it moves everything: a
component between plus infinity and plus infinity has no defect, and every finite number is
moved there. `Box.clampsToFinite_iff` tells which of the accepted boxes take finite vectors to
finite vectors, and `Box.not_clampsToFinite` that some do not.
-/

namespace ProximalNewton

open BinaryScalar
open Float.Model (Format UnpackedFloat)

/-! ## Infinite values -/

section Unpacked

open Float.Model.UnpackedFloat

theorem toBitVec_ofBitVec (sign : BitVec 1) : (Sign.ofBitVec sign).toBitVec = sign := by
  revert sign
  decide

/-- A stored value is made of its fields. -/
theorem packComponents_unpack {format : Format} (bits : BitVec format.numBits) :
    packComponents format (Sign.ofBitVec (unpackSign bits)) (unpackExponent bits)
      (unpackMantissa bits) = bits := by
  have mantissa_pos := format.hm
  have exponent_pos := format.he
  apply BitVec.eq_of_getLsbD_eq
  intro i inside
  unfold Format.numBits at inside
  rw [packComponents, toBitVec_ofBitVec, BitVec.getLsbD_append, BitVec.getLsbD_append]
  unfold unpackSign unpackExponent unpackMantissa
  split
  · simp
    omega
  · split
    · have place : format.mantissaBitsWithoutImplicit +
          (i - format.mantissaBitsWithoutImplicit) = i := by omega
      simp [place]
      omega
    · have place : format.mantissaBitsWithoutImplicit + format.exponentBits +
          (i - format.mantissaBitsWithoutImplicit - format.exponentBits) = i := by omega
      simp [place]
      omega

/-- An infinite value is stored in one way. -/
theorem eq_packedInfinity {format : Format} {bits : BitVec format.numBits} {sign : Sign}
    (infinite : unpack format bits = .infinity sign) : bits = packedInfinity format sign := by
  have made := packComponents_unpack bits
  unfold unpack at infinite
  dsimp only at infinite
  split at infinite
  · rename_i full
    split at infinite
    · rename_i empty
      cases infinite
      rw [full, empty] at made
      exact made.symm
    · cases infinite
  · split at infinite
    · split at infinite <;> cases infinite
    · cases infinite

end Unpacked

open Float.Model.UnpackedFloat (unpack)

/-- A machine scalar that is its bits, and whose infinite value is that of its format. -/
class InfiniteScalar (F : Type) [MachineScalar F] [BinaryScalar F] : Prop where
  bits_injective : ∀ {a b : F}, bits a = bits b → a = b
  unpack_infinity : unpack (format F) (bits (MachineScalar.infinity : F)) = .infinity .positive
  unpack_neg_infinity :
    unpack (format F) (bits (-MachineScalar.infinity : F)) = .infinity .negative

instance InfiniteScalar.binary64 : InfiniteScalar Float where
  bits_injective {a b} same := by
    rcases a with ⟨⟨a, _⟩⟩
    rcases b with ⟨⟨b, _⟩⟩
    cases UInt64.toBitVec_inj.mp same
    rfl
  unpack_infinity := rfl
  unpack_neg_infinity := rfl

instance InfiniteScalar.binary32 : InfiniteScalar Float32 where
  bits_injective {a b} same := by
    rcases a with ⟨⟨a, _⟩⟩
    rcases b with ⟨⟨b, _⟩⟩
    cases UInt32.toBitVec_inj.mp same
    rfl
  unpack_infinity := rfl
  unpack_neg_infinity := rfl

section Machine

open InfiniteScalar MachineScalar

variable {F : Type} [MachineScalar F] [BinaryScalar F] [InfiniteScalar F]

section Infinities

variable {a : F}

theorem le_infinity_iff : a ≤ infinity ↔ Scalar.isNaN a = false := by
  rw [le_eq, le_iff_place, isNaN_eq, unpack_infinity]
  rcases unpack (format F) (bits a) with (_ | _) | _ | _ | ⟨_ | _, _, _, _⟩ <;>
    simp [UnpackedFloat.isNaN, place, Prod.Lex.toLex_le_toLex]

theorem neg_infinity_le_iff : -infinity ≤ a ↔ Scalar.isNaN a = false := by
  rw [le_eq, le_iff_place, isNaN_eq, unpack_neg_infinity]
  rcases unpack (format F) (bits a) with (_ | _) | _ | _ | ⟨_ | _, _, _, _⟩ <;>
    simp [UnpackedFloat.isNaN, place, Prod.Lex.toLex_le_toLex]

/-- The finite values are those between the infinite ones. -/
theorem isFinite_iff : Scalar.isFinite a = true ↔ -infinity < a ∧ a < infinity := by
  rw [isFinite_eq, lt_eq, lt_eq, lt_iff_place, lt_iff_place, unpack_infinity, unpack_neg_infinity]
  rcases unpack (format F) (bits a) with (_ | _) | _ | _ | ⟨_ | _, _, _, _⟩ <;>
    simp [UnpackedFloat.isNaN, UnpackedFloat.isFinite, place, Prod.Lex.toLex_lt_toLex]

theorem ordered_infinity : Scalar.isNaN (infinity : F) = false := by
  rw [isNaN_eq, unpack_infinity]
  rfl

theorem ordered_neg_infinity : Scalar.isNaN (-infinity : F) = false := by
  rw [isNaN_eq, unpack_neg_infinity]
  rfl

theorem not_lt_neg_infinity : ¬ a < -infinity := by
  intro below
  have known := (LawfulScalar.ordered_of_lt below).1
  exact (LawfulScalar.lt_iff.mp below).2 (neg_infinity_le_iff.mpr known)

theorem not_infinity_lt : ¬ infinity < a := by
  intro above
  have known := (LawfulScalar.ordered_of_lt above).2
  exact (LawfulScalar.lt_iff.mp above).2 (le_infinity_iff.mpr known)

/-- A number that is not finite is one of the two infinite values. -/
theorem eq_infinity_of_not_finite (ordered : Scalar.isNaN a = false)
    (infinite : Scalar.isFinite a = false) : a = -infinity ∨ a = infinity := by
  rw [isNaN_eq] at ordered
  rw [isFinite_eq] at infinite
  cases unpacked : unpack (format F) (bits a) with
  | notANumber => rw [unpacked] at ordered; cases ordered
  | zero sign => rw [unpacked] at infinite; cases infinite
  | finite sign m e positive => rw [unpacked] at infinite; cases infinite
  | infinity sign =>
    have stored := eq_packedInfinity unpacked
    cases sign with
    | negative => exact .inl (bits_injective
        (stored.trans (eq_packedInfinity unpack_neg_infinity).symm))
    | positive => exact .inr (bits_injective
        (stored.trans (eq_packedInfinity unpack_infinity).symm))

theorem eq_of_isNegInfinite (infinite : isNegInfinite a = true) : a = -infinity := by
  unfold isNegInfinite at infinite
  simp only [Bool.and_eq_true, Bool.not_eq_true', decide_eq_true_eq] at infinite
  obtain ⟨⟨ordered, not_finite⟩, below⟩ := infinite
  rcases eq_infinity_of_not_finite ordered not_finite with least | rfl
  · exact least
  · exact absurd (le_infinity_iff.mpr LawfulScalar.ordered_zero) (LawfulScalar.lt_iff.mp below).2

theorem eq_of_isPosInfinite (infinite : isPosInfinite a = true) : a = infinity := by
  unfold isPosInfinite at infinite
  simp only [Bool.and_eq_true, Bool.not_eq_true', decide_eq_true_eq] at infinite
  obtain ⟨⟨ordered, not_finite⟩, above⟩ := infinite
  rcases eq_infinity_of_not_finite ordered not_finite with rfl | greatest
  · exact absurd (neg_infinity_le_iff.mpr LawfulScalar.ordered_zero)
      (LawfulScalar.lt_iff.mp above).2
  · exact greatest

end Infinities

/-! ## The bounds of an interval -/

namespace Interval

/-- The lower bound, minus infinity where the side is open. -/
def lowerBound (side : Interval F) : F :=
  side.lower.getD (-infinity)

/-- The upper bound, plus infinity where the side is open. -/
def upperBound (side : Interval F) : F :=
  side.upper.getD infinity

@[simp]
theorem lowerBound_ofBounds (lower upper : F) : (ofBounds lower upper).lowerBound = lower := by
  unfold lowerBound ofBounds
  dsimp only
  split
  · exact (eq_of_isNegInfinite ‹_›).symm
  · rfl

@[simp]
theorem upperBound_ofBounds (lower upper : F) : (ofBounds lower upper).upperBound = upper := by
  unfold upperBound ofBounds
  dsimp only
  split
  · exact (eq_of_isPosInfinite ‹_›).symm
  · rfl

variable {side : Interval F} {value : F}

/-- Some end is not a number exactly when some bound is not one. -/
theorem unordered_iff_bounds : side.Unordered ↔
    Scalar.isNaN side.lowerBound = true ∨ Scalar.isNaN side.upperBound = true := by
  rcases side with ⟨_ | low, _ | high⟩ <;>
    simp [Unordered, lowerBound, upperBound, ordered_infinity, ordered_neg_infinity]

/-- The ends are inverted exactly when the bounds are, and then they are the bounds. -/
theorem inversion?_eq_bounds : side.inversion? =
    if side.upperBound < side.lowerBound then some (side.lowerBound, side.upperBound) else none := by
  rcases side with ⟨_ | low, _ | high⟩
  · exact (if_neg not_lt_neg_infinity).symm
  · exact (if_neg not_lt_neg_infinity).symm
  · exact (if_neg not_infinity_lt).symm
  · rfl

/-- A valid interval is one whose bounds are in order. -/
theorem valid_iff_bounds : side.Valid ↔ side.lowerBound ≤ side.upperBound := by
  have not_crossed : (∀ low ∈ side.lower, ∀ high ∈ side.upper, ¬ high < low) ↔
      ¬ side.upperBound < side.lowerBound := by
    rcases side with ⟨_ | low, _ | high⟩ <;>
      simp [lowerBound, upperBound, not_lt_neg_infinity, not_infinity_lt]
  unfold Valid
  rw [unordered_iff_bounds, not_crossed, not_or, Bool.not_eq_true, Bool.not_eq_true]
  constructor
  · rintro ⟨⟨low_ordered, high_ordered⟩, not_crossed⟩
    exact LawfulScalar.le_of_not_lt high_ordered low_ordered not_crossed
  · intro le
    exact ⟨LawfulScalar.ordered_of_le le, fun crossed => (LawfulScalar.lt_iff.mp crossed).2 le⟩

/-- A member is a number between the bounds. -/
theorem contains_iff_bounds :
    side.Contains value ↔ side.lowerBound ≤ value ∧ value ≤ side.upperBound := by
  rcases side with ⟨_ | low, _ | high⟩
  · simp [Contains, lowerBound, upperBound, le_infinity_iff, neg_infinity_le_iff]
  · simp [Contains, lowerBound, upperBound, neg_infinity_le_iff]
  · simp [Contains, lowerBound, upperBound, le_infinity_iff, and_comm]
  · simp only [Contains, lowerBound, upperBound, Option.mem_def, Option.some.injEq, forall_eq',
      Option.getD_some, and_iff_right_iff_imp]
    intro between
    exact (LawfulScalar.ordered_of_le between.1).2

/-- A value is moved to the bound that it lies beyond. -/
theorem clamp_eq_bounds (side : Interval F) (value : F) : side.clamp value =
    if value < side.lowerBound then side.lowerBound
    else if side.upperBound < value then side.upperBound else value := by
  rcases side with ⟨_ | low, _ | high⟩
  · simp [clamp, violated?, lowerBound, upperBound, not_lt_neg_infinity, not_infinity_lt]
  · by_cases above : high < value <;>
      simp [clamp, violated?, lowerBound, upperBound, Option.filter_some, not_lt_neg_infinity,
        above]
  · by_cases below : value < low <;>
      simp [clamp, violated?, lowerBound, upperBound, Option.filter_some, not_infinity_lt, below]
  · by_cases below : value < low <;> by_cases above : high < value <;>
      simp [clamp, violated?, lowerBound, upperBound, Option.filter_some, below, above]

end Interval

/-! ## The bounds of a box -/

namespace Box

variable {n : Nat}

omit [BinaryScalar F] [InfiniteScalar F] in
@[simp]
theorem getElem_lowerBounds (box : Box F n) (i : Nat) (inside : i < n) :
    box.lowerBounds[i] = box.sides[i].lowerBound := by
  simp [lowerBounds, Interval.lowerBound]

omit [BinaryScalar F] [InfiniteScalar F] in
@[simp]
theorem getElem_upperBounds (box : Box F n) (i : Nat) (inside : i < n) :
    box.upperBounds[i] = box.sides[i].upperBound := by
  simp [upperBounds, Interval.upperBound]

/-- A box shows the lower bounds that it was made with. -/
@[simp]
theorem lowerBounds_ofBounds (lower upper : Vector F n) :
    (ofBounds lower upper).lowerBounds = lower := by
  ext i inside
  simp [ofBounds]

/-- A box shows the upper bounds that it was made with. -/
@[simp]
theorem upperBounds_ofBounds (lower upper : Vector F n) :
    (ofBounds lower upper).upperBounds = upper := by
  ext i inside
  simp [ofBounds]

end Box

/-! ## Finite vectors -/

variable {n : Nat}

/-- Every component of the vector is finite. -/
def AllFinite (v : Vector F n) : Prop :=
  ∀ (i : Nat) (inside : i < n), Scalar.isFinite v[i] = true

namespace Box

/-- What becomes of component `i` of `v` under projection: it is kept, or it lay beyond a
finite bound and is moved there. -/
def KeptOrMoved (box : Box F n) (v : Vector F n) (i : Nat) (inside : i < n) : Prop :=
  (box.project v)[i] = v[i] ∨
  (v[i] < box.lowerBounds[i] ∧ (box.project v)[i] = box.lowerBounds[i] ∧
    Scalar.isFinite box.lowerBounds[i] = true) ∨
  (box.upperBounds[i] < v[i] ∧ (box.project v)[i] = box.upperBounds[i] ∧
    Scalar.isFinite box.upperBounds[i] = true)

/-- Projection takes the finite vectors to finite vectors, and infinite bounds have no part
in it. -/
def ClampsToFinite (box : Box F n) : Prop :=
  ∀ v, AllFinite v → AllFinite (box.project v) ∧
    ∀ (i : Nat) (inside : i < n), box.KeptOrMoved v i inside

/-- Every infinite bound leaves its side open: no lower bound is plus infinity and no upper
bound is minus infinity. -/
def InfiniteBoundsOpen (box : Box F n) : Prop :=
  ∀ (i : Nat) (inside : i < n),
    box.lowerBounds[i] < infinity ∧ -infinity < box.upperBounds[i]

end Box

/-- A finite value that lies beyond a bound is moved to a finite one, when an infinite bound
is on its own side. -/
theorem Interval.clamp_of_isFinite {side : Interval F} {value : F}
    (lower_open : side.lowerBound < infinity) (upper_open : -infinity < side.upperBound)
    (finite : Scalar.isFinite value = true) :
    side.clamp value = value ∨
    (value < side.lowerBound ∧ side.clamp value = side.lowerBound ∧
      Scalar.isFinite side.lowerBound = true) ∨
    (side.upperBound < value ∧ side.clamp value = side.upperBound ∧
      Scalar.isFinite side.upperBound = true) := by
  obtain ⟨above_least, below_greatest⟩ := isFinite_iff.mp finite
  rw [side.clamp_eq_bounds value]
  split
  case isTrue below =>
    have bounded := isFinite_iff.mpr
      ⟨LawfulScalar.lt_of_lt_of_le above_least (LawfulScalar.le_of_lt below), lower_open⟩
    exact .inr (.inl ⟨below, rfl, bounded⟩)
  case isFalse =>
    split
    case isTrue above =>
      have bounded := isFinite_iff.mpr
        ⟨upper_open, LawfulScalar.lt_of_le_of_lt (LawfulScalar.le_of_lt above) below_greatest⟩
      exact .inr (.inr ⟨above, rfl, bounded⟩)
    case isFalse => exact .inl rfl

/-- A valid interval that takes some number to a finite one has no infinite bound on the
wrong side. -/
theorem Interval.Valid.open_of_isFinite_clamp {side : Interval F} (valid : side.Valid)
    {value : F} (finite : Scalar.isFinite (side.clamp value) = true)
    (ordered : Scalar.isNaN value = false) :
    side.lowerBound < infinity ∧ -infinity < side.upperBound := by
  obtain ⟨above, below⟩ := contains_iff_bounds.mp (contains_clamp valid ordered)
  obtain ⟨above_least, below_greatest⟩ := isFinite_iff.mp finite
  exact ⟨LawfulScalar.lt_of_le_of_lt above below_greatest,
    LawfulScalar.lt_of_lt_of_le above_least below⟩

namespace Box

/-- **Infinite bounds never clamp, on their own side.** A box that is accepted takes the
finite vectors to finite vectors, moving a component only to a finite bound, exactly when
none of its lower bounds is plus infinity and none of its upper bounds minus infinity. A
component between two bounds that are the same infinity is accepted, and the exception. -/
theorem clampsToFinite_iff (role : Role) (box : Box F n) (accepted : box.validate role = .ok ()) :
    box.ClampsToFinite ↔ box.InfiniteBoundsOpen := by
  have valid := validate_eq_ok_iff.mp accepted
  constructor
  · intro clamps i inside
    have zero_finite : Scalar.isFinite (0 : F) = true := represents_zero.isFinite
    obtain ⟨finite, -⟩ := clamps (Vector.replicate n 0) fun j _ => by simpa using zero_finite
    have landed := finite i inside
    rw [getElem_project, Vector.getElem_replicate] at landed
    rw [getElem_lowerBounds, getElem_upperBounds]
    exact (valid i inside).open_of_isFinite_clamp landed LawfulScalar.ordered_zero
  · intro bounds_open v finite
    have moved : ∀ (i : Nat) (inside : i < n), box.KeptOrMoved v i inside := by
      intro i inside
      obtain ⟨lower_open, upper_open⟩ := bounds_open i inside
      unfold KeptOrMoved
      rw [getElem_lowerBounds] at lower_open ⊢
      rw [getElem_upperBounds] at upper_open ⊢
      rw [getElem_project]
      exact Interval.clamp_of_isFinite lower_open upper_open (finite i inside)
    refine ⟨fun i inside => ?_, moved⟩
    rcases moved i inside with kept | ⟨-, landed, bounded⟩ | ⟨-, landed, bounded⟩
    · rw [kept]
      exact finite i inside
    · rw [landed]
      exact bounded
    · rw [landed]
      exact bounded

end Box

end Machine

/-! ## Boxes at infinity -/

/-- The nonnegative numbers, then those up to two, in binary64. -/
def halfLines : Box Float 2 :=
  .ofBounds #v[0, -MachineScalar.infinity] #v[MachineScalar.infinity, 2]

/-- The half lines take finite vectors to finite vectors. -/
theorem Box.clampsToFinite_halfLines :
    halfLines.validate .C = .ok () ∧ halfLines.ClampsToFinite := by
  have accepted : halfLines.validate .C = .ok () := validate_eq_ok_iff.mpr (by decide +kernel)
  have bounds_open : halfLines.InfiniteBoundsOpen := by
    unfold InfiniteBoundsOpen
    decide +kernel
  exact ⟨accepted, (Box.clampsToFinite_iff .C halfLines accepted).mpr bounds_open⟩

/-- The box whose only member is plus infinity, in binary64. -/
def infinitePoint : Box Float 1 :=
  .singleton #v[MachineScalar.infinity]

/-- Not every box that is accepted takes finite vectors to finite vectors: one whose bounds
are both plus infinity is, and moves zero there. -/
theorem Box.not_clampsToFinite :
    ¬ ∀ {n : Nat} (role : Role) (box : Box Float n),
      box.validate role = .ok () → box.ClampsToFinite := by
  intro every
  have accepted : infinitePoint.validate .C = .ok () := validate_eq_ok_iff.mpr (by decide +kernel)
  obtain ⟨finite, -⟩ := every .C infinitePoint accepted #v[0] (by unfold AllFinite; decide +kernel)
  have moved : ¬ AllFinite (infinitePoint.project #v[0]) := by
    unfold AllFinite
    decide +kernel
  exact moved finite

end ProximalNewton
