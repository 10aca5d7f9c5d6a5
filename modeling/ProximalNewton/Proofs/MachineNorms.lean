import ProximalNewton.Proofs.InfiniteEstimate
import ProximalNewton.Proofs.Tolerance

/-!
# Lengths in a machine format

Sums, squares and roots of numbers that are at least zero are at least zero again, whether
they overflow or not. A product of two of them is at least zero as well, unless it is that
of zero and infinity, which is not a number.

* `nonneg_mul`, `ZeroTimesInfinity.isNaN_mul`: which products of numbers that are at least
  zero are numbers.
* `nonneg_norm`: a length is at least zero when no component is NaN.
-/

namespace ProximalNewton

open Float.Model (Format UnpackedFloat)
open Float.Model.UnpackedFloat

/-! ## Unpacked numbers -/

section Unpacked

variable {format : Format} {u w : UnpackedFloat}

theorem isNaN_roundWithAccuracy (sign : Sign) (m : ℕ) (e : ℤ) (accuracy : Accuracy) :
    (roundWithAccuracy format sign m e accuracy).isNaN = false := by
  unfold roundWithAccuracy
  dsimp only
  split <;> rfl

theorem isNaN_normalize (m : ℤ) (e : ℤ) (sign : Sign) :
    (UnpackedFloat.normalize format m e sign).isNaN = false := by
  unfold UnpackedFloat.normalize
  split
  · exact isNaN_roundWithAccuracy _ _ _ _
  · rfl
  · exact isNaN_roundWithAccuracy _ _ _ _

/-- A sum is not a number unless its terms are numbers. -/
theorem isNaN_unpacked_add_left (unordered : u.isNaN = true) :
    (u.add format w).isNaN = true := by
  cases u with
  | notANumber => cases w <;> rfl
  | _ => cases unordered

/-- A product is not a number unless its factors are numbers. -/
theorem isNaN_unpacked_mul_left (unordered : u.isNaN = true) :
    (u.mul format w).isNaN = true := by
  cases u with
  | notANumber => cases w <;> rfl
  | _ => cases unordered

/-- Only infinities of opposite signs have a sum that is not a number. -/
theorem ordered_add (left : NotNegative u) (right : NotNegative w) (ordered : u.isNaN = false)
    (ordered' : w.isNaN = false) : (u.add format w).isNaN = false := by
  rcases u with (_ | _) | _ | s | ⟨_ | _, _, _, _⟩
  · cases left
  · rcases w with (_ | _) | _ | _ | _ <;> first | rfl | contradiction
  · cases ordered
  · rcases w with (_ | _) | _ | s' | ⟨_ | _, _, _, _⟩
    · cases right
    · rfl
    · cases ordered'
    · cases s <;> cases s' <;> rfl
    · cases right
    · rfl
  · cases left
  · rcases w with (_ | _) | _ | _ | ⟨_ | _, _, _, _⟩
    · cases right
    · rfl
    · cases ordered'
    · rfl
    · cases right
    · exact isNaN_normalize _ _ _

theorem ordered_mul_self (ordered : u.isNaN = false) : (u.mul format u).isNaN = false := by
  cases u with
  | infinity sign => rfl
  | notANumber => cases ordered
  | zero sign => rfl
  | finite sign => exact isNaN_roundWithAccuracy _ _ _ _

/-- A root is not negative, nor is that of a number below zero, which is not a number. -/
theorem notNegative_sqrt (u : UnpackedFloat) : NotNegative (u.sqrt format) := by
  rcases u with (_ | _) | _ | _ | ⟨_ | _, _, _, _⟩
  · trivial
  · trivial
  · trivial
  · trivial
  · trivial
  · exact notNegative_roundWithAccuracy _ _ _

theorem ordered_sqrt (nonneg : NotNegative u) (ordered : u.isNaN = false) :
    (u.sqrt format).isNaN = false := by
  rcases u with (_ | _) | _ | _ | ⟨_ | _, _, _, _⟩
  · cases nonneg
  · rfl
  · cases ordered
  · rfl
  · cases nonneg
  · exact isNaN_roundWithAccuracy _ _ _ _

end Unpacked

theorem HasValue.eq_zero (value : HasValue format u 0) : ∃ sign, u = .zero sign := by
  generalize zero : (0 : ℚ) = v at value
  cases value with
  | zero sign => exact ⟨sign, rfl⟩
  | finite positive canonical =>
    exact absurd zero (mul_pos (Nat.cast_pos.mpr positive) (two_zpow_pos _)).ne

/-! ## Numbers that are not below zero -/

/-- A machine scalar whose roots are computed as its other results are. -/
class RootScalar (F : Type) [Scalar F] [BinaryScalar F] : Prop where
  sqrt_eq : ∀ a : F, BinaryScalar.bits (Scalar.sqrt a) =
    pack (BinaryScalar.format F) ((unpack (BinaryScalar.format F) (BinaryScalar.bits a)).sqrt
      (BinaryScalar.format F))

instance RootScalar.binary64 : RootScalar Float where
  sqrt_eq _ := rfl

instance RootScalar.binary32 : RootScalar Float32 where
  sqrt_eq _ := rfl

section Scalars

open BinaryScalar

variable {F : Type} [Scalar F] [BinaryScalar F] {a b : F} {n : Nat}

theorem BinaryScalar.isNaN_eq (a : F) :
    Scalar.isNaN a = (unpack (format F) (bits a)).isNaN := by
  have own_order : Scalar.isNaN a = false ↔ a ≤ a :=
    ⟨LawfulScalar.le_refl, fun le => (LawfulScalar.ordered_of_le le).1⟩
  rw [le_eq, le_iff_place] at own_order
  simpa using own_order

theorem ordered_of_isFinite (finite : Scalar.isFinite a = true) :
    Scalar.isNaN a = false := by
  rw [isFinite_eq] at finite
  rw [isNaN_eq]
  cases unpacked : unpack (format F) (bits a) with
  | notANumber =>
    rw [unpacked] at finite
    cases finite
  | _ => rfl

/-- A number is at least zero when it is ordered and not negative. -/
theorem nonneg_iff_notNegative :
    0 ≤ a ↔ NotNegative (unpack (format F) (bits a)) ∧ Scalar.isNaN a = false := by
  obtain ⟨sign, zero⟩ := HasValue.eq_zero (represents_zero (F := F))
  rw [le_eq, le_iff_place, isNaN_eq, zero]
  rcases unpack (format F) (bits a) with (_ | _) | _ | _ | ⟨_ | _, _, _, _⟩ <;>
    simp [NotNegative, UnpackedFloat.isNaN, place, Prod.Lex.toLex_le_toLex]

/-- A number that is at least zero has a value or is infinite. -/
theorem nonneg_iff : 0 ≤ a ↔ (∃ v, Represents a v) ∨ Overflows a := by
  constructor
  · intro nonneg
    obtain ⟨not_negative, ordered⟩ := nonneg_iff_notNegative.mp nonneg
    rw [isNaN_eq] at ordered
    unfold Represents Overflows
    generalize unpacked : unpack (format F) (bits a) = u at not_negative ordered
    rcases u with (_ | _) | _ | sign | ⟨_ | _, m, e, mantissa_pos⟩
    · cases not_negative
    · exact Or.inr rfl
    · cases ordered
    · exact Or.inl ⟨0, .zero sign⟩
    · cases not_negative
    · exact Or.inl ⟨_, .finite mantissa_pos (canonical_unpack wide_exponent unpacked).1⟩
  · rintro (⟨v, value⟩ | overflows)
    · exact (represents_zero.le_iff value).mpr value.nonneg
    · exact LawfulScalar.le_of_lt overflows.pos

/-- One of the numbers is zero and the other one infinite. -/
def ZeroTimesInfinity (a b : F) : Prop :=
  (Represents a 0 ∧ Overflows b) ∨ (Overflows a ∧ Represents b 0)

theorem BinaryScalar.Represents.mul_overflows {v : ℚ} (left : Represents a v) (positive : 0 < v)
    (right : Overflows b) : Overflows (a * b) := by
  refine unpack_of_packed_infinity ?_
  rw [mul_eq, right]
  unfold Represents at left
  generalize unpack (format F) (bits a) = u at left
  cases left with
  | zero sign => exact absurd rfl positive.ne'
  | finite => rfl

theorem BinaryScalar.Overflows.mul_overflows (left : Overflows a) (right : Overflows b) :
    Overflows (a * b) := by
  refine unpack_of_packed_infinity ?_
  rw [mul_eq, left, right]
  rfl

theorem ZeroTimesInfinity.isNaN_mul (indeterminate : ZeroTimesInfinity a b) :
    Scalar.isNaN (a * b) = true := by
  rw [isNaN_eq, mul_eq, isNaN_unpack_pack]
  rcases indeterminate with ⟨zero, infinite⟩ | ⟨infinite, zero⟩
  · obtain ⟨sign, zero⟩ := HasValue.eq_zero zero
    rw [zero, infinite]
    rfl
  · obtain ⟨sign, zero⟩ := HasValue.eq_zero zero
    rw [zero, infinite]
    rfl

/-- A product of numbers that are at least zero is at least zero, unless it is that of zero
and infinity. -/
theorem nonneg_mul (left : 0 ≤ a) (right : 0 ≤ b) (determinate : ¬ ZeroTimesInfinity a b) :
    0 ≤ a * b := by
  rw [nonneg_iff] at left right ⊢
  rcases left with ⟨v, left⟩ | left
  · rcases right with ⟨w, right⟩ | right
    · exact (left.mul right).cases.imp (fun inside => ⟨_, inside.1⟩) id
    · rcases left.nonneg.eq_or_lt with rfl | positive
      · exact absurd (Or.inl ⟨left, right⟩) determinate
      · exact Or.inr (left.mul_overflows positive right)
  · rcases right with ⟨w, right⟩ | right
    · rcases right.nonneg.eq_or_lt with rfl | positive
      · exact absurd (Or.inr ⟨left, right⟩) determinate
      · exact Or.inr (left.mul right positive)
    · exact Or.inr (left.mul_overflows right)

/-! ## Inner products and lengths -/

theorem nonneg_add (left : 0 ≤ a) (right : 0 ≤ b) : 0 ≤ a + b := by
  rw [nonneg_iff_notNegative, isNaN_eq] at left right ⊢
  rw [add_eq, isNaN_unpack_pack]
  exact ⟨notNegative_unpack_pack (notNegative_add left.1 right.1),
    ordered_add left.1 right.1 left.2 right.2⟩

theorem nonneg_mul_self (ordered : Scalar.isNaN a = false) : 0 ≤ a * a := by
  rw [isNaN_eq] at ordered
  rw [nonneg_iff_notNegative, isNaN_eq, mul_eq, isNaN_unpack_pack]
  exact ⟨notNegative_unpack_pack (notNegative_mul_self _), ordered_mul_self ordered⟩

theorem nonneg_sqrt [RootScalar F] (nonneg : 0 ≤ a) : 0 ≤ Scalar.sqrt a := by
  rw [nonneg_iff_notNegative, isNaN_eq] at nonneg ⊢
  rw [RootScalar.sqrt_eq, isNaN_unpack_pack]
  exact ⟨notNegative_unpack_pack (notNegative_sqrt _), ordered_sqrt nonneg.1 nonneg.2⟩

theorem isNaN_add_left (unordered : Scalar.isNaN a = true) : Scalar.isNaN (a + b) = true := by
  rw [isNaN_eq] at unordered ⊢
  rw [add_eq, isNaN_unpack_pack]
  exact isNaN_unpacked_add_left unordered

theorem isNaN_mul_left (unordered : Scalar.isNaN a = true) : Scalar.isNaN (a * b) = true := by
  rw [isNaN_eq] at unordered ⊢
  rw [mul_eq, isNaN_unpack_pack]
  exact isNaN_unpacked_mul_left unordered

theorem ordered_of_add (ordered : Scalar.isNaN (a + b) = false) :
    Scalar.isNaN a = false ∧ Scalar.isNaN b = false := by
  rw [← Bool.not_eq_true] at ordered ⊢
  rw [← Bool.not_eq_true]
  exact ⟨fun left => ordered (isNaN_add_left left),
    fun right => ordered (LawfulScalar.isNaN_add_right right)⟩

theorem ordered_of_mul (ordered : Scalar.isNaN (a * b) = false) :
    Scalar.isNaN a = false ∧ Scalar.isNaN b = false := by
  rw [← Bool.not_eq_true] at ordered ⊢
  rw [← Bool.not_eq_true]
  exact ⟨fun left => ordered (isNaN_mul_left left),
    fun right => ordered (LawfulScalar.isNaN_mul_right right)⟩

/-- A sum that is a number is one of numbers. -/
theorem ordered_of_foldl_add {start : F} (terms : List F)
    (ordered : Scalar.isNaN (terms.foldl (· + ·) start) = false) :
    Scalar.isNaN start = false ∧ ∀ term ∈ terms, Scalar.isNaN term = false := by
  induction terms generalizing start with
  | nil => exact ⟨ordered, nofun⟩
  | cons term rest ih =>
    obtain ⟨sum, later⟩ := ih ordered
    obtain ⟨start_ordered, term_ordered⟩ := ordered_of_add sum
    exact ⟨start_ordered, List.forall_mem_cons.mpr ⟨term_ordered, later⟩⟩

theorem nonneg_foldl_add {start : F} (terms : List F) (nonneg : 0 ≤ start)
    (all : ∀ term ∈ terms, 0 ≤ term) : 0 ≤ terms.foldl (· + ·) start := by
  induction terms generalizing start with
  | nil => exact nonneg
  | cons term rest ih =>
    obtain ⟨first, later⟩ := List.forall_mem_cons.mp all
    exact ih (nonneg_add nonneg first) later

/-- An inner product that is a number is one of vectors of numbers. -/
theorem allOrdered_of_dot {v w : Vector F n} (ordered : Scalar.isNaN (dot v w) = false) :
    AllOrdered v ∧ AllOrdered w := by
  rw [dot_eq_foldl_toList] at ordered
  have terms := (ordered_of_foldl_add _ ordered).2
  have product : ∀ (i : Nat) (inside : i < n), Scalar.isNaN (v[i] * w[i]) = false := by
    intro i inside
    refine terms _ (List.mem_iff_getElem.mpr ⟨i, by simpa using inside, ?_⟩)
    simp
  exact ⟨fun i inside => (ordered_of_mul (product i inside)).1,
    fun i inside => (ordered_of_mul (product i inside)).2⟩

/-- A length is at least zero when the components are numbers. -/
theorem nonneg_norm [RootScalar F] {v : Vector F n} (ordered : AllOrdered v) : 0 ≤ norm v := by
  have zero : (0 : F) ≤ 0 := LawfulScalar.le_refl LawfulScalar.ordered_zero
  refine nonneg_sqrt ?_
  unfold normSq
  rw [dot_eq_foldl_toList, List.zipWith_self]
  refine nonneg_foldl_add _ zero ?_
  intro term member
  obtain ⟨component, present, rfl⟩ := List.mem_map.mp member
  obtain ⟨i, inside, rfl⟩ := List.mem_iff_getElem.mp present
  refine nonneg_mul_self ?_
  simpa using ordered i (by simpa using inside)

end Scalars

end ProximalNewton
