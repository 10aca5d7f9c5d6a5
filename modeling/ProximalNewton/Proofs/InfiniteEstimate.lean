import ProximalNewton.Proofs.MachineArithmetic
import ProximalNewton.StepSize
import ProximalNewton.Vec

/-!
# What an infinite estimate allows

The limit that the merit after a proximal step is held to has the term `(L/2)‖r‖²`. With an
infinite `L` this term is infinite or, where the length is zero or not a number, not a
number, and nothing that is added to it changes that (`NoneAbove`). No merit exceeds such a
limit: `StepSize.not_descentLimit_lt`.
-/

namespace ProximalNewton

open Float.Model (Format UnpackedFloat)
open Float.Model.UnpackedFloat

/-! ## Unpacked numbers -/

/-- Not a number, or infinite above zero. -/
def NoneAbove : UnpackedFloat → Prop
  | .notANumber => True
  | .infinity .positive => True
  | _ => False

/-- Not below zero, which what is not a number is not either. -/
def NotNegative : UnpackedFloat → Prop
  | .infinity .negative => False
  | .finite .negative .. => False
  | _ => True

section Unpacked

variable {format : Format} {u w : UnpackedFloat}

theorem not_lt_of_noneAbove (top : NoneAbove u) : u.lt w = false := by
  rcases u with (_ | _) | _ | _ | _
  · cases top
  · rcases w with (_ | _) | _ | _ | _ <;> rfl
  · rfl
  · cases top
  · cases top

/-- What is added to it cannot bring it down. -/
theorem noneAbove_add_left (top : NoneAbove u) (w : UnpackedFloat) :
    NoneAbove (u.add format w) := by
  rcases u with (_ | _) | _ | _ | _
  · cases top
  · rcases w with (_ | _) | _ | _ | _ <;> trivial
  · cases w <;> trivial
  · cases top
  · cases top

theorem noneAbove_add_right (u : UnpackedFloat) (top : NoneAbove w) :
    NoneAbove (u.add format w) := by
  rcases w with (_ | _) | _ | _ | _
  · cases top
  · rcases u with (_ | _) | _ | _ | _ <;> trivial
  · cases u <;> trivial
  · cases top
  · cases top

theorem noneAbove_mul_left (top : NoneAbove u) (nonneg : NotNegative w) :
    NoneAbove (u.mul format w) := by
  rcases u with (_ | _) | _ | _ | _
  · cases top
  · rcases w with (_ | _) | _ | _ | ⟨_ | _, _, _, _⟩ <;> trivial
  · cases w <;> trivial
  · cases top
  · cases top

theorem noneAbove_mul_right {v : ℚ} (value : HasValue format u v) (nonzero : v ≠ 0)
    (top : NoneAbove w) : NoneAbove (u.mul format w) := by
  cases value with
  | zero sign => exact absurd rfl nonzero
  | finite =>
    rcases w with (_ | _) | _ | _ | _
    · cases top
    · trivial
    · trivial
    · cases top
    · cases top

theorem HasValue.notNegative {v : ℚ} (value : HasValue format u v) : NotNegative u := by
  cases value <;> trivial

theorem notNegative_roundWithAccuracy (m : ℕ) (e : ℤ) (accuracy : Accuracy) :
    NotNegative (roundWithAccuracy format .positive m e accuracy) := by
  unfold roundWithAccuracy
  dsimp only
  split <;> trivial

theorem notNegative_mul_self (u : UnpackedFloat) : NotNegative (u.mul format u) := by
  rcases u with (_ | _) | _ | _ | ⟨_ | _, _, _, _⟩
  · trivial
  · trivial
  · trivial
  · trivial
  · exact notNegative_roundWithAccuracy _ _ _
  · exact notNegative_roundWithAccuracy _ _ _

theorem notNegative_normalize {m : ℤ} (nonneg : 0 ≤ m) (e : ℤ) :
    NotNegative (UnpackedFloat.normalize format m e .positive) := by
  unfold UnpackedFloat.normalize
  rcases nonneg.eq_or_lt with rfl | positive
  · trivial
  · rw [Int.compare_eq_gt.mpr positive]
    exact notNegative_roundWithAccuracy _ _ _

theorem notNegative_add (left : NotNegative u) (right : NotNegative w) :
    NotNegative (u.add format w) := by
  rcases u with (_ | _) | _ | s | ⟨_ | _, _, _, _⟩
  · cases left
  · rcases w with (_ | _) | _ | _ | _ <;> trivial
  · cases w <;> trivial
  · rcases w with (_ | _) | _ | s' | ⟨_ | _, _, _, _⟩
    · cases right
    · trivial
    · trivial
    · cases s <;> cases s' <;> trivial
    · cases right
    · trivial
  · cases left
  · rcases w with (_ | _) | _ | _ | ⟨_ | _, _, _, _⟩
    · cases right
    · trivial
    · trivial
    · trivial
    · cases right
    · exact notNegative_normalize (add_nonneg (Int.natCast_nonneg _) (Int.natCast_nonneg _)) _

theorem noneAbove_unpack_pack (top : NoneAbove u) :
    NoneAbove (unpack format (pack format u)) := by
  rcases u with (_ | _) | _ | _ | _
  · cases top
  · exact (congrArg NoneAbove (@unpack_packedInfinity format .positive)).mpr trivial
  · exact (congrArg NoneAbove (@unpack_packedNaN format)).mpr trivial
  · cases top
  · cases top

theorem notNegative_unpack {bits : BitVec format.numBits} (sign : unpackSign bits = 0#1) :
    NotNegative (unpack format bits) := by
  have positive : Sign.ofBitVec (unpackSign bits) = .positive := by
    rw [sign]
    rfl
  unfold unpack
  dsimp only
  rw [positive]
  split_ifs <;> trivial

theorem notNegative_unpack_pack (nonneg : NotNegative u) :
    NotNegative (unpack format (pack format u)) := by
  rcases u with (_ | _) | _ | sign | ⟨_ | _, m, e, positive⟩
  · cases nonneg
  · exact notNegative_unpack (unpackSign_packComponents _ _ _)
  · exact notNegative_unpack (unpackSign_packComponents _ _ _)
  · exact (congrArg NotNegative (@unpack_packedZero format sign)).mpr trivial
  · cases nonneg
  · refine notNegative_unpack ?_
    unfold pack
    dsimp only
    split_ifs <;> exact unpackSign_packComponents _ _ _

end Unpacked

/-! ## Machine scalars -/

section Scalars

open BinaryScalar

variable {F : Type} [Scalar F] [BinaryScalar F] {a b : F} {n : Nat}

theorem notNegative_foldl_add {start : F} (terms : List F)
    (nonneg : NotNegative (unpack (format F) (bits start)))
    (all : ∀ term ∈ terms, NotNegative (unpack (format F) (bits term))) :
    NotNegative (unpack (format F) (bits (terms.foldl (· + ·) start))) := by
  induction terms generalizing start with
  | nil => exact nonneg
  | cons term rest ih =>
    refine ih ?_ fun later member => all later (List.mem_cons_of_mem _ member)
    rw [add_eq]
    exact notNegative_unpack_pack (notNegative_add nonneg (all term List.mem_cons_self))

/-- A squared length is not negative, whatever the components are. -/
theorem notNegative_normSq (v : Vector F n) :
    NotNegative (unpack (format F) (bits (normSq v))) := by
  have zero : Represents (0 : F) 0 := represents_zero
  unfold normSq
  rw [dot_eq_foldl_toList, List.zipWith_self]
  refine notNegative_foldl_add _ (HasValue.notNegative zero) ?_
  intro term member
  obtain ⟨component, -, rfl⟩ := List.mem_map.mp member
  rw [mul_eq]
  exact notNegative_unpack_pack (notNegative_mul_self _)

/-- **An infinite estimate allows every merit.** The limit that the merit after a
proximal step is held to is then infinite or not a number. -/
theorem StepSize.not_descentLimit_lt {step : StepSize F} (overflows : Overflows step.lipschitz)
    (psi gradDotR psiHat : F) (v : Vector F n) :
    ¬ step.descentLimit psi gradDotR (normSq v) < psiHat := by
  have half : Represents (0.5 : F) (1 / 2) := half_value
  have infinite : NoneAbove (unpack (format F) (bits step.lipschitz)) := by
    rw [overflows]
    trivial
  have scaled : NoneAbove (unpack (format F) (bits (0.5 * step.lipschitz))) := by
    rw [mul_eq]
    exact noneAbove_unpack_pack (noneAbove_mul_right half (by norm_num) infinite)
  have quadratic : NoneAbove (unpack (format F) (bits (0.5 * step.lipschitz * normSq v))) := by
    rw [mul_eq]
    exact noneAbove_unpack_pack (noneAbove_mul_left scaled (notNegative_normSq v))
  have sum : NoneAbove (unpack (format F)
      (bits (psi - gradDotR + 0.5 * step.lipschitz * normSq v))) := by
    rw [add_eq]
    exact noneAbove_unpack_pack (noneAbove_add_right _ quadratic)
  have limit : NoneAbove (unpack (format F)
      (bits (step.descentLimit psi gradDotR (normSq v)))) := by
    unfold StepSize.descentLimit
    rw [add_eq]
    exact noneAbove_unpack_pack (noneAbove_add_left sum _)
  rw [lt_eq, not_lt_of_noneAbove limit]
  exact Bool.false_ne_true

end Scalars

end ProximalNewton
