import ProximalNewton.Proofs.MachineNorms
import ProximalNewton.Proofs.RecentPairs

/-!
# The curvature safeguard in a machine format

A pair `(s, y)` is admitted unless `s·y` is not finite or at most `tol ‖s‖ ‖y‖`. The second
test is meant to refuse every pair whose curvature is not clearly positive, and does so
whenever the bound is a number, because the bound is then at least zero (`Safeguarded`). A
length can overflow, though, where `s·y` is an ordinary number, and infinity times zero is
not a number: nothing is at most such a bound, so the pair is admitted whatever its
curvature is (`Unguarded`).

* `CurvatureStore.offer_safeguarded_iff`: the pairs for which the safeguard holds, and what
  is held after any calls.
* `CurvatureStore.not_keepsSafeguard`: a pair of negative curvature that is admitted.
-/

namespace ProximalNewton

/-! ## The test -/

section Test

open BinaryScalar

variable {F : Type} [Scalar F] {n depth : Nat}

/-- The curvature along the pair is finite, above zero and above `tol ‖s‖ ‖y‖`. -/
structure Safeguarded (tol : F) (s y : Vector F n) : Prop where
  finite : Scalar.isFinite (dot s y) = true
  positive : 0 < dot s y
  above : tol * norm s * norm y < dot s y

/-- The curvature along the pair is finite, but zero is multiplied by infinity where its
bound is computed. -/
structure Unguarded [BinaryScalar F] (tol : F) (s y : Vector F n) : Prop where
  finite : Scalar.isFinite (dot s y) = true
  indeterminate : ZeroTimesInfinity tol (norm s) ∨ ZeroTimesInfinity (tol * norm s) (norm y)

variable [BinaryScalar F] [RootScalar F] {tol : F} {s y : Vector F n}

/-- The bound of a finite curvature is at least zero, unless the pair is unguarded. Then it
is not a number. -/
theorem bound_cases (nonneg : 0 ≤ tol) (finite : Scalar.isFinite (dot s y) = true) :
    (Unguarded tol s y ∧ Scalar.isNaN (tol * norm s * norm y) = true) ∨
      (¬ Unguarded tol s y ∧ 0 ≤ tol * norm s * norm y) := by
  obtain ⟨s_ordered, y_ordered⟩ := allOrdered_of_dot (ordered_of_isFinite finite)
  have s_nonneg := nonneg_norm s_ordered
  have y_nonneg := nonneg_norm y_ordered
  by_cases first : ZeroTimesInfinity tol (norm s)
  · exact Or.inl ⟨⟨finite, Or.inl first⟩, isNaN_mul_left first.isNaN_mul⟩
  · have scaled := nonneg_mul nonneg s_nonneg first
    by_cases second : ZeroTimesInfinity (tol * norm s) (norm y)
    · exact Or.inl ⟨⟨finite, Or.inr second⟩, second.isNaN_mul⟩
    · exact Or.inr ⟨fun unguarded => unguarded.indeterminate.elim first second,
        nonneg_mul scaled y_nonneg second⟩

/-- The pairs that are admitted are those that are safeguarded and those that are
unguarded. -/
theorem admissible_iff (nonneg : 0 ≤ tol) :
    Admissible tol s y ↔ Safeguarded tol s y ∨ Unguarded tol s y := by
  constructor
  · intro admissible
    obtain ⟨finite, not_within⟩ := admissible
    rcases bound_cases nonneg finite with ⟨unguarded, -⟩ | ⟨-, bound_nonneg⟩
    · exact Or.inr unguarded
    · have bound_ordered := (LawfulScalar.ordered_of_le bound_nonneg).2
      have above : tol * norm s * norm y < dot s y := by
        by_contra not_above
        exact not_within
          (LawfulScalar.le_of_not_lt bound_ordered (ordered_of_isFinite finite) not_above)
      exact Or.inl ⟨finite, LawfulScalar.lt_of_le_of_lt bound_nonneg above, above⟩
  · rintro (safeguarded | unguarded)
    · exact ⟨safeguarded.finite, (LawfulScalar.lt_iff.mp safeguarded.above).2⟩
    · refine ⟨unguarded.finite, ?_⟩
      intro within
      have ordered := (LawfulScalar.ordered_of_le within).2
      rcases bound_cases nonneg unguarded.finite with ⟨-, unordered⟩ | ⟨guarded, -⟩
      · exact Bool.false_ne_true (ordered.symm.trans unordered)
      · exact guarded unguarded

/-- The bound of an unguarded pair is not a number, so that the pair is not safeguarded. -/
theorem Unguarded.not_safeguarded (nonneg : 0 ≤ tol) (unguarded : Unguarded tol s y) :
    ¬ Safeguarded tol s y := by
  intro safeguarded
  have ordered := (LawfulScalar.ordered_of_lt safeguarded.above).1
  rcases bound_cases nonneg unguarded.finite with ⟨-, unordered⟩ | ⟨guarded, -⟩
  · exact Bool.false_ne_true (ordered.symm.trans unordered)
  · exact guarded unguarded

end Test

namespace CurvatureStore

section Store

variable {F : Type} [Scalar F] {n depth : Nat}

/-- The store admits the pair only if it is safeguarded. -/
def KeepsSafeguard (store : CurvatureStore F n depth) (s y : Vector F n) : Prop :=
  (store.offer s y).1 = true → Safeguarded store.memory.curvatureTol s y

/-- **The curvature safeguard.** A store admits the pairs whose curvature is finite, above
zero and above its bound, and those of finite curvature for whose bound zero is multiplied
by infinity. These are the pairs for which the safeguard fails, and whatever a store holds
after any calls is of one of the two kinds. -/
theorem offer_safeguarded_iff [BinaryScalar F] [RootScalar F] {tol : F} (nonneg : 0 ≤ tol)
    (positive : 0 < depth) :
    (∀ store : CurvatureStore F n depth, store.memory.curvatureTol = tol → ∀ s y,
      ((store.offer s y).1 = true ↔ Safeguarded tol s y ∨ Unguarded tol s y) ∧
        (store.KeepsSafeguard s y ↔ ¬ Unguarded tol s y)) ∧
      ∀ calls, ∀ pair ∈ ((empty tol positive : CurvatureStore F n depth).after
          calls).memory.pairs.toList,
        ∃ s y, pair = .ofChanges s y ∧ (Safeguarded tol s y ∨ Unguarded tol s y) := by
  constructor
  · rintro store rfl s y
    have admitted : (store.offer s y).1 = true ↔ Admissible store.memory.curvatureTol s y :=
      decide_eq_true_iff
    rw [admissible_iff nonneg] at admitted
    refine ⟨admitted, ?_⟩
    unfold KeepsSafeguard
    rw [admitted]
    constructor
    · intro keeps unguarded
      exact unguarded.not_safeguarded nonneg (keeps (Or.inr unguarded))
    · intro guarded kind
      exact kind.resolve_right guarded
  · intro calls pair member
    rw [toList_after] at member
    obtain ⟨s, y, admissible, rfl⟩ := mem_recentPairs tol calls member
    exact ⟨s, y, rfl, (admissible_iff nonneg).mp admissible⟩

end Store

/-! ## A length that overflows -/

/-- A store with the bound of admission that is taken by default. -/
def fresh : CurvatureStore Float 1 10 :=
  empty 1e-10 (by decide)

theorem fresh_tol_nonneg : (0 : Float) ≤ 1e-10 := by
  decide +kernel

/-- The product of the changes `10²⁰⁰` and `-10⁻²⁰⁰` is about `-1`. The first has an infinite
length and the second a length of zero, as their squares are out of range. -/
theorem fresh_offer_overflowing : (fresh.offer #v[1e200] #v[-1e-200]).1 = true ∧
    ¬ 0 < dot #v[(1e200 : Float)] #v[-1e-200] := by
  decide +kernel

theorem offer_safeguarded_iff_overflowing : (0 : Float) ≤ 1e-10 ∧ 0 < 10 ∧
    Unguarded (1e-10 : Float) #v[1e200] #v[-1e-200] ∧
    ¬ fresh.KeepsSafeguard #v[1e200] #v[-1e-200] := by
  have decided := (offer_safeguarded_iff fresh_tol_nonneg (by decide)).1 fresh rfl #v[1e200]
    #v[-1e-200]
  have admitted := decided.1.mp fresh_offer_overflowing.1
  have unguarded := admitted.resolve_left fun safeguarded =>
    fresh_offer_overflowing.2 safeguarded.positive
  exact ⟨fresh_tol_nonneg, by decide, unguarded, fun keeps => decided.2.mp keeps unguarded⟩

/-- A pair of negative curvature is admitted by a store with a bound of admission that is
finite and above zero. -/
theorem not_keepsSafeguard : ¬ ∀ store : CurvatureStore Float 1 10,
    0 ≤ store.memory.curvatureTol → Scalar.isFinite store.memory.curvatureTol = true →
      ∀ s y, store.KeepsSafeguard s y := by
  intro keeps
  have finite : Scalar.isFinite (1e-10 : Float) = true := by decide +kernel
  have safeguarded := keeps fresh fresh_tol_nonneg finite _ _ fresh_offer_overflowing.1
  exact fresh_offer_overflowing.2 safeguarded.positive

end CurvatureStore

end ProximalNewton
