import ProximalNewton.Merit

/-!
# What the order of a scalar promises

`Scalar` assumes nothing of `≤` and `<`. `LawfulScalar` adds the laws that hold
in every arithmetic of interest: the values that are numbers are totally ordered,
a value that is not a number compares with nothing, and an operation on it gives
another such value.

Two things are read off these laws. The largest component of a vector is within
a bound exactly when every component is within it or is not a number
(`maxNorm_le_iff`). A projected component lies in its interval exactly when it is
a number (`Box.contains_project_iff`).
-/

namespace ProximalNewton

/-- The order of a scalar is total on the numbers and empty on the other values,
and no operation makes a number of one of these. -/
class LawfulScalar (F : Type) [Scalar F] : Prop where
  ordered_of_le : ∀ {a b : F}, a ≤ b → Scalar.isNaN a = false ∧ Scalar.isNaN b = false
  le_total : ∀ {a b : F}, Scalar.isNaN a = false → Scalar.isNaN b = false → a ≤ b ∨ b ≤ a
  le_trans : ∀ {a b c : F}, a ≤ b → b ≤ c → a ≤ c
  lt_iff : ∀ {a b : F}, a < b ↔ a ≤ b ∧ ¬ b ≤ a
  ordered_zero : Scalar.isNaN (0 : F) = false
  isNaN_abs : ∀ a : F, Scalar.isNaN (Scalar.abs a) = Scalar.isNaN a
  isNaN_add_right : ∀ {a b : F}, Scalar.isNaN b = true → Scalar.isNaN (a + b) = true
  isNaN_sub_right : ∀ {a b : F}, Scalar.isNaN b = true → Scalar.isNaN (a - b) = true
  isNaN_mul_right : ∀ {a b : F}, Scalar.isNaN b = true → Scalar.isNaN (a * b) = true

variable {F : Type} [Scalar F]

/-! ## Comparisons -/

namespace LawfulScalar

variable [LawfulScalar F] {a b c : F}

theorem ordered_of_lt (lt : a < b) : Scalar.isNaN a = false ∧ Scalar.isNaN b = false :=
  ordered_of_le (lt_iff.mp lt).1

theorem le_of_lt (lt : a < b) : a ≤ b :=
  (lt_iff.mp lt).1

theorem lt_of_lt_of_le (lt : a < b) (le : b ≤ c) : a < c :=
  lt_iff.mpr ⟨le_trans (le_of_lt lt) le, fun back => (lt_iff.mp lt).2 (le_trans le back)⟩

theorem lt_of_le_of_lt (le : a ≤ b) (lt : b < c) : a < c :=
  lt_iff.mpr ⟨le_trans le (le_of_lt lt), fun back => (lt_iff.mp lt).2 (le_trans back le)⟩

theorem le_refl (ordered : Scalar.isNaN a = false) : a ≤ a :=
  (le_total ordered ordered).elim id id

/-- Of two numbers the second is not below the first unless the first is above it. -/
theorem le_of_not_lt (ordered_a : Scalar.isNaN a = false) (ordered_b : Scalar.isNaN b = false)
    (not_lt : ¬ a < b) : b ≤ a := by
  rcases le_total ordered_a ordered_b with le | le
  · by_cases above : b ≤ a
    · exact above
    · exact absurd (lt_iff.mpr ⟨le, above⟩) not_lt
  · exact le

end LawfulScalar

/-- The order of a scalar is transitive on the numbers, and zero and all that is
above it are numbers. -/
class TransitiveScalar (F : Type) [Scalar F] : Prop where
  ordered_zero : Scalar.isNaN (0 : F) = false
  ordered_of_pos : ∀ {a : F}, 0 < a → Scalar.isNaN a = false
  le_trans : ∀ {a b c : F}, Scalar.isNaN a = false → Scalar.isNaN b = false →
    Scalar.isNaN c = false → a ≤ b → b ≤ c → a ≤ c

instance (priority := low) LawfulScalar.transitive [LawfulScalar F] : TransitiveScalar F where
  ordered_zero := LawfulScalar.ordered_zero
  ordered_of_pos positive := (LawfulScalar.ordered_of_lt positive).2
  le_trans _ _ _ le_ab le_bc := LawfulScalar.le_trans le_ab le_bc

open LawfulScalar

/-! ## The largest component -/

section Largest

/-- A maximum with a number is a number. -/
theorem ordered_maxNum {a b : F} (ordered : Scalar.isNaN a = false) :
    Scalar.isNaN (maxNum a b) = false := by
  unfold maxNum
  rw [ordered]
  split
  · contradiction
  · cases known : Scalar.isNaN b with
    | true => simpa using ordered
    | false =>
      simp only [Bool.false_eq_true, if_false]
      split
      · exact known
      · exact ordered

/-- The largest of a number and some magnitudes is a number. -/
theorem ordered_foldl_maxNum {start : F} (components : List F)
    (ordered : Scalar.isNaN start = false) :
    Scalar.isNaN (components.foldl
      (fun largest component => maxNum largest (Scalar.abs component)) start) = false := by
  induction components generalizing start with
  | nil => exact ordered
  | cons component rest ih => exact ih (ordered_maxNum ordered)

variable [LawfulScalar F]

/-- A maximum with a number is within a bound exactly when the number is, and the
other operand is or is not a number. -/
theorem maxNum_le_iff {a b bound : F} (ordered : Scalar.isNaN a = false) :
    maxNum a b ≤ bound ↔ a ≤ bound ∧ (Scalar.isNaN b = true ∨ b ≤ bound) := by
  unfold maxNum
  rw [if_neg (by simp [ordered])]
  cases known : Scalar.isNaN b with
  | true => simp
  | false =>
    simp only [Bool.false_eq_true, if_false, false_or]
    split
    · constructor
      · intro within
        exact ⟨le_trans (le_of_lt ‹_›) within, within⟩
      · exact And.right
    · constructor
      · intro within
        exact ⟨within, le_trans (le_of_not_lt ordered known ‹_›) within⟩
      · exact And.left

theorem foldl_maxNum_le_iff {bound start : F} (components : List F)
    (ordered : Scalar.isNaN start = false) :
    components.foldl (fun largest component => maxNum largest (Scalar.abs component)) start ≤
        bound ↔
      start ≤ bound ∧ ∀ component ∈ components,
        Scalar.isNaN component = true ∨ Scalar.abs component ≤ bound := by
  induction components generalizing start with
  | nil => simp
  | cons component rest ih =>
    rw [List.foldl_cons, ih (ordered_maxNum ordered), maxNum_le_iff ordered, isNaN_abs, and_assoc,
      List.forall_mem_cons]

/-- The largest component is within a bound exactly when every component is, but
for those that are not numbers. -/
theorem maxNorm_le_iff {n : Nat} {bound : F} (nonneg : 0 ≤ bound) (v : Vector F n) :
    maxNorm v ≤ bound ↔
      ∀ (i : Nat) (inside : i < n), Scalar.isNaN v[i] = true ∨ Scalar.abs v[i] ≤ bound := by
  rw [maxNorm_eq_foldl_toList, foldl_maxNum_le_iff _ ordered_zero]
  constructor
  · intro within i inside
    exact within.2 v[i] (by simp)
  · intro within
    refine ⟨nonneg, ?_⟩
    intro component member
    obtain ⟨i, inside, rfl⟩ := List.mem_iff_getElem.mp member
    simpa using within i (by simpa using inside)

end Largest

/-! ## Projection -/

namespace Interval

/-- Where clamping takes a value: to the lower end from below it, to the upper
end from above it, and nowhere from between the ends. -/
theorem clamp_cases (side : Interval F) (value : F) :
    (∃ low, side.lower = some low ∧ value < low ∧ side.clamp value = low) ∨
    (∃ high, side.upper = some high ∧ high < value ∧ side.clamp value = high) ∨
    ((∀ low ∈ side.lower, ¬ value < low) ∧ (∀ high ∈ side.upper, ¬ high < value) ∧
      side.clamp value = value) := by
  rcases side with ⟨_ | low, _ | high⟩
  · exact Or.inr (Or.inr ⟨nofun, nofun, rfl⟩)
  · by_cases above : high < value
    · refine Or.inr (Or.inl ⟨high, rfl, above, ?_⟩)
      simp [clamp, violated?, Option.filter_some, above]
    · refine Or.inr (Or.inr ⟨nofun, ?_, by simp [clamp, violated?, Option.filter_some, above]⟩)
      intro high' upper
      cases upper
      exact above
  · by_cases below : value < low
    · exact Or.inl ⟨low, rfl, below, by simp [clamp, violated?, Option.filter_some, below]⟩
    · refine Or.inr (Or.inr ⟨?_, nofun, by simp [clamp, violated?, Option.filter_some, below]⟩)
      intro low' lower
      cases lower
      exact below
  · by_cases below : value < low
    · exact Or.inl ⟨low, rfl, below, by simp [clamp, violated?, Option.filter_some, below]⟩
    · by_cases above : high < value
      · refine Or.inr (Or.inl ⟨high, rfl, above, ?_⟩)
        simp [clamp, violated?, Option.filter_some, below, above]
      · refine Or.inr (Or.inr ⟨?_, ?_, ?_⟩)
        · intro low' lower
          cases lower
          exact below
        · intro high' upper
          cases upper
          exact above
        · simp [clamp, violated?, Option.filter_some, below, above]

/-- The ends of a valid interval are numbers. -/
theorem Valid.ordered_ends {side : Interval F} (valid : side.Valid) :
    (∀ low ∈ side.lower, Scalar.isNaN low = false) ∧
      ∀ high ∈ side.upper, Scalar.isNaN high = false := by
  constructor
  · intro low lower
    rw [← Bool.not_eq_true]
    exact fun known => valid.1 (Or.inl ⟨low, lower, known⟩)
  · intro high upper
    rw [← Bool.not_eq_true]
    exact fun known => valid.1 (Or.inr ⟨high, upper, known⟩)

variable [LawfulScalar F]

/-- Clamping to a valid interval reaches it from every number. -/
theorem contains_clamp {side : Interval F} (valid : side.Valid) {value : F}
    (ordered : Scalar.isNaN value = false) : side.Contains (side.clamp value) := by
  obtain ⟨ordered_low, ordered_high⟩ := valid.ordered_ends
  rcases side.clamp_cases value with
    ⟨low, lower, -, clamped⟩ | ⟨high, upper, -, clamped⟩ | ⟨not_below, not_above, clamped⟩
  · rw [clamped]
    have known := ordered_low low lower
    refine ⟨known, ?_, ?_⟩
    · intro low' lower'
      cases lower.symm.trans lower'
      exact le_refl known
    · intro high upper
      exact le_of_not_lt (ordered_high high upper) known (valid.2 low lower high upper)
  · rw [clamped]
    have known := ordered_high high upper
    refine ⟨known, ?_, ?_⟩
    · intro low lower
      exact le_of_not_lt known (ordered_low low lower) (valid.2 low lower high upper)
    · intro high' upper'
      cases upper.symm.trans upper'
      exact le_refl known
  · rw [clamped]
    refine ⟨ordered, ?_, ?_⟩
    · intro low lower
      exact le_of_not_lt ordered (ordered_low low lower) (not_below low lower)
    · intro high upper
      exact le_of_not_lt (ordered_high high upper) ordered (not_above high upper)

/-- Clamping neither makes nor removes a value that is not a number. -/
theorem isNaN_clamp {side : Interval F} (valid : side.Valid) (value : F) :
    Scalar.isNaN (side.clamp value) = Scalar.isNaN value := by
  obtain ⟨ordered_low, ordered_high⟩ := valid.ordered_ends
  rcases side.clamp_cases value with
    ⟨low, lower, below, clamped⟩ | ⟨high, upper, above, clamped⟩ | ⟨-, -, clamped⟩
  · rw [clamped, ordered_low low lower, (ordered_of_lt below).1]
  · rw [clamped, ordered_high high upper, (ordered_of_lt above).2]
  · rw [clamped]

end Interval

/-- A projected vector lies in a valid box exactly when its components are
numbers. -/
theorem Box.contains_project_iff [LawfulScalar F] {n : Nat} {box : Box F n} (valid : box.Valid)
    (v : Vector F n) :
    box.Contains (box.project v) ↔
      ∀ (i : Nat) (inside : i < n), Scalar.isNaN (box.project v)[i] = false := by
  constructor
  · intro contained i inside
    exact (contained i inside).1
  · intro ordered i inside
    have known := ordered i inside
    rw [box.getElem_project v i inside] at known ⊢
    rw [Interval.isNaN_clamp (valid i inside)] at known
    exact Interval.contains_clamp (valid i inside) known

end ProximalNewton
