import ProximalNewton.Proofs.Bounds

/-!
# Validation is exact

`Box.validate` looks at the bounds, one component after the other, and stops at the first
that it cannot accept. What it answers for is projection: in a machine format, a box is
accepted exactly when every vector of numbers is projected into it, and this is so exactly
when no bound is NaN and no lower bound lies above its upper bound.

What it tells of a box that is not accepted is the smallest component at fault, with both
bounds in binary64 unless one of them is NaN. `Box.validate_exact` has the three parts.
-/

namespace ProximalNewton

open BinaryScalar MachineScalar

/-! ## The first of several -/

/-- The first component with a finding, which none before it has. -/
theorem findSome?_zipIdx_eq_some_iff {α β : Type} {items : List α} (find : α → Nat → Option β)
    {found : β} :
    (items.zipIdx.findSome? fun entry => find entry.1 entry.2) = some found ↔
      ∃ i, ∃ inside : i < items.length, find items[i] i = some found ∧
        ∀ (j : Nat) (before : j < i), find items[j] j = none := by
  rw [List.findSome?_eq_some_iff]
  constructor
  · rintro ⟨earlier, ⟨item, i⟩, later, split, finds, passed⟩
    have inside : earlier.length < items.length := by
      have sizes := congrArg List.length split
      simp only [List.length_zipIdx, List.length_append, List.length_cons] at sizes
      omega
    have at_end : (items[earlier.length], earlier.length) = (item, i) := by
      have entry : items.zipIdx[earlier.length]? = some (item, i) := by
        rw [split, List.getElem?_append_right (Nat.le_refl _), Nat.sub_self]
        rfl
      simpa [inside] using entry
    cases at_end
    refine ⟨earlier.length, inside, finds, ?_⟩
    intro j before
    have entry : (items[j], j) = earlier[j] := by
      have entries : items.zipIdx[j]? = earlier[j]? := by
        rw [split, List.getElem?_append_left before]
      simpa [before, before.trans inside] using entries
    have none_found := passed earlier[j] (List.getElem_mem before)
    rwa [← entry] at none_found
  · rintro ⟨i, inside, finds, passed⟩
    have inside' : i < items.zipIdx.length := by simpa using inside
    refine ⟨items.zipIdx.take i, (items[i], i), items.zipIdx.drop (i + 1), ?_, finds, ?_⟩
    · have entry : items.zipIdx[i] = (items[i], i) := by simp
      rw [← entry, ← List.drop_eq_getElem_cons inside', List.take_append_drop]
    · intro entry member
      obtain ⟨j, before, rfl⟩ := List.mem_iff_getElem.mp member
      rw [List.length_take] at before
      simpa using passed j (by omega)

variable {F : Type} {n : Nat}

/-- The defect of a box is that of the first component that has one. -/
theorem Box.fault?_eq_some_iff [Scalar F] {role : Role} {box : Box F n} {fault : InputFault F} :
    box.fault? role = some fault ↔
      ∃ i, ∃ inside : i < n, box.sides[i].fault? role i = some fault ∧
        ∀ (j : Nat) (before : j < i), box.sides[j].Valid := by
  refine (findSome?_zipIdx_eq_some_iff fun (side : Interval F) i => side.fault? role i).trans ?_
  simp only [Vector.getElem_toList, Vector.length_toList, Interval.fault?_eq_none_iff]

/-! ## Defects, by the bounds -/

section Machine

variable [MachineScalar F] [BinaryScalar F] [InfiniteScalar F]

namespace Box

/-- The bounds of component `i` are numbers, and the lower one is not above the upper one. -/
def InOrder (box : Box F n) (i : Nat) (inside : i < n) : Prop :=
  Scalar.isNaN box.lowerBounds[i] = false ∧ Scalar.isNaN box.upperBounds[i] = false ∧
    box.lowerBounds[i] ≤ box.upperBounds[i]

/-- What is reported of component `i` of the set `role` when its bounds are not in order. -/
inductive Reports (box : Box F n) (role : Role) (i : Nat) (inside : i < n) :
    InputFault Float → Prop
  /-- A bound is NaN. -/
  | unordered (nan : Scalar.isNaN box.lowerBounds[i] = true ∨
      Scalar.isNaN box.upperBounds[i] = true) :
    Reports box role i inside (.unordered role i)
  /-- Both bounds are numbers, and the lower one is above the upper one. -/
  | inverted (lower_ordered : Scalar.isNaN box.lowerBounds[i] = false)
      (upper_ordered : Scalar.isNaN box.upperBounds[i] = false)
      (crossed : box.upperBounds[i] < box.lowerBounds[i]) :
    Reports box role i inside
      (.inverted role i (widen box.lowerBounds[i]) (widen box.upperBounds[i]))

variable {box : Box F n} {role : Role} {i : Nat} {inside : i < n}

theorem inOrder_iff : box.InOrder i inside ↔ box.sides[i].Valid := by
  unfold InOrder
  rw [Interval.valid_iff_bounds, getElem_lowerBounds, getElem_upperBounds]
  constructor
  · exact fun ordered => ordered.2.2
  · intro le
    obtain ⟨lower_ordered, upper_ordered⟩ := LawfulScalar.ordered_of_le le
    exact ⟨lower_ordered, upper_ordered, le⟩

theorem reports_iff {error : InputFault Float} : box.Reports role i inside error ↔
    ∃ fault, box.sides[i].fault? role i = some fault ∧ error = fault.widened := by
  have nan_iff : box.sides[i].Unordered ↔ Scalar.isNaN box.lowerBounds[i] = true ∨
      Scalar.isNaN box.upperBounds[i] = true := by
    rw [Interval.unordered_iff_bounds, getElem_lowerBounds, getElem_upperBounds]
  have inversion : box.sides[i].inversion? = if box.upperBounds[i] < box.lowerBounds[i] then
      some (box.lowerBounds[i], box.upperBounds[i]) else none := by
    rw [Interval.inversion?_eq_bounds, getElem_lowerBounds, getElem_upperBounds]
  simp only [Interval.fault?_eq_some_iff, nan_iff, inversion]
  constructor
  · intro reports
    cases reports with
    | unordered nan => exact ⟨.unordered role i, .inl ⟨nan, rfl⟩, rfl⟩
    | inverted lower_ordered upper_ordered crossed =>
      have ordered : ¬ (Scalar.isNaN box.lowerBounds[i] = true ∨
          Scalar.isNaN box.upperBounds[i] = true) := by
        rw [lower_ordered, upper_ordered]
        simp
      exact ⟨_, .inr ⟨ordered, _, if_pos crossed, rfl⟩, rfl⟩
  · rintro ⟨fault, ⟨nan, rfl⟩ | ⟨ordered, ends, inverted, rfl⟩, rfl⟩
    · exact .unordered nan
    · rw [not_or, Bool.not_eq_true, Bool.not_eq_true] at ordered
      obtain ⟨crossed, same⟩ := Option.ite_none_right_eq_some.mp inverted
      cases same
      exact .inverted ordered.1 ordered.2 crossed

/-! ## Exactness -/

/-- A box is valid exactly when every vector of numbers is projected into it. -/
theorem valid_iff_contains_project :
    box.Valid ↔ ∀ v, AllOrdered v → box.Contains (box.project v) := by
  constructor
  · intro valid v ordered i inside
    rw [getElem_project]
    exact Interval.contains_clamp (valid i inside) (ordered i inside)
  · intro lands i inside
    have landed := lands (Vector.replicate n 0)
      (fun j _ => by simpa using LawfulScalar.ordered_zero) i inside
    obtain ⟨above, below⟩ := Interval.contains_iff_bounds.mp landed
    exact Interval.valid_iff_bounds.mpr (LawfulScalar.le_trans above below)

/-- What `validate` decides of a box, and what it tells of one that it does not accept. -/
structure ValidatedExactly (box : Box F n) (role : Role) : Prop where
  /-- A box is accepted when the vectors of numbers are projected into it, and only then. -/
  ok_iff_contains_project : box.validate role = .ok () ↔
    ∀ v, AllOrdered v → box.Contains (box.project v)
  /-- A box is accepted when its bounds are in order, and only then. -/
  ok_iff_inOrder : box.validate role = .ok () ↔
    ∀ (i : Nat) (inside : i < n), box.InOrder i inside
  /-- The first component whose bounds are not in order is reported. -/
  error_iff : ∀ error, box.validate role = .error error ↔
    ∃ i, ∃ inside : i < n, box.Reports role i inside error ∧
      ∀ (j : Nat) (before : j < i), box.InOrder j (before.trans inside)

/-- **Validation is exact.** In a machine format a box is accepted exactly when every vector
of numbers is projected into it, which is when no bound is NaN and no lower bound lies above
its upper bound. Otherwise the error tells of the smallest component at fault. -/
theorem validate_exact (role : Role) (box : Box F n) : box.ValidatedExactly role := by
  constructor
  case ok_iff_contains_project =>
    rw [validate_eq_ok_iff]
    exact valid_iff_contains_project
  case ok_iff_inOrder =>
    rw [validate_eq_ok_iff]
    exact forall₂_congr fun i inside => inOrder_iff.symm
  case error_iff =>
    intro error
    have told : box.validate role = .error error ↔
        ∃ fault, box.fault? role = some fault ∧ error = fault.widened := by
      unfold validate
      cases box.fault? role with
      | none => simp
      | some fault => simp [eq_comm]
    rw [told]
    simp only [fault?_eq_some_iff, inOrder_iff, reports_iff]
    constructor
    · rintro ⟨fault, ⟨i, inside, found, passed⟩, rfl⟩
      exact ⟨i, inside, ⟨fault, found, rfl⟩, passed⟩
    · rintro ⟨i, inside, ⟨fault, found, rfl⟩, passed⟩
      exact ⟨fault, ⟨i, inside, found, passed⟩, rfl⟩

end Box

end Machine

/-! ## Several defects at once -/

/-- A box in binary64 with two components at fault, the second by both its bounds. -/
def tangledBox : Box Float 3 :=
  .ofBounds #v[0, 2, 0 / 0] #v[1, 1, 0 / 0]

/-- Of the tangled box the crossed component is reported, with its bounds. -/
theorem Box.validate_exact_tangled :
    tangledBox.ValidatedExactly .D ∧
      tangledBox.validate .D = .error (.inverted .D 1 2 1) := by
  have exactly := Box.validate_exact .D tangledBox
  have lower : widen tangledBox.lowerBounds[1] = 2 := by decide +kernel
  have upper : widen tangledBox.upperBounds[1] = 1 := by decide +kernel
  have reported : tangledBox.Reports .D 1 (by decide) (.inverted .D 1 2 1) := by
    rw [← lower, ← upper]
    exact .inverted (by decide +kernel) (by decide +kernel) (by decide +kernel)
  have before : ∀ (j : Nat) (before : j < 1), tangledBox.InOrder j (by omega) := by
    unfold InOrder
    decide +kernel
  exact ⟨exactly, (exactly.error_iff _).mpr ⟨1, by decide, reported, before⟩⟩

end ProximalNewton
