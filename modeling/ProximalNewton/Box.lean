import ProximalNewton.Fault
import ProximalNewton.Vec

/-!
Boxes: products of closed intervals, each side of which may be open.

An `Interval` stores only the ends that bound it, so an open side can never
move a value. `Interval.ofBounds` reads an infinite bound on its own side as an
open side; an infinite bound on the wrong side stays an end. Projection is
componentwise clamping, into a new vector, over another one or in place, and
`Box.fault?` finds the first component for which that projection would not land
in the box.
-/

namespace ProximalNewton

variable {F : Type} [Scalar F]

/-- A closed interval; an absent end leaves its side open. -/
structure Interval (F : Type) where
  lower : Option F
  upper : Option F

namespace Interval

/-- The interval with the given bounds. A lower bound of minus infinity and an
upper bound of plus infinity leave their sides open. -/
def ofBounds (lower upper : F) : Interval F where
  lower := if isNegInfinite lower then none else some lower
  upper := if isPosInfinite upper then none else some upper

/-- The interval without ends. -/
def whole : Interval F := ⟨none, none⟩

/-- The end that a value lies beyond, if there is one. -/
def violated? (side : Interval F) (value : F) : Option F :=
  side.lower.filter (value < ·) <|> side.upper.filter (· < value)

/-- The point of the interval nearest to a value. A value that is beyond
neither end is kept as it is, an unordered one too. -/
def clamp (side : Interval F) (value : F) : F :=
  (side.violated? value).getD value

/-- A member is ordered, not below the lower end and not above the upper end. -/
def Contains (side : Interval F) (value : F) : Prop :=
  Scalar.isNaN value = false ∧
    (∀ low ∈ side.lower, low ≤ value) ∧ ∀ high ∈ side.upper, value ≤ high

instance decidableContains (side : Interval F) (value : F) : Decidable (side.Contains value) :=
  inferInstanceAs (Decidable (_ ∧ _ ∧ _))

/-- Some end is not a number. -/
def Unordered (side : Interval F) : Prop :=
  (∃ low ∈ side.lower, Scalar.isNaN low = true) ∨ ∃ high ∈ side.upper, Scalar.isNaN high = true

instance decidableUnordered (side : Interval F) : Decidable side.Unordered :=
  inferInstanceAs (Decidable (_ ∨ _))

/-- The two ends of an interval whose lower end lies above its upper end. -/
def inversion? (side : Interval F) : Option (F × F) :=
  match side.lower, side.upper with
  | some low, some high => if high < low then some (low, high) else none
  | _, _ => none

/-- The ends are ordered, and the lower one does not lie above the upper one. -/
def Valid (side : Interval F) : Prop :=
  ¬ side.Unordered ∧ ∀ low ∈ side.lower, ∀ high ∈ side.upper, ¬ high < low

instance decidableValid (side : Interval F) : Decidable side.Valid :=
  inferInstanceAs (Decidable (_ ∧ _))

/-- The defect of an interval that is component `index` of the set `role`. An
end that is not a number is reported before an inversion. -/
def fault? (role : Role) (index : Nat) (side : Interval F) : Option (InputFault F) :=
  if side.Unordered then some (.unordered role index)
  else side.inversion?.map fun ends => .inverted role index ends.1 ends.2

/-- A multiplier clipped to magnitude `bound`, and to zero from the sign whose
side is open. -/
def clipMultiplier (side : Interval F) (bound multiplier : F) : F :=
  minNum (maxNum multiplier (if side.lower.isNone then 0 else -bound))
    (if side.upper.isNone then 0 else bound)

/-- Two ends agree when both are absent or neither lies above the other. -/
def sameEnd : Option F → Option F → Bool
  | none, none => true
  | some a, some b => a ≤ b && b ≤ a
  | _, _ => false

instance instBEq : BEq (Interval F) where
  beq a b := sameEnd a.lower b.lower && sameEnd a.upper b.upper

end Interval

/-- A product of `n` intervals. -/
structure Box (F : Type) (n : Nat) where
  sides : Vector (Interval F) n

namespace Box

variable {n : Nat}

/-! ## Construction -/

/-- The box with the given lower and upper bounds. -/
def ofBounds (lower upper : Vector F n) : Box F n :=
  ⟨lower.zipWith Interval.ofBounds upper⟩

/-- The box with the given bounds, which must be as many on either side. -/
def ofArrays? (lower upper : Array F) : Option (Box F lower.size) :=
  if agree : upper.size = lower.size then some (ofBounds ⟨lower, rfl⟩ ⟨upper, agree⟩) else none

/-- The whole space. -/
def whole (n : Nat) : Box F n :=
  ⟨Vector.replicate n Interval.whole⟩

/-- The box that holds one point. -/
def singleton (value : Vector F n) : Box F n :=
  ofBounds value value

/-- The box that holds the origin. -/
def origin (n : Nat) : Box F n :=
  singleton (Vector.replicate n 0)

/-- The box with the same bounds in every component. -/
def replicate (n : Nat) (lower upper : F) : Box F n :=
  ⟨Vector.replicate n (Interval.ofBounds lower upper)⟩

/-! ## Projection and membership -/

/-- The nearest point of the box, component by component. -/
def project (box : Box F n) (v : Vector F n) : Vector F n :=
  box.sides.zipWith Interval.clamp v

/-- The projection of `v`, written over `out` component by component. -/
def projectInto (box : Box F n) (v out : Vector F n) : Vector F n :=
  n.fold (fun i inside out => out.set i (box.sides[i].clamp v[i])) out

/-- The projection of `v`, each component written over the one that it comes from. -/
def projectInPlace (box : Box F n) (v : Vector F n) : Vector F n :=
  n.fold (fun i inside v => v.set i (box.sides[i].clamp v[i])) v

/-- Every component lies in its interval. -/
def Contains (box : Box F n) (v : Vector F n) : Prop :=
  ∀ (i : Nat) (inside : i < n), box.sides[i].Contains v[i]

instance decidableContains (box : Box F n) (v : Vector F n) : Decidable (box.Contains v) :=
  inferInstanceAs (Decidable (∀ (i : Nat) (inside : i < n), box.sides[i].Contains v[i]))

/-- Multipliers clipped side by side: see `Interval.clipMultiplier`. -/
def clipMultipliers (box : Box F n) (bound : F) (y : Vector F n) : Vector F n :=
  box.sides.zipWith (fun side multiplier => side.clipMultiplier bound multiplier) y

/-! ## Validity -/

/-- Every interval is valid. -/
def Valid (box : Box F n) : Prop :=
  ∀ (i : Nat) (inside : i < n), box.sides[i].Valid

instance decidableValid (box : Box F n) : Decidable box.Valid :=
  inferInstanceAs (Decidable (∀ (i : Nat) (inside : i < n), box.sides[i].Valid))

/-- The defect of the first defective component. -/
def fault? (role : Role) (box : Box F n) : Option (InputFault F) :=
  box.sides.toList.zipIdx.findSome? fun (side, index) => side.fault? role index

/-- The verdict on a box by itself, which tells a defect in binary64. -/
def validate {F : Type} [MachineScalar F] (role : Role) (box : Box F n) :
    Except (InputFault Float) Unit :=
  match box.fault? role with
  | none => .ok ()
  | some fault => .error fault.widened

/-! ## Comparison and bounds -/

instance instBEq : BEq (Box F n) where
  beq a b := (a.sides.zipWith (· == ·) b.sides).all id

/-- The lower bounds, minus infinity where the side is open. -/
def lowerBounds {F : Type} [MachineScalar F] (box : Box F n) : Vector F n :=
  box.sides.map fun side => side.lower.getD (-MachineScalar.infinity)

/-- The upper bounds, plus infinity where the side is open. -/
def upperBounds {F : Type} [MachineScalar F] (box : Box F n) : Vector F n :=
  box.sides.map fun side => side.upper.getD MachineScalar.infinity

/-! ## Basic facts -/

omit [Scalar F] in
@[ext]
theorem ext {a b : Box F n} (same : a.sides = b.sides) : a = b := by
  cases a; cases b; cases same; rfl

@[simp]
theorem getElem_project (box : Box F n) (v : Vector F n) (i : Nat) (inside : i < n) :
    (box.project v)[i] = box.sides[i].clamp v[i] := by
  simp [project]

/-- Written over another vector the projection is the same. -/
theorem projectInto_eq (box : Box F n) (v out : Vector F n) :
    box.projectInto v out = box.project v := by
  ext i inside
  unfold projectInto
  rw [getElem_fold_set_all (fun j before _ => box.sides[j].clamp v[j]) out, getElem_project]

/-- Written over the vector itself the projection is the same. -/
theorem projectInPlace_eq (box : Box F n) (v : Vector F n) :
    box.projectInPlace v = box.project v := by
  ext i inside
  unfold projectInPlace
  rw [getElem_fold_set_all (fun j before => box.sides[j].clamp) v, getElem_project]

end Box

/-- The interval without ends moves nothing. -/
@[simp]
theorem Interval.clamp_whole (value : F) : (Interval.whole : Interval F).clamp value = value := rfl

@[simp]
theorem Box.project_whole {n : Nat} (v : Vector F n) : (Box.whole n).project v = v := by
  ext i inside
  rw [getElem_project, show (Box.whole n : Box F n).sides[i] = Interval.whole from
    Vector.getElem_replicate inside, Interval.clamp_whole]

/-- Without ends there is nothing to be unordered or inverted. -/
theorem Interval.valid_whole : (Interval.whole : Interval F).Valid := by
  constructor
  · rintro (⟨low, present, -⟩ | ⟨high, present, -⟩)
    · cases present
    · cases present
  · intro low present
    cases present

theorem Box.valid_whole (n : Nat) : (Box.whole n : Box F n).Valid := by
  intro i inside
  rw [show (Box.whole n : Box F n).sides[i] = Interval.whole from Vector.getElem_replicate inside]
  exact Interval.valid_whole

/-- An interval has a defect exactly when it is not valid. -/
theorem Interval.fault?_eq_none_iff {role : Role} {index : Nat} {side : Interval F} :
    side.fault? role index = none ↔ side.Valid := by
  unfold fault? Valid
  by_cases unordered : side.Unordered
  · simp [unordered]
  · rcases side with ⟨_ | low, _ | high⟩
    · simp [unordered, inversion?]
    · simp [unordered, inversion?]
    · simp [unordered, inversion?]
    · by_cases crossed : high < low <;> simp [unordered, inversion?, crossed]

theorem Interval.inversion?_eq_some_iff {side : Interval F} {ends : F × F} :
    side.inversion? = some ends ↔
      side.lower = some ends.1 ∧ side.upper = some ends.2 ∧ ends.2 < ends.1 := by
  rcases ends with ⟨low, high⟩
  rcases side with ⟨_ | low', _ | high'⟩
  · simp [inversion?]
  · simp [inversion?]
  · simp [inversion?]
  · simp only [inversion?, Option.ite_none_right_eq_some, Option.some.injEq, Prod.mk.injEq]
    constructor
    · rintro ⟨crossed, rfl, rfl⟩
      exact ⟨rfl, rfl, crossed⟩
    · rintro ⟨rfl, rfl, crossed⟩
      exact ⟨crossed, rfl, rfl⟩

/-- The defect of an interval is an end that is not a number, or else an inversion. -/
theorem Interval.fault?_eq_some_iff {role : Role} {index : Nat} {side : Interval F}
    {fault : InputFault F} : side.fault? role index = some fault ↔
      side.Unordered ∧ fault = .unordered role index ∨
      ¬ side.Unordered ∧ ∃ ends, side.inversion? = some ends ∧
        fault = .inverted role index ends.1 ends.2 := by
  unfold fault?
  by_cases unordered : side.Unordered
  · simp [unordered, eq_comm]
  · rw [if_neg unordered, Option.map_eq_some_iff]
    simp only [unordered, not_false_eq_true, false_and, true_and, false_or, eq_comm]

/-- A box has a defect exactly when it is not valid. -/
theorem Box.fault?_eq_none_iff {n : Nat} {role : Role} {box : Box F n} :
    box.fault? role = none ↔ box.Valid := by
  simp only [Box.fault?, List.findSome?_eq_none_iff, Prod.forall, List.mem_zipIdx_iff_getElem?,
    Interval.fault?_eq_none_iff, Box.Valid]
  constructor
  · intro every i inside
    exact every _ i (by simp [inside])
  · intro every side index at_index
    obtain ⟨inside, rfl⟩ := List.getElem?_eq_some_iff.mp at_index
    simpa using every index (by simpa using inside)

/-- A box is accepted exactly when it is valid. -/
theorem Box.validate_eq_ok_iff {F : Type} [MachineScalar F] {n : Nat} {role : Role}
    {box : Box F n} : box.validate role = .ok () ↔ box.Valid := by
  have faultless_iff : box.fault? role = none ↔ box.Valid := Box.fault?_eq_none_iff
  rw [← faultless_iff]
  unfold validate
  cases box.fault? role with
  | none => exact ⟨fun _ => rfl, fun _ => rfl⟩
  | some fault => exact ⟨nofun, nofun⟩

end ProximalNewton
