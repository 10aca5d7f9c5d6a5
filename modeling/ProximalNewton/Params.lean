import ProximalNewton.Fault

/-!
Settings of the method and their ranges.

`Params.Meets` gives the range of each setting and `Params.fault?` the first
setting, in the order of `Setting.all`, that is outside its range. Defaults
exist for binary64 and binary32.
-/

namespace ProximalNewton

/-- Settings of the curvature memory. -/
structure MemoryParams (F : Type) where
  /-- How many curvature pairs are kept. -/
  depth : Nat
  /-- A pair `(s, y)` is kept only if `s·y > curvatureTol ‖s‖ ‖y‖`. -/
  curvatureTol : F

/-- Settings of the estimate of the Lipschitz constant and of its adaptation. -/
structure EstimateParams (F : Type) where
  /-- Perturbation relative to the magnitude of a component. -/
  epsilon : F
  /-- Smallest perturbation of a component. -/
  delta : F
  /-- Smallest initial estimate. -/
  lMin : F
  /-- How often the estimate may be doubled within one iteration. -/
  maxUpdates : Nat

/-- Settings of the backtracking search. -/
structure SearchParams (F : Type) where
  /-- Smallest step that is tried. -/
  tauMin : F

/-- All settings of the method. -/
structure Params (F : Type) where
  /-- How many iterations are permitted. -/
  maxIter : Nat
  memory : MemoryParams F
  estimate : EstimateParams F
  search : SearchParams F

/-! ## Ranges -/

/-- Every setting that has a range, in the order in which ranges are tested. -/
def Setting.all : List Setting :=
  [.maxIter, .memoryDepth, .curvatureTol, .epsilon, .delta, .lMin, .tauMin]

theorem Setting.mem_all (which : Setting) : which ∈ Setting.all := by
  cases which <;> decide

section Ranges

variable {F : Type} [Scalar F]

/-- A setting is in its range. -/
def Params.Meets (params : Params F) : Setting → Prop
  | .maxIter => 0 < params.maxIter
  | .memoryDepth => 0 < params.memory.depth
  | .curvatureTol =>
    0 ≤ params.memory.curvatureTol ∧ Scalar.isFinite params.memory.curvatureTol = true
  | .epsilon => IsPositive params.estimate.epsilon
  | .delta => IsPositive params.estimate.delta
  | .lMin => IsPositive params.estimate.lMin
  | .tauMin => IsPositive params.search.tauMin ∧ params.search.tauMin < 1

instance Params.decidableMeets (params : Params F) (which : Setting) :
    Decidable (params.Meets which) := by
  cases which <;> unfold Params.Meets <;> infer_instance

/-- Every setting is in its range. -/
def Params.Valid (params : Params F) : Prop :=
  ∀ which : Setting, params.Meets which

/-- The first setting that is outside its range. -/
def Params.fault? (params : Params F) : Option Setting :=
  Setting.all.find? fun which => ¬ params.Meets which

theorem Params.fault?_eq_none_iff {params : Params F} :
    params.fault? = none ↔ params.Valid := by
  simp [Params.fault?, Params.Valid, Setting.mem_all]

end Ranges

/-! ## Defaults -/

instance MemoryParams.binary64 : Inhabited (MemoryParams Float) := ⟨⟨10, 1e-10⟩⟩

instance MemoryParams.binary32 : Inhabited (MemoryParams Float32) := ⟨⟨10, 1e-6⟩⟩

instance EstimateParams.binary64 : Inhabited (EstimateParams Float) := ⟨⟨1e-6, 1e-12, 1e-6, 64⟩⟩

instance EstimateParams.binary32 : Inhabited (EstimateParams Float32) := ⟨⟨1e-3, 1e-6, 1e-4, 32⟩⟩

instance SearchParams.binary64 : Inhabited (SearchParams Float) := ⟨⟨1e-12⟩⟩

instance SearchParams.binary32 : Inhabited (SearchParams Float32) := ⟨⟨1e-6⟩⟩

/-- A hundred iterations, and the defaults of the parts. -/
instance Params.instInhabited {F : Type} [Inhabited (MemoryParams F)]
    [Inhabited (EstimateParams F)] [Inhabited (SearchParams F)] : Inhabited (Params F) :=
  ⟨⟨100, default, default, default⟩⟩

end ProximalNewton
