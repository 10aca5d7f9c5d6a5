import ProximalNewton.Params
import ProximalNewton.RingBuffer
import ProximalNewton.Vec

/-!
Curvature memory: a limited-memory estimate of an inverse Hessian.

The memory keeps the curvature pairs `(s, y)` that were last admitted, each with
`ρ = 1 / s·y`, and applies the inverse estimate that they determine to a vector
by the two-loop recursion, without forming a matrix. A pair is admitted only if
`s·y` is finite and clearly positive, which is what keeps the estimate positive
definite.
-/

namespace ProximalNewton

/-- A change `s` of the point, the change `y` of the residual over it, and the
reciprocal of their inner product. -/
structure CurvaturePair (F : Type) (n : Nat) where
  s : Vector F n
  y : Vector F n
  rho : F

/-- The last `depth` admitted pairs. -/
structure CurvatureMemory (F : Type) (n depth : Nat) where
  pairs : RingBuffer (CurvaturePair F n) depth
  /-- The relative bound that `s·y` has to exceed. -/
  curvatureTol : F

variable {F : Type} [Scalar F] {n depth : Nat}

/-- The pair of two changes. -/
def CurvaturePair.ofChanges (s y : Vector F n) : CurvaturePair F n where
  s := s
  y := y
  rho := 1 / dot s y

namespace CurvatureMemory

/-- A memory without pairs. -/
def empty (curvatureTol : F) (positive : 0 < depth) : CurvatureMemory F n depth where
  pairs := RingBuffer.empty ⟨Vector.replicate n 0, Vector.replicate n 0, 0⟩ positive
  curvatureTol := curvatureTol

/-- How many pairs are kept. -/
def size (memory : CurvatureMemory F n depth) : Nat :=
  memory.pairs.size

/-- Forgets every pair. -/
def clear (memory : CurvatureMemory F n depth) : CurvatureMemory F n depth :=
  { memory with pairs := memory.pairs.clear }

/-- The curvature along the pair is finite and exceeds `tol ‖s‖ ‖y‖`. -/
def Admits (memory : CurvatureMemory F n depth) (s y : Vector F n) : Prop :=
  Scalar.isFinite (dot s y) = true ∧ ¬ dot s y ≤ memory.curvatureTol * norm s * norm y

instance decidableAdmits (memory : CurvatureMemory F n depth) (s y : Vector F n) :
    Decidable (memory.Admits s y) :=
  inferInstanceAs (Decidable (_ ∧ _))

/-- Keeps a pair that is admitted, over the oldest one when the memory is full;
any other pair leaves the memory as it is. -/
def offer (memory : CurvatureMemory F n depth) (s y : Vector F n) : CurvatureMemory F n depth :=
  if memory.Admits s y then { memory with pairs := memory.pairs.push (.ofChanges s y) }
  else memory

/-- The pairs after an offer: an admitted pair is appended, and the oldest one is
dropped when the memory was full. -/
theorem toList_offer (memory : CurvatureMemory F n depth) (s y : Vector F n) :
    (memory.offer s y).pairs.toList =
      if memory.Admits s y then
        (memory.pairs.toList ++ [CurvaturePair.ofChanges s y]).drop (memory.size + 1 - depth)
      else memory.pairs.toList := by
  unfold offer
  split
  · exact memory.pairs.toList_push _
  · rfl

/-! ## The two loops -/

/-- One step from a newer to an older pair: the vector loses `α y`, and the
coefficient `α = ρ s·q` is noted beside its pair. -/
def descend (pair : CurvaturePair F n)
    (state : Vector F n × List (CurvaturePair F n × F)) :
    Vector F n × List (CurvaturePair F n × F) :=
  let alpha := pair.rho * dot pair.s state.1
  (state.1 + (-alpha) * pair.y, (pair, alpha) :: state.2)

/-- One step from an older to a newer pair: the vector gains `(α - ρ y·q) s`. -/
def ascend (q : Vector F n) (noted : CurvaturePair F n × F) : Vector F n :=
  q + (noted.2 - noted.1.rho * dot noted.1.y q) * noted.1.s

/-- The initial estimate: the identity scaled by `s·y / y·y` of the newest pair,
if `y·y` is positive. -/
def scaleInitially (newest : Option (CurvaturePair F n)) (q : Vector F n) : Vector F n :=
  match newest with
  | none => q
  | some pair =>
    let yy := dot pair.y pair.y
    if 0 < yy then q.map (· * (1 / pair.rho / yy)) else q

/-- The inverse estimate applied to a vector, times `scale`. Without pairs the
estimate is the identity. -/
def applyInverse (memory : CurvatureMemory F n depth) (scale : F) (v : Vector F n) : Vector F n :=
  let (q, noted) := memory.pairs.foldr descend (v, [])
  let q := scaleInitially memory.pairs.newest? q
  (noted.foldl ascend q).map (· * scale)

end CurvatureMemory

end ProximalNewton
