import ProximalNewton.Checked
import ProximalNewton.Params

/-!
The curvature memory in arrays.

The slots of a curvature memory are four arrays: one for each part of a pair, and one for the
coefficients of the two-loop recursion. They are allocated once and written over and over. Where
a slot is, is computed from the head and the number of live pairs, and every access to it is
checked.
-/

namespace ProximalNewton

/-- The slots of a curvature memory. -/
structure CurvatureSlots (F : Type) where
  s : Array (Array F)
  y : Array (Array F)
  rho : Array F
  /-- For each slot, the coefficient that was noted there last. -/
  alpha : Array F
  /-- The slot that takes the next pair. -/
  head : Nat
  /-- How many pairs are live. -/
  size : Nat
  /-- The relative bound that `s·y` has to exceed. -/
  curvatureTol : F

namespace CurvatureSlots

variable {E F : Type} [Scalar F]

/-- Slots for pairs of vectors of size `n`. There must be at least one. -/
def allocate (n : Nat) (params : MemoryParams F) : Checked E (CurvatureSlots F) :=
  if params.depth = 0 then Checked.refuse .noSlots
  else return {
    s := Array.replicate params.depth (Array.replicate n 0)
    y := Array.replicate params.depth (Array.replicate n 0)
    rho := Array.replicate params.depth 0
    alpha := Array.replicate params.depth 0
    head := 0
    size := 0
    curvatureTol := params.curvatureTol }

variable (slots : CurvatureSlots F)

/-- How many slots there are. -/
def capacity : Nat :=
  slots.s.size

/-- Forgets every pair. -/
def clear : CurvatureSlots F :=
  { slots with head := 0, size := 0 }

/-- The slot of the `k`-th oldest pair. -/
def slot (k : Nat) : Checked E Nat := do
  let oldest ← Checked.below (slots.head + slots.capacity) slots.size
  Checked.modulo (oldest + k) slots.capacity

/-- Copies a vector over the one in a slot. -/
def store (vectors : Array (Array F)) (i : Nat) (vector : Array F) :
    Checked E (Array (Array F)) := do
  let stored ← Checked.copy (← Checked.read vectors i) vector
  Checked.write vectors i stored

/-- Offers a pair, and tells whether it was admitted. -/
def offer (s y : Array F) : Checked E (Bool × CurvatureSlots F) := do
  Checked.agree s.size y.size
  let curvature ← Checked.dot s y
  let bound := slots.curvatureTol * Checked.norm s * Checked.norm y
  if Scalar.isFinite curvature = true ∧ ¬ curvature ≤ bound then
    let stored ← store slots.s slots.head s
    let storedY ← store slots.y slots.head y
    let rho ← Checked.write slots.rho slots.head (1 / curvature)
    let head ← Checked.modulo (slots.head + 1) slots.capacity
    return (true, { slots with
      s := stored
      y := storedY
      rho
      head
      size := min (slots.size + 1) slots.capacity })
  else
    return (false, slots)

/-! ## The two loops -/

/-- The step to the `k`-th oldest pair from the next newer one. -/
def descendTo (state : Array F × Array F) (k : Nat) : Checked E (Array F × Array F) := do
  let i ← slots.slot k
  let alpha := (← Checked.read slots.rho i) * (← Checked.dot (← Checked.read slots.s i) state.1)
  let noted ← Checked.write state.2 i alpha
  let d ← Checked.accumulate state.1 (-alpha) (← Checked.read slots.y i)
  return (d, noted)

/-- The initial estimate, from the newest pair. -/
def scaleInitially (d : Array F) : Checked E (Array F) := do
  let newest ← slots.slot (← Checked.below slots.size 1)
  let y ← Checked.read slots.y newest
  let yy ← Checked.dot y y
  if 0 < yy then
    return Checked.scale d (1 / (← Checked.read slots.rho newest) / yy)
  else
    return d

/-- The step to the `k`-th oldest pair from the next older one. -/
def ascendTo (noted : Array F) (d : Array F) (k : Nat) : Checked E (Array F) := do
  let i ← slots.slot k
  let beta := (← Checked.read slots.rho i) * (← Checked.dot (← Checked.read slots.y i) d)
  Checked.accumulate d ((← Checked.read noted i) - beta) (← Checked.read slots.s i)

/-- The two loops over the live pairs, from the newest to the oldest and back. -/
def twoLoops (d : Array F) : Checked E (Array F × CurvatureSlots F) := do
  let (d, alpha) ← (List.range slots.size).reverse.foldlM slots.descendTo (d, slots.alpha)
  let d ← slots.scaleInitially d
  let d ← (List.range slots.size).foldlM (slots.ascendTo alpha) d
  return (d, { slots with alpha })

/-- The inverse estimate applied to `v`, times `scale`, written over `d`. -/
def apply (scale : F) (v d : Array F) : Checked E (Array F × CurvatureSlots F) := do
  Checked.agree v.size d.size
  let d ← Checked.copy d v
  if 0 < slots.size then
    let (d, slots) ← slots.twoLoops d
    return (Checked.scale d scale, slots)
  else
    return (Checked.scale d scale, slots)

end CurvatureSlots

end ProximalNewton
