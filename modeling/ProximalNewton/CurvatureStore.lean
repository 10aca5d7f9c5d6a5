import ProximalNewton.Curvature

/-!
The curvature memory in its slots.

The two-loop recursion notes a coefficient for each pair on its way from the
newest pair to the oldest, and reads it on its way back. A `CurvatureStore` is a
curvature memory with the slots for these coefficients, one beside each slot for
a pair. Nothing is ever wiped from a slot: a forgotten pair and the coefficients
of an earlier application stay until they are overwritten.

A `CurvatureCall` is one of the three things that a store can be asked to do, and
`CurvatureStore.after` is the store when it has done several of them.
-/

namespace ProximalNewton

variable {F : Type} [Scalar F] {n depth : Nat}

/-- A curvature memory with the slots for the coefficients of the two-loop
recursion. -/
structure CurvatureStore (F : Type) (n depth : Nat) where
  memory : CurvatureMemory F n depth
  /-- For each slot, the coefficient that was noted there last. -/
  coefficients : Vector F depth

namespace CurvatureStore

/-- A store without pairs. -/
def empty (curvatureTol : F) (positive : 0 < depth) : CurvatureStore F n depth where
  memory := .empty curvatureTol positive
  coefficients := Vector.replicate depth 0

/-- How many pairs are kept. -/
def size (store : CurvatureStore F n depth) : Nat :=
  store.memory.size

/-- No pair is kept. -/
def isEmpty (store : CurvatureStore F n depth) : Bool :=
  store.size == 0

/-- How many pairs there is room for. -/
def capacity (_store : CurvatureStore F n depth) : Nat :=
  depth

/-- Forgets every pair. -/
def clear (store : CurvatureStore F n depth) : CurvatureStore F n depth :=
  { store with memory := store.memory.clear }

/-- Offers a pair to the memory, and tells whether it was admitted. -/
def offer (store : CurvatureStore F n depth) (s y : Vector F n) :
    Bool × CurvatureStore F n depth :=
  (store.memory.Admits s y, { store with memory := store.memory.offer s y })

/-- The slot of the `k`-th oldest pair and of its coefficient. -/
def slot (store : CurvatureStore F n depth) (k : Nat) : Fin depth :=
  ⟨store.memory.pairs.slot k, store.memory.pairs.slot_lt k⟩

/-- The step to the `k`-th oldest pair from the next newer one: the vector loses
`α y`, and the coefficient `α = ρ s·q` is noted in the slot beside the pair. -/
def descendTo (store : CurvatureStore F n depth) (k : Nat) (live : k < store.size)
    (state : Vector F n × Vector F depth) : Vector F n × Vector F depth :=
  let pair := store.memory.pairs.get k live
  let alpha := pair.rho * dot pair.s state.1
  (state.1 + (-alpha) * pair.y, state.2.set (store.slot k) alpha)

/-- The step to the `k`-th oldest pair from the next older one: the vector gains
`(α - ρ y·q) s`, with the coefficient `α` read from the slot beside the pair. -/
def ascendTo (store : CurvatureStore F n depth) (coefficients : Vector F depth) (k : Nat)
    (live : k < store.size) (q : Vector F n) : Vector F n :=
  CurvatureMemory.ascend q (store.memory.pairs.get k live, coefficients[store.slot k])

/-- The inverse estimate applied to a vector, times `scale`, by a loop from the newest
pair to the oldest and another one back. The coefficients stay in their slots. -/
def apply (store : CurvatureStore F n depth) (scale : F) (v : Vector F n) :
    Vector F n × CurvatureStore F n depth :=
  let (q, coefficients) := Nat.foldRev store.size store.descendTo (v, store.coefficients)
  let q := CurvatureMemory.scaleInitially store.memory.pairs.newest? q
  let d := Nat.fold store.size (store.ascendTo coefficients) q
  (d.map (· * scale), { store with coefficients })

end CurvatureStore

/-- What a store can be asked to do. -/
inductive CurvatureCall (F : Type) (n : Nat) where
  | offer (s y : Vector F n)
  | clear
  | apply (scale : F) (v : Vector F n)

namespace CurvatureStore

/-- The store when it has done what it was asked. -/
def perform (store : CurvatureStore F n depth) : CurvatureCall F n → CurvatureStore F n depth
  | .offer s y => (store.offer s y).2
  | .clear => store.clear
  | .apply scale v => (store.apply scale v).2

/-- The store after several calls. -/
def after (store : CurvatureStore F n depth) (calls : List (CurvatureCall F n)) :
    CurvatureStore F n depth :=
  calls.foldl perform store

end CurvatureStore

end ProximalNewton
