import ProximalNewton.Box

/-!
Problems `minimise f(x)` subject to `x ∈ C` and `g(x) ∈ D`.

The functions of a problem are given by oracles, which may fail with an error of
their own type. A `Problem` states its dimensions beside its sets; that the two
agree is checked when a solve is admitted.
-/

namespace ProximalNewton

/-- The functions of a problem with `n` variables and `m` constraints. -/
structure Oracles (F ε : Type) (n m : Nat) where
  /-- The objective. -/
  f : Vector F n → Except ε F
  /-- The gradient of the objective. -/
  gradF : Vector F n → Except ε (Vector F n)
  /-- The constraint map. -/
  g : Vector F n → Except ε (Vector F m)
  /-- The transposed Jacobian of the constraint map, applied to a vector. -/
  gradG : Vector F n → Vector F m → Except ε (Vector F n)

/-- A problem as its owner states it. -/
structure Problem (F ε : Type) where
  numVars : Nat
  numConstraints : Nat
  oracles : Oracles F ε numVars numConstraints
  dimC : Nat
  dimD : Nat
  /-- The feasible set of the variables. -/
  C : Box F dimC
  /-- The target set of the constraint map. -/
  D : Box F dimD

end ProximalNewton
