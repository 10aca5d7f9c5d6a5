import ProximalNewton.Merit

/-!
The merit function in its buffers.

An evaluation of the merit function writes vectors over others. The constraint value, the
multiplier estimate and the adjoint are written over buffers that are kept from one evaluation
to the next, the slack and the gradient over vectors that the caller lends. A `MeritStore`
consists of these buffers and of the counts of evaluations. On a `Desk` there are the vectors of
the caller beside it. Nothing is ever wiped: what an earlier evaluation or the caller has left
in a vector stays there until it is overwritten.

`Writers` are the functions of a problem as they are called here. One that fails leaves what it
has written, so that an evaluation is a program with state and failure, whose state survives
the failure. `StoredMerit.perform` is one call of the merit function of a solve, and
`StoredMerit.performAll` several on one store.
-/

namespace ProximalNewton

variable {F ε : Type} {n m : Nat}

/-! ## Functions that write -/

/-- The functions of a problem, those that give a vector with one to write it over. -/
structure Writers (F ε : Type) (n m : Nat) where
  /-- The objective. -/
  f : Vector F n → Except ε F
  /-- The gradient of the objective, written over the second vector. -/
  gradF : Vector F n → Vector F n → Vector F n × Except ε Unit
  /-- The constraint map, written over the second vector. -/
  g : Vector F n → Vector F m → Vector F m × Except ε Unit
  /-- The transposed Jacobian of the constraint map, applied to the second vector and written
  over the third. -/
  gradG : Vector F n → Vector F m → Vector F n → Vector F n × Except ε Unit

/-- What was written, unless the writing failed. -/
def written {α : Type} (wrote : α × Except ε Unit) : Except ε α :=
  wrote.2.map fun _ => wrote.1

/-- The vector that a function gives, written over another one if there is one. -/
def overwrite {α : Type} (answer : Except ε α) (out : α) : α × Except ε Unit :=
  match answer with
  | .ok value => (value, .ok ())
  | .error cause => (out, .error cause)

/-- Functions that give vectors, as functions that write them. -/
def Oracles.writers (oracles : Oracles F ε n m) : Writers F ε n m where
  f := oracles.f
  gradF x := overwrite (oracles.gradF x)
  g x := overwrite (oracles.g x)
  gradG x y := overwrite (oracles.gradG x y)

variable [Scalar F]

/-- The functions of a problem as they appear to one who has them write over zeros. -/
def Writers.oracles (writers : Writers F ε n m) : Oracles F ε n m where
  f := writers.f
  gradF x := written (writers.gradF x (Vector.replicate n 0))
  g x := written (writers.g x (Vector.replicate m 0))
  gradG x y := written (writers.gradG x y (Vector.replicate n 0))

/-! ## Ingredients in place -/

/-- The slack, written over a vector: first the shifted constraint value, and then its
projection over that. -/
def slackInto (D : Box F m) (g shift z : Vector F m) : Vector F m :=
  D.projectInPlace (m.fold (fun i inside z => z.set i (g[i] + shift[i])) z)

/-- The multiplier estimate, written over a vector. -/
def multipliersInto (z g y sigma yHat : Vector F m) : Vector F m :=
  m.fold (fun i inside yHat => yHat.set i (sigma[i] * (g[i] - z[i]) + y[i])) yHat

/-- A vector added to another one in place. -/
def addInto (v out : Vector F n) : Vector F n :=
  n.fold (fun i inside out => out.set i (out[i] + v[i])) out

theorem slackInto_eq (D : Box F m) (g shift z : Vector F m) :
    slackInto D g shift z = slack D g shift := by
  unfold slackInto slack
  rw [D.projectInPlace_eq]
  congr 1
  ext i inside
  rw [getElem_fold_set_all (fun j before _ => g[j] + shift[j]) z, Vector.getElem_add]

theorem multipliersInto_eq (z g y sigma yHat : Vector F m) :
    multipliersInto z g y sigma yHat = multiplierEstimate z g y sigma := by
  ext i inside
  unfold multipliersInto multiplierEstimate
  rw [getElem_fold_set_all (fun j before _ => sigma[j] * (g[j] - z[j]) + y[j]) yHat]
  simp

theorem addInto_eq (v out : Vector F n) : addInto v out = out + v := by
  ext i inside
  unfold addInto
  rw [getElem_fold_set_all (fun j before component => component + v[j]) out, Vector.getElem_add]

/-! ## Evaluations in place -/

/-- What stays fixed while the merit function of one solve is evaluated in its buffers. -/
structure StoredMerit (F ε : Type) (n m : Nat) where
  writers : Writers F ε n m
  D : Box F m
  sigma : Vector F m
  y : Vector F m

/-- The same merit function without buffers. -/
def StoredMerit.merit (stored : StoredMerit F ε n m) : Merit F ε n m where
  oracles := stored.writers.oracles
  D := stored.D
  sigma := stored.sigma
  y := stored.y

/-- The buffers of a merit function, and how often its value and its gradient have been
evaluated. -/
structure MeritStore (F : Type) (n m : Nat) where
  constraint : Vector F m
  adjoint : Vector F n
  multipliers : Vector F m
  fEvals : Nat
  gradEvals : Nat

/-- The store of a merit function that has not been evaluated. -/
def MeritStore.blank : MeritStore F n m where
  constraint := Vector.replicate m 0
  adjoint := Vector.replicate n 0
  multipliers := Vector.replicate m 0
  fEvals := 0
  gradEvals := 0

/-- What is recorded in a store. -/
def MeritStore.ledger (store : MeritStore F n m) : Ledger F m where
  constraint := store.constraint
  multipliers := store.multipliers
  fEvals := store.fEvals
  gradEvals := store.gradEvals

/-- A store with the vectors that the caller lends to an evaluation. -/
structure Desk (F : Type) (n m : Nat) extends MeritStore F n m where
  z : Vector F m
  gradPsi : Vector F n

/-- Has a part of what is on the desk written over. What is written when this fails stays. -/
def Desk.writeOver {α : Type} (part : Desk F n m → α) (replace : Desk F n m → α → Desk F n m)
    (write : α → α × Except ε Unit) : EStateM ε (Desk F n m) Unit := fun desk =>
  match write (part desk) with
  | (new, .ok ()) => .ok () (replace desk new)
  | (new, .error cause) => .error cause (replace desk new)

namespace StoredMerit

variable (stored : StoredMerit F ε n m)

/-- Has the constraint map write over its buffer. -/
def writeConstraint (x : Vector F n) : EStateM ε (Desk F n m) Unit :=
  Desk.writeOver (·.constraint) (fun desk constraint => { desk with constraint })
    (stored.writers.g x)

/-- Has the gradient of the objective written over the merit gradient. -/
def writeGradF (x : Vector F n) : EStateM ε (Desk F n m) Unit :=
  Desk.writeOver (·.gradPsi) (fun desk gradPsi => { desk with gradPsi }) (stored.writers.gradF x)

/-- Has the adjoint for the multiplier estimate written over its buffer. -/
def writeAdjoint (x : Vector F n) : EStateM ε (Desk F n m) Unit := do
  let desk ← get
  Desk.writeOver (·.adjoint) (fun desk adjoint => { desk with adjoint })
    (stored.writers.gradG x desk.multipliers)

/-- Has the objective evaluated. -/
def objective (x : Vector F n) : EStateM ε (Desk F n m) F := fun desk =>
  match stored.writers.f x with
  | .ok f => .ok f desk
  | .error cause => .error cause desk

/-- The merit value, from the constraint value and the slack that have been written. -/
def psi (x : Vector F n) : EStateM ε (Desk F n m) F := do
  modify fun desk => { desk with fEvals := desk.fEvals + 1 }
  let desk ← get
  let f ← stored.objective x
  return f + 0.5 * distanceSq desk.constraint stored.merit.shift desk.z stored.sigma

/-- Writes the constraint value and the slack. -/
def writeSlack (x : Vector F n) : EStateM ε (Desk F n m) Unit := do
  stored.writeConstraint x
  modify fun desk =>
    { desk with z := slackInto stored.D desk.constraint stored.merit.shift desk.z }

/-- Slack and merit value at a point. -/
def value (x : Vector F n) : EStateM ε (Desk F n m) F := do
  stored.writeSlack x
  stored.psi x

/-- Slack, multiplier estimate and merit gradient at a point. -/
def gradient (x : Vector F n) : EStateM ε (Desk F n m) Unit := do
  stored.writeSlack x
  modify fun desk =>
    { desk with
      multipliers :=
        multipliersInto desk.z desk.constraint stored.y stored.sigma desk.multipliers
      gradEvals := desk.gradEvals + 1 }
  stored.writeGradF x
  stored.writeAdjoint x
  modify fun desk => { desk with gradPsi := addInto desk.adjoint desk.gradPsi }

/-- Slack, multiplier estimate, merit gradient and merit value at a point, with the constraint
map evaluated once. -/
def evaluate (x : Vector F n) : EStateM ε (Desk F n m) F := do
  stored.gradient x
  stored.psi x

end StoredMerit

/-! ## Calls -/

/-- What a merit function can be asked for. -/
inductive MeritQuery where
  | value
  | gradient
  | both
  deriving DecidableEq

/-- The value is asked for. -/
def MeritQuery.wantsValue : MeritQuery → Bool
  | value => true
  | gradient => false
  | both => true

/-- The gradient is asked for. -/
def MeritQuery.wantsGradient : MeritQuery → Bool
  | value => false
  | gradient => true
  | both => true

/-- A call of a merit function, with the vectors that the caller lends to it. -/
structure MeritCall (F : Type) (n m : Nat) where
  query : MeritQuery
  x : Vector F n
  z : Vector F m
  gradPsi : Vector F n

/-- What the caller has after a call: the vectors that were lent, and the merit value if it was
asked for. -/
structure MeritReply (F : Type) (n m : Nat) where
  z : Vector F m
  gradPsi : Vector F n
  psi : Option F

namespace StoredMerit

variable (stored : StoredMerit F ε n m)

/-- Evaluates what is asked for. -/
def answer (x : Vector F n) : MeritQuery → EStateM ε (Desk F n m) (Option F)
  | .value => some <$> stored.value x
  | .gradient => (fun _ => none) <$> stored.gradient x
  | .both => some <$> stored.evaluate x

/-- Performs a call on a store. -/
def perform (call : MeritCall F n m) : EStateM ε (MeritStore F n m) (MeritReply F n m) :=
  fun store =>
    match stored.answer call.x call.query { store with z := call.z, gradPsi := call.gradPsi } with
    | .ok psi desk => .ok { z := desk.z, gradPsi := desk.gradPsi, psi } desk.toMeritStore
    | .error cause desk => .error cause desk.toMeritStore

/-- Performs several calls on one store, until one fails. -/
def performAll : List (MeritCall F n m) →
    EStateM ε (MeritStore F n m) (List (MeritReply F n m))
  | [] => pure []
  | call :: calls => do
    let reply ← stored.perform call
    let replies ← performAll calls
    return reply :: replies

end StoredMerit

end ProximalNewton
