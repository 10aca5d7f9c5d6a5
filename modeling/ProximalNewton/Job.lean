import ProximalNewton.Merit
import ProximalNewton.Params

/-!
Admission of a solve.

A `Request` is what a caller hands over: a problem that states its own
dimensions, buffers of any size, weights, settings and a tolerance.
`Request.fault?` tests the conditions on it in a fixed order and finds the first
that fails. A `Job` is an admitted request, with every size in its type and
every condition in its fields; `Request.accept` makes the one from the other.
-/

namespace ProximalNewton

/-- The vectors that a solve reads and, on success, replaces. -/
structure Buffers (F : Type) where
  /-- Initial guess, and then the solution. -/
  x : Array F
  /-- Slack at the solution. -/
  z : Array F
  /-- Multipliers. -/
  y : Array F
  /-- Constraint residual `g(x) - z` at the solution. -/
  errZ : Array F

/-- What a caller asks to be solved. -/
structure Request (F ε : Type) where
  problem : Problem F ε
  params : Params F
  buffers : Buffers F
  /-- Penalty weights. -/
  sigma : Array F
  /-- Tolerance on the residual. -/
  eps : F

/-- An admitted request for `n` variables and `m` constraints. -/
structure Job (F ε : Type) [Scalar F] (n m : Nat) where
  oracles : Oracles F ε n m
  C : Box F n
  D : Box F m
  x : Vector F n
  y : Vector F m
  sigma : Vector F m
  params : Params F
  eps : F
  numVars_pos : 0 < n
  C_valid : C.Valid
  D_valid : D.Valid
  sigma_pos : ∀ weight ∈ sigma, IsPositive weight
  params_valid : params.Valid
  eps_pos : 0 < eps

variable {F ε : Type} [Scalar F]

/-- The merit function that a job minimises. -/
def Job.merit {n m : Nat} (job : Job F ε n m) : Merit F ε n m where
  oracles := job.oracles
  D := job.D
  sigma := job.sigma
  y := job.y

/-- A box of the same sides in an equal dimension. -/
def Box.cast {n n' : Nat} (same : n = n') (box : Box F n) : Box F n' :=
  ⟨box.sides.cast same⟩

omit [Scalar F] in
@[simp]
theorem Box.cast_rfl {n : Nat} (box : Box F n) : box.cast rfl = box := rfl

namespace Request

/-- Every argument that has a size, with the size expected and its own, in the
order in which sizes are compared. -/
def sizes (request : Request F ε) : List (Argument × Nat × Nat) :=
  let n := request.problem.numVars
  let m := request.problem.numConstraints
  [(.x, n, request.buffers.x.size),
    (.C, n, request.problem.dimC),
    (.D, m, request.problem.dimD),
    (.z, m, request.buffers.z.size),
    (.y, m, request.buffers.y.size),
    (.errZ, m, request.buffers.errZ.size),
    (.sigma, m, request.sigma.size)]

/-- The first argument of a wrong size. -/
def sizeFault? (request : Request F ε) : Option (SolveError F ε) :=
  request.sizes.findSome? fun (which, expected, actual) =>
    if expected = actual then none else some (.size which expected actual)

/-- The first weight that is not finite and positive. -/
def weightFault? (request : Request F ε) : Option (InputFault F) :=
  request.sigma.toList.zipIdx.findSome? fun (weight, index) =>
    if IsPositive weight then none else some (.weight index weight)

/-- The first condition that the request fails: there are variables, sizes
agree, `C` and then `D` is valid, weights are positive, settings are in range,
and the tolerance is positive. -/
def fault? (request : Request F ε) : Option (SolveError F ε) :=
  (if request.problem.numVars = 0 then some (.parameter .numVars) else none) <|>
  request.sizeFault? <|>
  (request.problem.C.fault? .C).map .input <|>
  (request.problem.D.fault? .D).map .input <|>
  request.weightFault?.map .input <|>
  request.params.fault?.map (fun which => .parameter (.setting which)) <|>
  (if 0 < request.eps then none else some (.parameter .tolerance))

omit [Scalar F] in
theorem sizes_agree {request : Request F ε} (agree : request.sizeFault? = none) :
    request.buffers.x.size = request.problem.numVars ∧
      request.problem.dimC = request.problem.numVars ∧
      request.problem.dimD = request.problem.numConstraints ∧
      request.buffers.z.size = request.problem.numConstraints ∧
      request.buffers.y.size = request.problem.numConstraints ∧
      request.buffers.errZ.size = request.problem.numConstraints ∧
      request.sigma.size = request.problem.numConstraints := by
  have agree := List.findSome?_eq_none_iff.mp agree
  simp only [sizes, List.mem_cons, List.not_mem_nil, or_false, forall_eq_or_imp, forall_eq,
    ite_eq_left_iff, reduceCtorEq, imp_false, Decidable.not_not] at agree
  obtain ⟨x, C, D, z, y, errZ, sigma⟩ := agree
  exact ⟨x.symm, C.symm, D.symm, z.symm, y.symm, errZ.symm, sigma.symm⟩

theorem weights_positive {request : Request F ε} (none_found : request.weightFault? = none) :
    ∀ weight ∈ request.sigma, IsPositive weight := by
  intro weight member
  obtain ⟨index, inside, rfl⟩ := Array.mem_iff_getElem.mp member
  have tested := List.findSome?_eq_none_iff.mp none_found (request.sigma[index], index)
    (List.mem_zipIdx_iff_getElem?.mpr (by simp [inside]))
  simpa using tested

/-- A request is without fault exactly when it passes every test. -/
theorem fault?_eq_none_iff {request : Request F ε} :
    request.fault? = none ↔
      0 < request.problem.numVars ∧ request.sizeFault? = none ∧ request.problem.C.Valid ∧
        request.problem.D.Valid ∧ request.weightFault? = none ∧ request.params.Valid ∧
        0 < request.eps := by
  simp only [fault?, Option.orElse_eq_orElse, Option.orElse_eq_or, Option.or_eq_none_iff,
    Option.map_eq_none_iff, ite_eq_right_iff, ite_eq_left_iff, reduceCtorEq, imp_false,
    Decidable.not_not, Box.fault?_eq_none_iff, Params.fault?_eq_none_iff, Nat.pos_iff_ne_zero]

/-- The conditions on a request, as they follow from the absence of a fault. -/
theorem conditions_of_faultless {request : Request F ε} (faultless : request.fault? = none) :
    0 < request.problem.numVars ∧ request.sizeFault? = none ∧ request.problem.C.Valid ∧
      request.problem.D.Valid ∧ (∀ weight ∈ request.sigma, IsPositive weight) ∧
      request.params.Valid ∧ 0 < request.eps := by
  obtain ⟨vars, sizes, C_valid, D_valid, weights, params, eps⟩ := fault?_eq_none_iff.mp faultless
  exact ⟨vars, sizes, C_valid, D_valid, weights_positive weights, params, eps⟩

/-- The job of a request without fault. -/
def job (request : Request F ε) (faultless : request.fault? = none) :
    Job F ε request.problem.numVars request.problem.numConstraints :=
  have conditions := conditions_of_faultless faultless
  have agree := sizes_agree conditions.2.1
  { oracles := request.problem.oracles
    C := request.problem.C.cast agree.2.1
    D := request.problem.D.cast agree.2.2.1
    x := ⟨request.buffers.x, agree.1⟩
    y := ⟨request.buffers.y, agree.2.2.2.2.1⟩
    sigma := ⟨request.sigma, agree.2.2.2.2.2.2⟩
    params := request.params
    eps := request.eps
    numVars_pos := conditions.1
    C_valid := fun i inside => conditions.2.2.1 i (agree.2.1 ▸ inside)
    D_valid := fun i inside => conditions.2.2.2.1 i (agree.2.2.1 ▸ inside)
    sigma_pos := fun weight member => conditions.2.2.2.2.1 weight (Vector.mem_mk.mp member)
    params_valid := conditions.2.2.2.2.2.1
    eps_pos := conditions.2.2.2.2.2.2 }

/-- The job of a request, or the first condition that the request fails. -/
def accept (request : Request F ε) :
    Except (SolveError F ε) (Job F ε request.problem.numVars request.problem.numConstraints) :=
  match tested : request.fault? with
  | some fault => .error fault
  | none => .ok (request.job tested)

end Request

end ProximalNewton
