import ProximalNewton.Proofs.Dialogue

/-!
# The contract on the input of a solve

A request has to meet about twenty conditions, some of them for every component of a set or
of the weights. `Request.contract` lists all of them, in the order in which they are tested:
there is a variable, seven sizes agree, the sides of `C` and then those of `D` are valid, the
weights are positive, the settings are in their ranges, and the tolerance is positive. A
`Condition` carries what it is about, and `Condition.Violation` is the error that reports it.

* `Request.fault?_eq_some_iff`: the fault of a request is that of the first condition of its
  contract that does not hold.
* `Job.isRefusal_of_solve`: the answer to an admitted request is not an error of that kind,
  whichever way its run ends.
* `Request.solve_contract`: a solve is refused exactly when a condition is violated, and then
  by the first one, before a function of the problem or the observer has been called.
-/

namespace ProximalNewton

variable {F ε σ : Type} {n m : Nat}

/-! ## Conditions -/

/-- A condition on a request, with what it is about. -/
inductive Condition (F : Type) where
  /-- There is a variable. -/
  | numVars (count : Nat)
  /-- An argument has the size that is expected. -/
  | size (which : Argument) (expected actual : Nat)
  /-- One side of a set is valid. -/
  | interval (role : Role) (index : Nat) (side : Interval F)
  /-- A penalty weight is finite and positive. -/
  | weight (index : Nat) (value : F)
  /-- A setting is in its range. -/
  | setting (which : Setting) (params : Params F)
  /-- The tolerance is positive. -/
  | tolerance (eps : F)

/-- The request was refused, and has not been run. -/
def SolveError.isRefusal : SolveError F ε → Bool
  | .iterationLimit .. => false
  | .stepSize .. => false
  | .input _ => true
  | .parameter _ => true
  | .size .. => true
  | .interrupted _ => false
  | .oracle _ => false

variable [Scalar F]

namespace Condition

def Holds : Condition F → Prop
  | .numVars count => 0 < count
  | .size _ expected actual => expected = actual
  | .interval _ _ side => side.Valid
  | .weight _ value => IsPositive value
  | .setting which params => params.Meets which
  | .tolerance eps => 0 < eps

/-- The condition does not hold, and the error says so. -/
inductive Violation : Condition F → SolveError F ε → Prop
  | numVars : Violation (.numVars 0) (.parameter .numVars)
  | size {which : Argument} {expected actual : Nat} (differ : expected ≠ actual) :
    Violation (.size which expected actual) (.size which expected actual)
  | unordered {role : Role} {index : Nat} {side : Interval F} (unordered : side.Unordered) :
    Violation (.interval role index side) (.input (.unordered role index))
  | inverted {role : Role} {index : Nat} {side : Interval F} {low high : F}
    (ordered : ¬ side.Unordered) (lower : side.lower = some low) (upper : side.upper = some high)
    (crossed : high < low) :
    Violation (.interval role index side) (.input (.inverted role index low high))
  | weight {index : Nat} {value : F} (not_positive : ¬ IsPositive value) :
    Violation (.weight index value) (.input (.weight index value))
  | setting {which : Setting} {params : Params F} (outside : ¬ params.Meets which) :
    Violation (.setting which params) (.parameter (.setting which))
  | tolerance {eps : F} (not_positive : ¬ 0 < eps) :
    Violation (.tolerance eps) (.parameter .tolerance)

/-- The error that reports the condition, unless it holds. -/
def fault? : Condition F → Option (SolveError F ε)
  | .numVars count => if count = 0 then some (.parameter .numVars) else none
  | .size which expected actual =>
    if expected = actual then none else some (.size which expected actual)
  | .interval role index side => (side.fault? role index).map .input
  | .weight index value => if IsPositive value then none else some (.input (.weight index value))
  | .setting which params =>
    if params.Meets which then none else some (.parameter (.setting which))
  | .tolerance eps => if 0 < eps then none else some (.parameter .tolerance)

theorem fault?_eq_none_iff {condition : Condition F} :
    (condition.fault? : Option (SolveError F ε)) = none ↔ condition.Holds := by
  cases condition with
  | numVars count => simp [fault?, Holds, Nat.pos_iff_ne_zero]
  | size which expected actual => simp [fault?, Holds]
  | interval role index side => simp [fault?, Holds, Interval.fault?_eq_none_iff]
  | weight index value => simp [fault?, Holds]
  | setting which params => simp [fault?, Holds]
  | tolerance eps => simp [fault?, Holds]

theorem fault?_eq_some_iff {condition : Condition F} {error : SolveError F ε} :
    condition.fault? = some error ↔ condition.Violation error := by
  constructor
  · intro found
    cases condition with
    | numVars count =>
      obtain ⟨rfl, same⟩ := Option.ite_none_right_eq_some.mp found
      cases same
      exact .numVars
    | size which expected actual =>
      obtain ⟨differ, same⟩ := Option.ite_none_left_eq_some.mp found
      cases same
      exact .size differ
    | interval role index side =>
      obtain ⟨fault, defect, rfl⟩ := Option.map_eq_some_iff.mp found
      rcases Interval.fault?_eq_some_iff.mp defect with
        ⟨unordered, rfl⟩ | ⟨ordered, ends, inversion, rfl⟩
      · exact .unordered unordered
      · obtain ⟨lower, upper, crossed⟩ := Interval.inversion?_eq_some_iff.mp inversion
        exact .inverted ordered lower upper crossed
    | weight index value =>
      obtain ⟨not_positive, same⟩ := Option.ite_none_left_eq_some.mp found
      cases same
      exact .weight not_positive
    | setting which params =>
      obtain ⟨outside, same⟩ := Option.ite_none_left_eq_some.mp found
      cases same
      exact .setting outside
    | tolerance eps =>
      obtain ⟨not_positive, same⟩ := Option.ite_none_left_eq_some.mp found
      cases same
      exact .tolerance not_positive
  · intro violation
    cases violation with
    | numVars => rfl
    | size differ => exact if_neg differ
    | unordered unordered =>
      exact Option.map_eq_some_iff.mpr
        ⟨_, Interval.fault?_eq_some_iff.mpr (.inl ⟨unordered, rfl⟩), rfl⟩
    | @inverted role index side low high ordered lower upper crossed =>
      have inversion : side.inversion? = some (low, high) :=
        Interval.inversion?_eq_some_iff.mpr ⟨lower, upper, crossed⟩
      exact Option.map_eq_some_iff.mpr
        ⟨_, Interval.fault?_eq_some_iff.mpr (.inr ⟨ordered, _, inversion, rfl⟩), rfl⟩
    | weight not_positive => exact if_neg not_positive
    | setting outside => exact if_neg outside
    | tolerance not_positive => exact if_neg not_positive

theorem Violation.not_holds {condition : Condition F} {error : SolveError F ε}
    (violation : condition.Violation error) : ¬ condition.Holds := by
  rw [← fault?_eq_none_iff (ε := ε), fault?_eq_some_iff.mpr violation]
  exact nofun

/-- A violation is reported as a refusal. -/
theorem Violation.isRefusal {condition : Condition F} {error : SolveError F ε}
    (violation : condition.Violation error) : error.isRefusal = true := by
  cases violation <;> rfl

end Condition

/-! ## The contract -/

/-- The conditions on the sides of a set, by their index. -/
def Box.conditions (role : Role) (box : Box F n) : List (Condition F) :=
  box.sides.toList.zipIdx.map fun (side, index) => .interval role index side

namespace Request

/-- The conditions on a request, in the order in which they are tested. -/
def contract (request : Request F ε) : List (Condition F) :=
  let n := request.problem.numVars
  let m := request.problem.numConstraints
  [.numVars n,
    .size .x n request.buffers.x.size,
    .size .C n request.problem.dimC,
    .size .D m request.problem.dimD,
    .size .z m request.buffers.z.size,
    .size .y m request.buffers.y.size,
    .size .errZ m request.buffers.errZ.size,
    .size .sigma m request.sigma.size] ++
  request.problem.C.conditions .C ++
  request.problem.D.conditions .D ++
  request.sigma.toList.zipIdx.map (fun (value, index) => .weight index value) ++
  [.setting .maxIter request.params,
    .setting .memoryDepth request.params,
    .setting .curvatureTol request.params,
    .setting .epsilon request.params,
    .setting .delta request.params,
    .setting .lMin request.params,
    .setting .tauMin request.params,
    .tolerance request.eps]

/-- The error reports a condition of the contract that is violated, and all those before it
hold. -/
def FirstViolation (request : Request F ε) (error : SolveError F ε) : Prop :=
  ∃ before condition after, request.contract = before ++ condition :: after ∧
    (∀ passed ∈ before, passed.Holds) ∧ condition.Violation error

end Request

theorem Box.findSome?_conditions (role : Role) (box : Box F n) :
    (box.conditions role).findSome? Condition.fault? =
      (box.fault? role).map (.input : InputFault F → SolveError F ε) := by
  unfold conditions fault?
  rw [List.findSome?_map, List.map_findSome?]
  rfl

theorem Params.findSome?_settings (params : Params F) :
    (Setting.all.map fun which => Condition.setting which params).findSome? Condition.fault? =
      params.fault?.map fun which => (.parameter (.setting which) : SolveError F ε) := by
  unfold fault?
  rw [List.findSome?_map, List.find?_eq_findSome?_guard, List.map_findSome?]
  congr 1
  funext which
  by_cases meets : params.Meets which
  · simp [Condition.fault?, Option.guard, meets]
  · simp [Condition.fault?, Option.guard, meets]

namespace Request

variable {request : Request F ε}

theorem findSome?_sizes :
    (request.sizes.map fun (which, expected, actual) =>
      Condition.size which expected actual).findSome? Condition.fault? = request.sizeFault? := by
  rw [List.findSome?_map]
  rfl

theorem findSome?_weights :
    (request.sigma.toList.zipIdx.map fun (value, index) =>
      Condition.weight index value).findSome? Condition.fault? =
        request.weightFault?.map (.input : InputFault F → SolveError F ε) := by
  unfold weightFault?
  rw [List.findSome?_map, List.map_findSome?]
  congr 1
  funext entry
  by_cases positive : IsPositive entry.1
  · simp [Condition.fault?, positive]
  · simp [Condition.fault?, positive]

/-- The fault of a request is that of its contract. -/
theorem fault?_eq_findSome? : request.fault? = request.contract.findSome? Condition.fault? := by
  have listed : request.contract =
      [.numVars request.problem.numVars] ++
      request.sizes.map (fun (which, expected, actual) => .size which expected actual) ++
      request.problem.C.conditions .C ++
      request.problem.D.conditions .D ++
      request.sigma.toList.zipIdx.map (fun (value, index) => .weight index value) ++
      Setting.all.map (fun which => .setting which request.params) ++
      [.tolerance request.eps] := by
    simp [contract, sizes, Setting.all]
  rw [listed]
  simp only [List.findSome?_append, findSome?_sizes, Box.findSome?_conditions,
    findSome?_weights, Params.findSome?_settings]
  simp only [fault?, Option.orElse_eq_orElse, Option.orElse_eq_or, Option.or_assoc,
    List.findSome?_singleton, Condition.fault?]

/-- The fault of a request is that of the first condition of its contract that is
violated. -/
theorem fault?_eq_some_iff {error : SolveError F ε} :
    request.fault? = some error ↔ request.FirstViolation error := by
  rw [fault?_eq_findSome?, List.findSome?_eq_some_iff]
  simp only [Condition.fault?_eq_some_iff, Condition.fault?_eq_none_iff]
  unfold FirstViolation
  constructor
  · rintro ⟨before, condition, after, listed, violation, passed⟩
    exact ⟨before, condition, after, listed, passed, violation⟩
  · rintro ⟨before, condition, after, listed, passed, violation⟩
    exact ⟨before, condition, after, listed, violation, passed⟩

/-- A request is without fault exactly when its contract holds. -/
theorem fault?_eq_none_iff_contract :
    request.fault? = none ↔ ∀ condition ∈ request.contract, condition.Holds := by
  rw [fault?_eq_findSome?, List.findSome?_eq_none_iff]
  simp only [Condition.fault?_eq_none_iff]

/-- Some condition is violated exactly when the request has a fault. -/
theorem violated_iff : (∃ condition ∈ request.contract, ¬ condition.Holds) ↔
    ∃ error, request.fault? = some error := by
  cases tested : request.fault? with
  | none =>
    have holds := fault?_eq_none_iff_contract.mp tested
    constructor
    · rintro ⟨condition, member, violated⟩
      exact absurd (holds condition member) violated
    · exact nofun
  | some error =>
    obtain ⟨before, condition, after, listed, -, violation⟩ := fault?_eq_some_iff.mp tested
    have member : condition ∈ request.contract := by
      rw [listed]
      exact List.mem_append_right before List.mem_cons_self
    exact ⟨fun _ => ⟨error, rfl⟩, fun _ => ⟨condition, member, violation.not_holds⟩⟩

theorem FirstViolation.isRefusal {error : SolveError F ε}
    (violated : request.FirstViolation error) : error.isRefusal = true := by
  obtain ⟨-, condition, -, -, -, violation⟩ := violated
  exact violation.isRefusal

end Request

/-! ## The answer to an admitted request -/

/-- However a transcript closes, the answer is not a refusal. -/
theorem Job.Closes.isRefusal {job : Job F ε n m} {blocks : List (Block F)}
    {closing : List (Signal F)} {error : SolveError F ε}
    (closes : job.Closes blocks closing (.error error)) : error.isRefusal = false := by
  cases closes <;> rfl

theorem Job.isRefusal_of_solve {job : Job F ε n m} {observer : Observer F σ} {listener : σ}
    {error : SolveError F ε} (failed : (job.solve observer listener).2 = .error error) :
    error.isRefusal = false := by
  obtain ⟨blocks, closing, -, -, closes⟩ := job.solve_transcript observer listener
  rw [failed] at closes
  exact closes.isRefusal

/-- An error that is not a refusal is one of the four ways in which a run fails. -/
theorem SolveError.cases_of_isRefusal_eq_false {F ε : Type} {error : SolveError F ε}
    (admitted : error.isRefusal = false) :
    (∃ iterations residual, error = .iterationLimit iterations residual) ∨
    (∃ iteration updates lipschitz, error = .stepSize iteration updates lipschitz) ∨
    (∃ iterations, error = .interrupted iterations) ∨ ∃ cause, error = .oracle cause := by
  cases error with
  | iterationLimit iterations residual => exact .inl ⟨iterations, residual, rfl⟩
  | stepSize iteration updates lipschitz => exact .inr (.inl ⟨iteration, updates, lipschitz, rfl⟩)
  | interrupted iterations => exact .inr (.inr (.inl ⟨iterations, rfl⟩))
  | oracle cause => exact .inr (.inr (.inr ⟨cause, rfl⟩))
  | input fault => cases admitted
  | parameter which => cases admitted
  | size which expected actual => cases admitted

/-! ## Requests -/

namespace Request

variable (request : Request F ε)

/-- How a solve decides the contract on its input. -/
structure DecidesContract (observer : Observer F σ) (listener : σ) : Prop where
  /-- It is refused when a condition does not hold, and only then. -/
  refused_iff :
    (∃ error, (request.solve observer listener).result = .error error ∧ error.isRefusal = true) ↔
      ∃ condition ∈ request.contract, ¬ condition.Holds
  /-- The error of a refusal reports the first condition that does not hold. -/
  refused_with_iff : ∀ error : SolveError F ε, error.isRefusal = true →
    ((request.solve observer listener).result = .error error ↔ request.FirstViolation error)
  /-- Before it is refused nothing is said, to the problem or to the observer, and nothing is
  written: the same comes back whatever the functions of the problem are. -/
  refused_untouched : (∃ condition ∈ request.contract, ¬ condition.Holds) →
    ∃ error, request.FirstViolation error ∧ ∀ oracles,
      (request.conversation oracles observer listener).remarks = [] ∧
      (request.withOracles oracles).solve observer listener =
        { buffers := request.buffers, result := .error error, listener }
  /-- When all conditions hold it succeeds or fails as a run does. -/
  admitted : (∀ condition ∈ request.contract, condition.Holds) →
    (∃ summary, (request.solve observer listener).result = .ok summary) ∨
    (∃ iterations residual, (request.solve observer listener).result =
      .error (.iterationLimit iterations residual)) ∨
    (∃ iteration updates lipschitz, (request.solve observer listener).result =
      .error (.stepSize iteration updates lipschitz)) ∨
    (∃ iterations, (request.solve observer listener).result = .error (.interrupted iterations)) ∨
    ∃ cause, (request.solve observer listener).result = .error (.oracle cause)

variable {request} {observer : Observer F σ} {listener : σ}

/-- A refusal is the fault of the request. -/
theorem solve_eq_refusal_iff {error : SolveError F ε} (refusal : error.isRefusal = true) :
    (request.solve observer listener).result = .error error ↔ request.fault? = some error := by
  cases tested : request.fault? with
  | some fault =>
    rw [solve_of_fault tested, Except.error.injEq, Option.some.injEq]
  | none =>
    rw [solve_eq_error_iff tested]
    constructor
    · intro failed
      rw [Job.isRefusal_of_solve failed] at refusal
      cases refusal
    · exact nofun

/-- **The contract on the input is decided completely, and before anything runs.** A solve is
refused exactly when some condition of the contract is violated, and reports the first of
those. Then no function of the problem has been called, the observer has been neither asked
nor told, and the buffers are as they were. A request that is not refused is answered by a
run. -/
theorem solve_contract (request : Request F ε) (observer : Observer F σ) (listener : σ) :
    request.DecidesContract observer listener := by
  constructor
  case refused_iff =>
    rw [violated_iff]
    constructor
    · rintro ⟨error, failed, refusal⟩
      exact ⟨error, (solve_eq_refusal_iff refusal).mp failed⟩
    · rintro ⟨error, found⟩
      have refusal := (fault?_eq_some_iff.mp found).isRefusal
      exact ⟨error, (solve_eq_refusal_iff refusal).mpr found, refusal⟩
  case refused_with_iff =>
    intro error refusal
    rw [solve_eq_refusal_iff refusal, fault?_eq_some_iff]
  case refused_untouched =>
    rw [violated_iff]
    rintro ⟨error, found⟩
    refine ⟨error, fault?_eq_some_iff.mp found, fun oracles => ⟨?_, ?_⟩⟩
    · unfold conversation
      rw [accept_of_fault found]
    · have found' : (request.withOracles oracles).fault? = some error := found
      exact solve_of_fault found' observer listener
  case admitted =>
    intro holds
    have faultless := fault?_eq_none_iff_contract.mpr holds
    cases answered : (request.solve observer listener).result with
    | ok summary => exact .inl ⟨summary, rfl⟩
    | error error =>
      have admitted := Job.isRefusal_of_solve ((solve_eq_error_iff faultless).mp answered)
      simpa using SolveError.cases_of_isRefusal_eq_false admitted

end Request

end ProximalNewton
