import ProximalNewton.Proofs.Stationarity
import ProximalNewton.Proofs.Correspondence

/-!
# A target set that does not bound

Constraints `g(x) ∈ D` with `D` the whole space constrain nothing. Over exact arithmetic a
solve of such a problem makes the run of the same problem without constraints, whatever
the multipliers and the weights: the slack takes up the whole constraint value, so that
the penalty and the multiplier estimate vanish at every point that is evaluated.

`withoutConstraints` leaves the constraints out of a problem, and out of everything that a
solve makes of it. Each function of a solve commutes with it: an evaluation of the merit
function (`Merit.evaluate_withoutConstraints`), a search, an adaptation, an iteration
(`Job.iterate_withoutConstraints`), and so whole runs (`Job.solve_withoutConstraints`).
`Request.solve_unbounded` is the law for requests, and says what the multipliers, the slack
and the constraint residual become.
-/

namespace ProximalNewton

variable {ε σ : Type} {n m : Nat}

/-! ## Problems without their constraints -/

/-- The same objective without a constraint map. -/
def Oracles.withoutConstraints (oracles : Oracles ℝ ε n m) : Oracles ℝ ε n 0 where
  f := oracles.f
  gradF := oracles.gradF
  g _ := .ok (Vector.replicate 0 0)
  gradG _ _ := .ok (Vector.replicate n 0)

/-- The constraint map answers everywhere, and its adjoint takes zero to zero. -/
structure Oracles.Passive (oracles : Oracles ℝ ε n m) : Prop where
  map : ∀ x, ∃ g, oracles.g x = .ok g
  adjoint : ∀ x, oracles.gradG x (Vector.replicate m 0) = .ok (Vector.replicate n 0)

/-- The same merit function without the penalty. -/
def Merit.withoutConstraints (merit : Merit ℝ ε n m) : Merit ℝ ε n 0 where
  oracles := merit.oracles.withoutConstraints
  D := Box.whole 0
  sigma := Vector.replicate 0 0
  y := Vector.replicate 0 0

/-- The target set of the merit function is the whole space. -/
structure Merit.Unbounded (merit : Merit ℝ ε n m) : Prop where
  whole : merit.D = Box.whole m
  weights : ∀ (j : Nat) (inside : j < m), merit.sigma[j] ≠ 0
  oracles : merit.oracles.Passive

/-! ## Evaluations -/

/-- The ledger without constraint value and multipliers. -/
def Ledger.withoutConstraints (ledger : Ledger ℝ m) : Ledger ℝ 0 :=
  { ledger with constraint := .replicate 0 0, multipliers := .replicate 0 0 }

/-- The merit of a point without the slack. -/
def Value.withoutConstraints (value : Value ℝ m) : Value ℝ 0 :=
  { value with z := .replicate 0 0 }

/-- The merit gradient at a point without the slack. -/
def Gradient.withoutConstraints (gradient : Gradient ℝ n m) : Gradient ℝ n 0 :=
  { gradient with z := .replicate 0 0 }

/-- The merit and its gradient at a point without the slack. -/
def Evaluation.withoutConstraints (evaluation : Evaluation ℝ n m) : Evaluation ℝ n 0 :=
  { evaluation with z := .replicate 0 0 }

/-- There is one vector without components. -/
theorem eq_of_no_components (a b : Vector ℝ 0) : a = b :=
  Vector.ext fun _ impossible => absurd impossible (Nat.not_lt_zero _)

theorem Ledger.blank_withoutConstraints :
    (Ledger.blank : Ledger ℝ m).withoutConstraints = Ledger.blank :=
  congrArg (Ledger.mk · _ 0 0) (eq_of_no_components _ _)

namespace Merit

variable {merit : Merit ℝ ε n m} (unbounded : merit.Unbounded)

include unbounded

/-- The slack takes up the whole shifted constraint value. -/
theorem Unbounded.slackOf_eq (g : Vector ℝ m) : merit.slackOf g = g + merit.shift := by
  unfold slackOf slack
  rw [unbounded.whole, Box.project_whole]

/-- The multiplier estimate vanishes. -/
theorem Unbounded.multipliersOf_eq (g : Vector ℝ m) :
    merit.multipliersOf g = Vector.replicate m 0 := by
  unfold multipliersOf multiplierEstimate
  rw [unbounded.slackOf_eq]
  ext j inside
  have nonzero := unbounded.weights j inside
  unfold shift
  rw [Vector.getElem_add, Vector.getElem_zipWith, Vector.getElem_sub, Vector.getElem_add,
    Vector.getElem_zipWith, Vector.getElem_replicate]
  field_simp
  ring

/-- No constraint value has a distance to the target set. -/
theorem Unbounded.distanceSq_eq (g : Vector ℝ m) :
    distanceSq g merit.shift (merit.slackOf g) merit.sigma = 0 := by
  have terms : merit.sigma.zipWith (fun weight d => weight * d * d)
      (g + merit.shift - merit.slackOf g) = Vector.replicate m 0 := by
    ext j inside
    rw [unbounded.slackOf_eq, Vector.getElem_zipWith, Vector.getElem_sub, sub_self,
      Vector.getElem_replicate, mul_zero]
  unfold distanceSq
  rw [terms, ← Vector.foldl_toList, Vector.toList_replicate, ← List.sum_eq_foldl,
    List.sum_replicate, smul_zero]

/-- The merit is the objective. -/
theorem Unbounded.psi_eq (x : Vector ℝ n) (g : Vector ℝ m) :
    merit.psi x g = merit.oracles.f x := by
  unfold psi meritValue
  rw [unbounded.distanceSq_eq]
  cases merit.oracles.f x with
  | error cause => rfl
  | ok value =>
    refine congrArg Except.ok ?_
    ring

omit unbounded in
theorem unbounded_withoutConstraints (merit : Merit ℝ ε n m) :
    merit.withoutConstraints.Unbounded where
  whole := rfl
  weights _ impossible := absurd impossible (Nat.not_lt_zero _)
  oracles := ⟨fun _ => ⟨.replicate 0 0, rfl⟩, fun _ => rfl⟩

theorem psi_withoutConstraints (x : Vector ℝ n) (g : Vector ℝ m) :
    merit.withoutConstraints.psi x (.replicate 0 0) = merit.psi x g := by
  rw [merit.unbounded_withoutConstraints.psi_eq, unbounded.psi_eq]
  rfl

/-- The merit gradient is that of the objective, computed in the same way. -/
theorem meritGradient_withoutConstraints (x : Vector ℝ n) (g : Vector ℝ m) :
    meritGradient merit.withoutConstraints.oracles x
        (merit.withoutConstraints.multipliersOf (.replicate 0 0)) =
      meritGradient merit.oracles x (merit.multipliersOf g) := by
  unfold meritGradient
  rw [unbounded.multipliersOf_eq, unbounded.oracles.adjoint]
  rfl

theorem value_withoutConstraints (x : Vector ℝ n) (ledger : Ledger ℝ m) :
    merit.withoutConstraints.value x ledger.withoutConstraints =
      (merit.value x ledger).map
        (Prod.map Value.withoutConstraints Ledger.withoutConstraints) := by
  obtain ⟨g, at_x⟩ := unbounded.oracles.map x
  unfold value
  rw [at_x]
  show merit.withoutConstraints.psi x (.replicate 0 0) >>= _ = (merit.psi x g >>= _).map _
  rw [psi_withoutConstraints unbounded x g,
    eq_of_no_components (merit.withoutConstraints.slackOf _) (.replicate 0 0)]
  cases merit.psi x g with
  | error cause => rfl
  | ok psi => rfl

theorem gradient_withoutConstraints (x : Vector ℝ n) (ledger : Ledger ℝ m) :
    merit.withoutConstraints.gradient x ledger.withoutConstraints =
      (merit.gradient x ledger).map
        (Prod.map Gradient.withoutConstraints Ledger.withoutConstraints) := by
  obtain ⟨g, at_x⟩ := unbounded.oracles.map x
  unfold gradient
  rw [at_x]
  show meritGradient _ x (merit.withoutConstraints.multipliersOf (.replicate 0 0)) >>= _ =
    (meritGradient _ x (merit.multipliersOf g) >>= _).map _
  rw [meritGradient_withoutConstraints unbounded x g,
    eq_of_no_components (merit.withoutConstraints.slackOf _) (.replicate 0 0),
    eq_of_no_components (merit.withoutConstraints.multipliersOf _) (.replicate 0 0)]
  cases meritGradient merit.oracles x (merit.multipliersOf g) with
  | error cause => rfl
  | ok grad => rfl

/-- An evaluation gives the same merit and the same gradient without the constraints. -/
theorem evaluate_withoutConstraints (x : Vector ℝ n) (ledger : Ledger ℝ m) :
    merit.withoutConstraints.evaluate x ledger.withoutConstraints =
      (merit.evaluate x ledger).map
        (Prod.map Evaluation.withoutConstraints Ledger.withoutConstraints) := by
  unfold evaluate
  refine bind_map (gradient_withoutConstraints unbounded x ledger) ?_
  rintro ⟨gradient, after⟩
  show merit.withoutConstraints.psi x (.replicate 0 0) >>= _ =
    (merit.psi x after.constraint >>= _).map _
  rw [psi_withoutConstraints unbounded x after.constraint]
  cases merit.psi x after.constraint with
  | error cause => rfl
  | ok psi => rfl

end Merit

/-! ## Searches -/

/-- The end of a search without the constraints. -/
def SearchResult.withoutConstraints (result : SearchResult ℝ n m) : SearchResult ℝ n 0 :=
  { result with ledger := result.ledger.withoutConstraints }

namespace Search

/-- The same search without the constraints. -/
def withoutConstraints (search : Search ℝ ε n m) : Search ℝ ε n 0 :=
  { search with merit := search.merit.withoutConstraints }

variable {search : Search ℝ ε n m} (unbounded : search.merit.Unbounded)

include unbounded

theorem trial_withoutConstraints (tau : ℝ) (ledger : Ledger ℝ m) :
    search.withoutConstraints.trial tau ledger.withoutConstraints =
      (search.trial tau ledger).map (Prod.map id Ledger.withoutConstraints) :=
  bind_map (Merit.evaluate_withoutConstraints unbounded (search.point tau) ledger) fun _ => rfl

/-- The search stops at the same step. -/
theorem backtrack_withoutConstraints (halvings : Nat) (tau : ℝ) (ledger : Ledger ℝ m) :
    search.withoutConstraints.backtrack halvings tau ledger.withoutConstraints =
      (search.backtrack halvings tau ledger).convert id id SearchResult.withoutConstraints := by
  unfold backtrack
  refine Traced.bind_convert
    (Traced.ofExcept_convert (trial_withoutConstraints unbounded tau ledger)) ?_
  rintro ⟨trial, after⟩
  refine Traced.ite_convert Iff.rfl ?accepted ?rejected
  case accepted => rfl
  case rejected =>
    cases halvings with
    | zero => rfl
    | succ left =>
      refine Traced.ite_convert Iff.rfl ?stalled ?halved
      case stalled => rfl
      case halved =>
        have rest := backtrack_withoutConstraints left (tau * 0.5) after
        exact Traced.emit_bind_convert id (Event.rejected _) rest

theorem run_withoutConstraints (ledger : Ledger ℝ m) :
    search.withoutConstraints.run ledger.withoutConstraints =
      (search.run ledger).convert id id SearchResult.withoutConstraints :=
  backtrack_withoutConstraints unbounded _ _ _

end Search

/-! ## Jobs -/

/-- A state without the constraints. -/
def State.withoutConstraints {depth : Nat} (state : State ℝ n m depth) : State ℝ n 0 depth :=
  { state with ledger := state.ledger.withoutConstraints }

/-- A solution without slack and multipliers. -/
def Solution.withoutConstraints (solution : Solution ℝ n m) : Solution ℝ n 0 :=
  { solution with z := .replicate 0 0, y := .replicate 0 0, errZ := .replicate 0 0 }

namespace Job

/-- The same job without the constraints. -/
noncomputable def withoutConstraints (job : Job ℝ ε n m) : Job ℝ ε n 0 :=
  { job with
    oracles := job.oracles.withoutConstraints
    D := Box.whole 0
    y := .replicate 0 0
    sigma := .replicate 0 0
    D_valid := fun _ impossible => absurd impossible (Nat.not_lt_zero _)
    sigma_pos := fun _ member => absurd rfl (Vector.mem_replicate.mp member).1 }

/-- A run of the job in the terms of the job without the constraints: nothing that is
reported is about the constraints. -/
noncomputable def plainTerms (job : Job ℝ ε n m) :
    Terms ℝ ε n m job.depth n 0 job.withoutConstraints.depth where
  event := id
  failure := id
  residual := id
  state := State.withoutConstraints
  solution := Solution.withoutConstraints
  failure_interrupted _ := rfl
  failure_iterationLimit _ _ := rfl

/-- A solution of the job is one of the job without the constraints. -/
theorem solution_withoutConstraints (job : Job ℝ ε n m) (iteration : Nat)
    (state : State ℝ n m job.depth) (residual : ℝ) (z : Vector ℝ m) :
    job.withoutConstraints.solution iteration state.withoutConstraints residual (.replicate 0 0) =
      (job.solution iteration state residual z).withoutConstraints :=
  congrArg (Solution.mk _ _ _ · _) (eq_of_no_components _ _)

/-- The failures of the functions of a problem stay as they are. -/
theorem plain_oracle (cause : ε) :
    id (SolveError.oracle cause : SolveError ℝ ε) = .oracle cause :=
  rfl

variable {job : Job ℝ ε n m} (unbounded : job.merit.Unbounded)

include unbounded

theorem initialLipschitz_withoutConstraints (x gradPsi : Vector ℝ n) (ledger : Ledger ℝ m) :
    job.withoutConstraints.initialLipschitz x gradPsi ledger.withoutConstraints =
      (job.initialLipschitz x gradPsi ledger).map (Prod.map id Ledger.withoutConstraints) :=
  bind_map (Merit.gradient_withoutConstraints unbounded _ ledger) fun _ => rfl

/-- A solve starts from the same state. -/
theorem start_withoutConstraints :
    job.withoutConstraints.start =
      (job.start.mapError job.plainTerms.failure).map job.plainTerms.state := by
  have evaluated := Merit.evaluate_withoutConstraints unbounded job.x Ledger.blank
  rw [Ledger.blank_withoutConstraints] at evaluated
  unfold start
  refine bind_mapError_map plain_oracle evaluated ?_
  rintro ⟨initial, ledger⟩
  refine bind_mapError_map plain_oracle
    (initialLipschitz_withoutConstraints unbounded job.x initial.gradPsi ledger) ?_
  rintro ⟨lipschitz, after⟩
  rfl

/-- An adaptation tightens the step size as often. -/
theorem adapt_withoutConstraints (iteration updates left : Nat) (state : State ℝ n m job.depth)
    (psiHat : ℝ) :
    job.withoutConstraints.adapt iteration updates left state.withoutConstraints psiHat =
      (job.adapt iteration updates left state psiHat).convert id id State.withoutConstraints := by
  have same : (state.withoutConstraints.current.descentLimit
      state.withoutConstraints.step < psiHat) ↔
      state.current.descentLimit state.step < psiHat := Iff.rfl
  by_cases exceeds : state.current.descentLimit state.step < psiHat
  · have exceeds' := same.mpr exceeds
    cases left with
    | zero =>
      rw [job.adapt_of_exhausted exceeds, job.withoutConstraints.adapt_of_exhausted exceeds']
      rfl
    | succ left =>
      rw [job.adapt_of_exceeds exceeds, job.withoutConstraints.adapt_of_exceeds exceeds']
      refine Traced.emit_bind_convert id
        (Event.tightened { iteration, update := updates + 1, step := (job.tighten state).step }) ?_
      have valued := Merit.value_withoutConstraints unbounded (job.tighten state).current.xHat
        (job.tighten state).ledger
      refine Traced.bind_convert
        (Traced.mapError_convert plain_oracle (Traced.ofExcept_convert valued)) ?_
      rintro ⟨value, ledger⟩
      exact adapt_withoutConstraints iteration (updates + 1) left
        { job.tighten state with ledger } value.psi
  · rw [job.adapt_of_le exceeds, job.withoutConstraints.adapt_of_le (mt same.mp exceeds)]
    rfl

/-- An iteration takes the same step. -/
theorem iterate_withoutConstraints (iteration : Nat) (state : State ℝ n m job.depth) :
    job.withoutConstraints.iterate iteration (job.plainTerms.state state) =
      (job.iterate iteration state).convert id id job.plainTerms.progress := by
  have evaluated :=
    Merit.evaluate_withoutConstraints unbounded state.current.xHat state.ledger
  unfold iterate
  refine Traced.bind_convert
    (Traced.mapError_convert plain_oracle (Traced.ofExcept_convert evaluated)) ?_
  rintro ⟨atHat, ledger⟩
  refine Traced.emit_bind_convert id
    (Event.iteration (job.report iteration { state with ledger } _)) ?_
  refine Traced.ite_convert Iff.rfl ?met ?unmet
  case met =>
    refine Traced.emit_bind_convert id
      (Event.finished (job.solution iteration { state with ledger } _ atHat.z).summary) ?_
    have found := job.solution_withoutConstraints iteration { state with ledger }
      (State.residual { state with ledger } atHat) atHat.z
    exact congrArg (fun solution => pure (Progress.converged solution)) found
  case unmet =>
    refine Traced.bind_convert
      (adapt_withoutConstraints unbounded iteration 0 _ { state with ledger } atHat.psi) ?_
    intro adapted
    have searched : (job.search iteration adapted).withoutConstraints.run
        adapted.ledger.withoutConstraints = _ :=
      Search.run_withoutConstraints unbounded adapted.ledger
    exact Traced.bind_convert (Traced.mapError_convert plain_oracle searched) fun result => rfl

/-- A solve makes the same run. -/
theorem solve_withoutConstraints (observer : Observer ℝ σ) (listener : σ) :
    job.withoutConstraints.solve observer listener =
      (job.solve observer listener).map id job.plainTerms.answer :=
  solve_convert job.plainTerms rfl (start_withoutConstraints unbounded)
    (iterate_withoutConstraints unbounded) observer listener

/-- A solve reports the same events. -/
theorem events_withoutConstraints (observer : Observer ℝ σ) (listener : σ) :
    job.withoutConstraints.events observer listener = job.events observer listener := by
  have solved :=
    events_convert job.plainTerms (solve_withoutConstraints unbounded) observer listener
  rw [solved]
  exact List.map_id _

/-- A solution has no multipliers, and its slack takes up the whole shifted constraint
value. -/
theorem solution_of_unbounded {observer : Observer ℝ σ} {listener : σ}
    {solution : Solution ℝ n m} (solved : (job.solve observer listener).2 = .ok solution) :
    ∃ g, job.oracles.g solution.x = .ok g ∧ solution.y = Vector.replicate m 0 ∧
      solution.z = g + job.merit.shift ∧ solution.errZ = -job.merit.shift := by
  obtain ⟨laps, events, state, atHat, reached, -, rfl⟩ := solve_eq_ok solved
  obtain ⟨g, -, -, at_x, slack_eq, multipliers_eq, constraint_eq, -⟩ := reached.solution_evaluated
  have residual_eq : state.ledger.constraint - atHat.z = -job.merit.shift := by
    rw [constraint_eq, slack_eq, unbounded.slackOf_eq]
    ext j inside
    simp
  exact ⟨g, at_x, multipliers_eq.trans (unbounded.multipliersOf_eq g),
    slack_eq.trans (unbounded.slackOf_eq g), residual_eq⟩

end Job

/-! ## Requests -/

/-- Buffers without what belongs to the constraints. -/
def Buffers.withoutConstraints (buffers : Buffers ℝ) : Buffers ℝ :=
  { buffers with z := #[], y := #[], errZ := #[] }

/-- What a caller gets back, without what belongs to the constraints: the result, the
state of the observer and the point. -/
def Outcome.withoutConstraints (outcome : Outcome ℝ ε σ) : Outcome ℝ ε σ :=
  { outcome with buffers := outcome.buffers.withoutConstraints }

theorem Box.cast_whole {k l : Nat} (same : k = l) :
    (Box.whole k : Box ℝ k).cast same = Box.whole l := by
  subst same
  rfl

/-- The same problem without constraints. -/
noncomputable def Problem.withoutConstraints (problem : Problem ℝ ε) : Problem ℝ ε :=
  { problem with
    numConstraints := 0
    oracles := problem.oracles.withoutConstraints
    dimD := 0
    D := Box.whole 0 }

namespace Request

/-- The same request without constraints. -/
noncomputable def withoutConstraints (request : Request ℝ ε) : Request ℝ ε :=
  { request with
    problem := request.problem.withoutConstraints
    buffers := request.buffers.withoutConstraints
    sigma := #[] }

/-- The shift `Σ⁻¹y` of the constraint value. -/
noncomputable def shift (request : Request ℝ ε) : Array ℝ :=
  request.buffers.y.zipWith (· / ·) request.sigma

/-- The constraints of a request do not bound anything: the target set is the whole space
of the dimension of the constraint map. What belongs to the constraints has that size, and
the weights are positive. -/
structure Unbounded (request : Request ℝ ε) : Prop where
  dimension : request.problem.dimD = request.problem.numConstraints
  whole : request.problem.D = Box.whole request.problem.dimD
  oracles : request.problem.oracles.Passive
  z : request.buffers.z.size = request.problem.numConstraints
  y : request.buffers.y.size = request.problem.numConstraints
  errZ : request.buffers.errZ.size = request.problem.numConstraints
  sigma : request.sigma.size = request.problem.numConstraints
  weights : ∀ weight ∈ request.sigma, IsPositive weight

variable {request : Request ℝ ε} (unbounded : request.Unbounded)

include unbounded

/-- The constraints are no reason to refuse the request. -/
theorem fault?_withoutConstraints : request.withoutConstraints.fault? = request.fault? := by
  have sizes : request.withoutConstraints.sizeFault? = request.sizeFault? := by
    unfold sizeFault? Request.sizes
    simp [List.findSome?_cons, withoutConstraints, Problem.withoutConstraints,
      Buffers.withoutConstraints, unbounded.dimension, unbounded.z, unbounded.y, unbounded.errZ,
      unbounded.sigma]
  have target : request.problem.D.fault? .D = none := by
    rw [unbounded.whole]
    exact Box.fault?_eq_none_iff.mpr (Box.valid_whole _)
  have weights : request.weightFault? = none := by
    unfold weightFault?
    rw [List.findSome?_eq_none_iff]
    rintro ⟨weight, index⟩ member
    have member := Array.mem_toList_iff.mp (List.fst_mem_of_mem_zipIdx member)
    exact if_pos (unbounded.weights weight member)
  unfold fault?
  rw [sizes, target, weights]
  rfl

/-- The job of the request has a target set that does not bound. -/
theorem job_unbounded (faultless : request.fault? = none) :
    (request.job faultless).merit.Unbounded where
  whole := (congrArg (Box.cast _) unbounded.whole).trans (Box.cast_whole _)
  weights _ inside :=
    ((request.job faultless).sigma_pos _ (Vector.getElem_mem inside)).1.ne'
  oracles := unbounded.oracles

omit unbounded in
/-- The outcome of a solve without the constraints. -/
theorem outcome_withoutConstraints {k l : Nat} (request : Request ℝ ε)
    (answered : σ × Except (SolveError ℝ ε) (Solution ℝ k l)) :
    request.withoutConstraints.outcome (answered.map id fun answer =>
        (answer.mapError id).map Solution.withoutConstraints) =
      (request.outcome answered).withoutConstraints := by
  rcases answered with ⟨listener, error | solution⟩
  · rfl
  · rfl

/-- **A target set that does not bound is no constraint.** A request whose target set is
the whole space has the result, the point and the events of the request without its
constraints, whatever the multipliers and the weights and under every observer. If it is
solved, then the multipliers become zero, the slack takes up the constraint value with its
shift, and the constraint residual is what the shift leaves. -/
theorem solve_unbounded (observer : Observer ℝ σ) (listener : σ) :
    request.withoutConstraints.solve observer listener =
        (request.solve observer listener).withoutConstraints ∧
      request.withoutConstraints.events observer listener = request.events observer listener ∧
      ∀ summary, (request.solve observer listener).result = .ok summary →
        ∃ (x : Vector ℝ request.problem.numVars) (g : Vector ℝ request.problem.numConstraints),
          (request.solve observer listener).buffers.x = x.toArray ∧
          request.problem.oracles.g x = .ok g ∧
          (request.solve observer listener).buffers.y =
            Array.replicate request.problem.numConstraints 0 ∧
          (request.solve observer listener).buffers.z = g.toArray.zipWith (· + ·) request.shift ∧
          (request.solve observer listener).buffers.errZ = request.shift.map (-·) := by
  have same_fault := fault?_withoutConstraints unbounded
  cases tested : request.fault? with
  | some fault =>
    rw [tested] at same_fault
    rw [solve_of_fault tested, solve_of_fault same_fault, events_of_fault tested,
      events_of_fault same_fault]
    exact ⟨rfl, rfl, nofun⟩
  | none =>
    rw [tested] at same_fault
    have job_unbounded := job_unbounded unbounded tested
    refine ⟨?same_outcome, ?same_events, ?solved⟩
    -- the job of the request without constraints is the job without the constraints
    case same_outcome =>
      have answered := Job.solve_withoutConstraints job_unbounded observer listener
      rw [solve_eq_outcome tested, solve_eq_outcome same_fault]
      exact (congrArg request.withoutConstraints.outcome answered).trans
        (request.outcome_withoutConstraints _)
    case same_events =>
      rw [events_eq tested, events_eq same_fault]
      exact Job.events_withoutConstraints job_unbounded observer listener
    case solved =>
      intro summary solved
      obtain ⟨job, solution, accepted, answered, buffers, -⟩ := solve_eq_ok solved
      obtain ⟨faultless, rfl⟩ := accept_eq_ok accepted
      obtain ⟨g, at_x, multipliers, slack, residual⟩ :=
        Job.solution_of_unbounded job_unbounded answered
      refine ⟨solution.x, g, congrArg Buffers.x buffers, at_x, ?_, ?_, ?_⟩
      · rw [buffers]
        exact congrArg Vector.toArray multipliers
      · rw [buffers]
        exact congrArg Vector.toArray slack
      · rw [buffers]
        exact congrArg Vector.toArray residual

end Request

/-! ## A target set that does not bound a slope -/

/-- The slope on the halfline with a constraint value of two that may be anything, a
multiplier of one and a weight of two. -/
noncomputable def looseRequest : Request ℝ Unit :=
  { slopeRequest with
    problem := { slopeProblem with D := Box.whole 1 }
    buffers := { slopeRequest.buffers with y := #[1] }
    sigma := #[1 + 1] }

theorem looseRequest_weights : ∀ weight ∈ looseRequest.sigma, IsPositive weight := by
  intro weight member
  obtain rfl : weight = 1 + 1 := Array.mem_singleton.mp member
  exact ⟨by norm_num, rfl⟩

theorem looseRequest_unbounded : looseRequest.Unbounded where
  dimension := rfl
  whole := rfl
  oracles := ⟨fun _ => ⟨#v[1 + 1], rfl⟩, fun _ => rfl⟩
  z := rfl
  y := rfl
  errZ := rfl
  sigma := rfl
  weights := looseRequest_weights

theorem looseRequest_faultless : looseRequest.fault? = none := by
  obtain ⟨vars, -, C_valid, -, -, params, tolerance⟩ :=
    Request.fault?_eq_none_iff.mp slopeRequest_faultless
  have weights : looseRequest.weightFault? = none := by
    simp [Request.weightFault?, looseRequest, IsPositive, Scalar.isFinite]
  exact Request.fault?_eq_none_iff.mpr
    ⟨vars, rfl, C_valid, Box.valid_whole 1, weights, params, tolerance⟩

/-- The request is solved: its multiplier goes, and the slack takes up the value two of the
constraint and the shift of a half. -/
theorem solve_unbounded_loose : looseRequest.Unbounded ∧
    (∃ summary, (looseRequest.solve Observer.silent ()).result = .ok summary) ∧
    looseRequest.withoutConstraints.solve Observer.silent () =
      (looseRequest.solve Observer.silent ()).withoutConstraints ∧
    looseRequest.withoutConstraints.events Observer.silent () =
      looseRequest.events Observer.silent () ∧
    (looseRequest.solve Observer.silent ()).buffers.y = #[0] ∧
    (looseRequest.solve Observer.silent ()).buffers.z = #[2 + 1 / 2] ∧
    (looseRequest.solve Observer.silent ()).buffers.errZ = #[-(1 / 2)] := by
  obtain ⟨solution, answered⟩ := slopeJob_withTarget_solved (Box.whole 1) #v[1] #v[1 + 1]
    (Box.valid_whole 1) fun weight member => looseRequest_weights weight (Vector.mem_mk.mp member)
  have solved := Request.solve_of_faultless looseRequest_faultless answered
  obtain ⟨outcome, events, buffers⟩ :=
    Request.solve_unbounded looseRequest_unbounded Observer.silent ()
  obtain ⟨x, g, -, at_x, y, z, errZ⟩ := buffers _ solved
  obtain rfl : #v[1 + 1] = g := Except.ok.inj at_x
  have shift : looseRequest.shift = #[1 / 2] := by
    norm_num [Request.shift, looseRequest]
  rw [shift] at z errZ
  simp only [List.zipWith_toArray, List.zipWith_cons_cons, List.map_toArray,
    one_add_one_eq_two] at z errZ
  exact ⟨looseRequest_unbounded, ⟨_, solved⟩, outcome, events, y, z, errZ⟩

end ProximalNewton
