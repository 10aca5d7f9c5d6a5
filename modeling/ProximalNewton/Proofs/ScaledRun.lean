import ProximalNewton.Proofs.ScaledMerit
import ProximalNewton.Proofs.Stationarity

/-!
# Solving in another unit

The run of a solve does not depend on the unit of the objective. When the objective,
the penalty weights, the multipliers, the tolerance and the smallest Lipschitz
estimate are all multiplied by a positive number, every comparison of the method comes
out as before, so that the same steps are taken at the same points.

The proof follows the layers of a solve. Each of its functions, given its arguments in
the new unit, records its events and gives its answer in the new unit
(`Traced.convert`): a search (`Search.run_scaled`), an adaptation
(`Job.adapt_scaled`), an iteration (`Job.iterate_scaled`), a solve (`Job.solve_scaled`)
and a request (`Request.solve_equivariant`).
-/

namespace ProximalNewton

/-! ## Reports and answers -/

section Answers

variable (c : ℝ) {n m depth : Nat} {ε : Type}

/-- The start of an iteration in the new unit. -/
noncomputable def IterationReport.scaled (report : IterationReport ℝ) : IterationReport ℝ :=
  { report with
    psi := c * report.psi
    residual := c * report.residual
    lipschitz := c * report.lipschitz
    gamma := report.gamma / c }

/-- A tightening in the new unit. -/
noncomputable def TighteningReport.scaled (report : TighteningReport ℝ) : TighteningReport ℝ :=
  { report with step := report.step.scaled c }

/-- A trial in the new unit. -/
noncomputable def TrialReport.scaled (report : TrialReport ℝ) : TrialReport ℝ :=
  { report with
    phi := c * report.phi
    phiTrial := c * report.phiTrial
    threshold := c * report.threshold }

variable {c} in
/-- A trial passes in any unit or in none. -/
theorem TrialReport.passes_scaled (positive : 0 < c) (report : TrialReport ℝ) :
    (report.scaled c).phiTrial ≤ (report.scaled c).threshold ↔
      report.phiTrial ≤ report.threshold :=
  mul_le_mul_iff_right₀ positive

/-- A summary in the new unit. -/
noncomputable def Summary.scaled (summary : Summary ℝ) : Summary ℝ :=
  { summary with
    residual := c * summary.residual
    step := summary.step.scaled c }

/-- An event in the new unit. -/
noncomputable def Event.scaled : Event ℝ → Event ℝ
  | .iteration report => .iteration (report.scaled c)
  | .tightened report => .tightened (report.scaled c)
  | .rejected report => .rejected (report.scaled c)
  | .accepted report => .accepted (report.scaled c)
  | .stalled report => .stalled (report.scaled c)
  | .finished summary => .finished (summary.scaled c)

/-- A defect in the new unit. -/
noncomputable def InputFault.scaled : InputFault ℝ → InputFault ℝ
  | .weight index value => .weight index (c * value)
  | .inverted role index lower upper => .inverted role index lower upper
  | .unordered role index => .unordered role index

/-- A failure in the new unit. -/
noncomputable def SolveError.scaled : SolveError ℝ ε → SolveError ℝ ε
  | .iterationLimit iterations residual => .iterationLimit iterations (c * residual)
  | .stepSize iteration updates lipschitz => .stepSize iteration updates (c * lipschitz)
  | .input fault => .input (fault.scaled c)
  | .parameter which => .parameter which
  | .size which expected actual => .size which expected actual
  | .interrupted iterations => .interrupted iterations
  | .oracle error => .oracle error

variable {c} in
/-- A failure of a function of the problem has no unit. -/
theorem SolveError.scaled_oracle (cause : ε) :
    (SolveError.oracle cause : SolveError ℝ ε).scaled c = .oracle cause := rfl

/-- A solution in the new unit. -/
noncomputable def Solution.scaled (solution : Solution ℝ n m) : Solution ℝ n m :=
  { solution with
    y := c * solution.y
    summary := solution.summary.scaled c }

/-- The end of a search in the new unit. -/
noncomputable def SearchResult.scaled (result : SearchResult ℝ n m) : SearchResult ℝ n m :=
  { result with
    trial := result.trial.scaled c
    ledger := result.ledger.scaled c }

/-- A state in the new unit. The curvature pairs are changes of points and of proximal
steps, and have none. -/
noncomputable def State.scaled (state : State ℝ n m depth) : State ℝ n m depth :=
  { state with
    current := state.current.scaled c
    step := state.step.scaled c
    ledger := state.ledger.scaled c }

/-- The end of an iteration in the new unit. -/
noncomputable def Progress.scaled : Progress ℝ n m depth → Progress ℝ n m depth
  | .converged solution => .converged (solution.scaled c)
  | .advanced residual next => .advanced (c * residual) (next.scaled c)

end Answers

variable {ε σ : Type} {n m : Nat} {c : ℝ}

/-! ## Searches -/

namespace Search

/-- A search in the new unit. -/
noncomputable def scaled (c : ℝ) (search : Search ℝ ε n m) : Search ℝ ε n m :=
  { search with
    merit := search.merit.scaled c
    step := search.step.scaled c
    current := search.current.scaled c }

theorem phi_scaled (search : Search ℝ ε n m) : (search.scaled c).phi = c * search.phi :=
  search.current.envelope_scaled search.step

theorem threshold_scaled (nonzero : c ≠ 0) (search : Search ℝ ε n m) :
    (search.scaled c).threshold = c * search.threshold := by
  unfold threshold
  rw [phi_scaled, mul_sub, ← search.step.requiredDecrease_scaled nonzero]
  rfl

theorem report_scaled (nonzero : c ≠ 0) (search : Search ℝ ε n m) (tau : ℝ)
    (trial : Iterate ℝ n) :
    (search.scaled c).report tau (trial.scaled c) = (search.report tau trial).scaled c := by
  have envelope : (trial.scaled c).envelope (search.scaled c).step =
      c * trial.envelope search.step := trial.envelope_scaled search.step
  unfold report
  rw [phi_scaled, threshold_scaled nonzero, envelope]
  rfl

theorem trial_scaled (positive : 0 < c) {search : Search ℝ ε n m}
    (homogeneous : search.merit.oracles.HomogeneousAdjoint) (tau : ℝ) (ledger : Ledger ℝ m) :
    (search.scaled c).trial tau (ledger.scaled c) =
      (search.trial tau ledger).map (Prod.map (Iterate.scaled c) (Ledger.scaled c)) := by
  unfold trial
  refine bind_map (Merit.evaluate_scaled positive homogeneous (search.point tau) ledger) ?_
  intro answer
  refine congrArg Except.ok (congrArg (Prod.mk · _) ?_)
  exact Iterate.ofPoint_scaled positive.ne' _ _ _ _ _

/-- The search for a step stops at the same step. -/
theorem backtrack_scaled (positive : 0 < c) {search : Search ℝ ε n m}
    (homogeneous : search.merit.oracles.HomogeneousAdjoint) (halvings : Nat) (tau : ℝ)
    (ledger : Ledger ℝ m) :
    (search.scaled c).backtrack halvings tau (ledger.scaled c) =
      (search.backtrack halvings tau ledger).convert (Event.scaled c) id
        (SearchResult.scaled c) := by
  unfold backtrack
  refine Traced.bind_convert
    (Traced.ofExcept_convert (trial_scaled positive homogeneous tau ledger)) ?_
  rintro ⟨trial, after⟩
  dsimp only [Prod.map]
  rw [report_scaled positive.ne']
  refine Traced.ite_convert (TrialReport.passes_scaled positive _) ?accepted ?rejected
  case accepted => exact Traced.emit_bind_convert (Event.scaled c) (.accepted _) rfl
  case rejected =>
    cases halvings with
    | zero => exact Traced.emit_bind_convert (Event.scaled c) (.stalled _) rfl
    | succ left =>
      refine Traced.ite_convert Iff.rfl ?stalled ?halved
      case stalled => exact Traced.emit_bind_convert (Event.scaled c) (.stalled _) rfl
      case halved =>
        -- the step has no unit, so that the next trial corresponds again
        have rest := backtrack_scaled positive homogeneous left (tau * 0.5) after
        exact Traced.emit_bind_convert (Event.scaled c) (.rejected _) rest

theorem run_scaled (positive : 0 < c) {search : Search ℝ ε n m}
    (homogeneous : search.merit.oracles.HomogeneousAdjoint) (ledger : Ledger ℝ m) :
    (search.scaled c).run (ledger.scaled c) =
      (search.run ledger).convert (Event.scaled c) id (SearchResult.scaled c) :=
  backtrack_scaled positive homogeneous _ _ _

end Search

/-! ## Jobs -/

/-- The settings in the new unit: only the smallest Lipschitz estimate has one. -/
noncomputable def Params.scaled (c : ℝ) (params : Params ℝ) : Params ℝ :=
  { params with estimate := { params.estimate with lMin := c * params.estimate.lMin } }

/-- A positive factor keeps a weight positive. -/
theorem isPositive_scaled_iff (positive : 0 < c) (value : ℝ) :
    IsPositive (c * value) ↔ IsPositive value :=
  and_congr_left' (mul_pos_iff_of_pos_left positive)

/-- A positive factor keeps the settings in their ranges. -/
theorem Params.meets_scaled_iff (positive : 0 < c) (params : Params ℝ) (which : Setting) :
    (params.scaled c).Meets which ↔ params.Meets which := by
  cases which with
  | lMin => exact isPositive_scaled_iff positive _
  | maxIter | memoryDepth | curvatureTol | epsilon | delta | tauMin => exact Iff.rfl

namespace Job

/-- A job in the new unit. -/
noncomputable def scaled (positive : 0 < c) (job : Job ℝ ε n m) : Job ℝ ε n m :=
  { job with
    oracles := job.oracles.scaled c
    y := c * job.y
    sigma := c * job.sigma
    params := job.params.scaled c
    eps := c * job.eps
    sigma_pos := by
      intro weight member
      obtain ⟨j, inside, rfl⟩ := Vector.mem_iff_getElem.mp member
      rw [Vector.getElem_hmul]
      exact (isPositive_scaled_iff positive _).mpr (job.sigma_pos _ (Vector.getElem_mem inside))
    params_valid := fun which =>
      (job.params.meets_scaled_iff positive which).mpr (job.params_valid which)
    eps_pos := mul_pos positive job.eps_pos }

section Layers

variable (positive : 0 < c) {job : Job ℝ ε n m}
  (homogeneous : job.merit.oracles.HomogeneousAdjoint)

include positive homogeneous in
theorem initialLipschitz_scaled (x gradPsi : Vector ℝ n) (ledger : Ledger ℝ m) :
    (job.scaled positive).initialLipschitz x (c * gradPsi) (ledger.scaled c) =
      (job.initialLipschitz x gradPsi ledger).map (Prod.map (c * ·) (Ledger.scaled c)) := by
  unfold initialLipschitz
  refine bind_map (Merit.gradient_scaled positive homogeneous _ ledger) ?_
  intro answer
  exact congrArg Except.ok
    (congrArg (Prod.mk · _) (differenceQuotient_scaled positive _ _ _))

include homogeneous in
/-- A solve starts from the same state. -/
theorem start_scaled :
    (job.scaled positive).start =
      (job.start.mapError (SolveError.scaled c)).map (State.scaled c) := by
  have evaluated := Merit.evaluate_scaled positive homogeneous job.x Ledger.blank
  rw [Ledger.blank_scaled] at evaluated
  unfold start
  refine bind_mapError_map SolveError.scaled_oracle evaluated ?_
  rintro ⟨initial, ledger⟩
  refine bind_mapError_map SolveError.scaled_oracle
    (initialLipschitz_scaled positive homogeneous job.x initial.gradPsi ledger) ?_
  rintro ⟨lipschitz, after⟩
  have step : StepSize.ofLipschitz
        (maxNum (c * lipschitz) (job.scaled positive).params.estimate.lMin) =
      (StepSize.ofLipschitz (maxNum lipschitz job.params.estimate.lMin)).scaled c := by
    show StepSize.ofLipschitz (maxNum (c * lipschitz) (c * job.params.estimate.lMin)) = _
    rw [maxNum_eq_max, maxNum_eq_max, ← mul_max_of_nonneg _ _ positive.le,
      StepSize.ofLipschitz_scaled positive.ne']
  -- over the reals every estimate is finite, so that both solves start
  refine congrArg Except.ok ?_
  dsimp only [Prod.map]
  rw [step]
  exact congrArg (State.mk · _ _ _ _ _ _) (Iterate.ofPoint_scaled positive.ne' _ _ _ _ _)

/-- A tightening is the same in any unit. -/
theorem tighten_scaled (state : State ℝ n m job.depth) :
    (job.scaled positive).tighten (state.scaled c) = (job.tighten state).scaled c := by
  have halved : (state.scaled c).step.halved = state.step.halved.scaled c :=
    state.step.halved_scaled
  unfold tighten
  rw [halved]
  exact congrArg (State.mk · _ _ _ _ _ _) (Iterate.withGamma_scaled positive.ne' _ _ _)

/-- An adaptation tightens the step size as often. -/
theorem adapt_scaled (iteration updates left : Nat) (state : State ℝ n m job.depth)
    (psiHat : ℝ) :
    (job.scaled positive).adapt iteration updates left (state.scaled c) (c * psiHat) =
      (job.adapt iteration updates left state psiHat).convert (Event.scaled c)
        (SolveError.scaled c) (State.scaled c) := by
  have exceeds_iff : (state.scaled c).current.descentLimit (state.scaled c).step < c * psiHat ↔
      state.current.descentLimit state.step < psiHat := by
    show (state.current.scaled c).descentLimit (state.step.scaled c) < _ ↔ _
    rw [Iterate.descentLimit_scaled positive]
    exact mul_lt_mul_iff_right₀ positive
  by_cases exceeds : state.current.descentLimit state.step < psiHat
  · have exceeds_scaled := exceeds_iff.mpr exceeds
    cases left with
    | zero =>
      rw [job.adapt_of_exhausted exceeds, (job.scaled positive).adapt_of_exhausted exceeds_scaled]
      rfl
    | succ left =>
      rw [job.adapt_of_exceeds exceeds, (job.scaled positive).adapt_of_exceeds exceeds_scaled]
      dsimp only
      rw [tighten_scaled]
      refine Traced.emit_bind_convert (Event.scaled c)
        (.tightened { iteration, update := updates + 1, step := (job.tighten state).step }) ?_
      have valued := Merit.value_scaled positive.ne' job.merit (job.tighten state).current.xHat
        (job.tighten state).ledger
      refine Traced.bind_convert
        (Traced.mapError_convert SolveError.scaled_oracle (Traced.ofExcept_convert valued)) ?_
      rintro ⟨value, ledger⟩
      exact adapt_scaled iteration (updates + 1) left { job.tighten state with ledger } value.psi
  · have descends := mt exceeds_iff.mp exceeds
    rw [job.adapt_of_le exceeds, (job.scaled positive).adapt_of_le descends]
    rfl

include homogeneous in
/-- An iteration takes the same step. -/
theorem iterate_scaled (iteration : Nat) (state : State ℝ n m job.depth) :
    (job.scaled positive).iterate iteration (state.scaled c) =
      (job.iterate iteration state).convert (Event.scaled c) (SolveError.scaled c)
        (Progress.scaled c) := by
  have evaluated := Merit.evaluate_scaled positive homogeneous state.current.xHat state.ledger
  unfold iterate
  refine Traced.bind_convert
    (Traced.mapError_convert SolveError.scaled_oracle (Traced.ofExcept_convert evaluated)) ?_
  rintro ⟨atHat, ledger⟩
  have measured : ProximalNewton.residual (state.scaled c).step.gamma (state.scaled c).current.r
        (atHat.scaled c).gradPsi (state.scaled c).current.gradPsi =
      c * ProximalNewton.residual state.step.gamma state.current.r atHat.gradPsi
        state.current.gradPsi := residual_scaled positive _ _ _ _
  dsimp only [Prod.map]
  rw [measured]
  refine Traced.emit_bind_convert (Event.scaled c)
    (.iteration (job.report iteration { state with ledger } _)) ?_
  refine Traced.ite_convert (mul_le_mul_iff_right₀ positive) ?met ?unmet
  case met =>
    exact Traced.emit_bind_convert (Event.scaled c)
      (.finished (job.solution iteration { state with ledger } _ atHat.z).summary) rfl
  case unmet =>
    refine Traced.bind_convert
      (adapt_scaled positive iteration 0 _ { state with ledger } atHat.psi) ?_
    intro adapted
    have searched : ((job.search iteration adapted).scaled c).run (adapted.ledger.scaled c) = _ :=
      Search.run_scaled positive homogeneous adapted.ledger
    exact Traced.bind_convert (Traced.mapError_convert SolveError.scaled_oracle searched)
      fun result => rfl

end Layers

end Job

/-! ## Runs -/

namespace Job

variable (positive : 0 < c) {job : Job ℝ ε n m}
  (homogeneous : job.merit.oracles.HomogeneousAdjoint)

/-- The new unit as the terms of a run. -/
noncomputable def unitTerms : Terms ℝ ε n m job.depth n m (job.scaled positive).depth where
  event := Event.scaled c
  failure := SolveError.scaled c
  residual := (c * ·)
  state := State.scaled c
  solution := Solution.scaled c
  failure_interrupted _ := rfl
  failure_iterationLimit _ _ := rfl

include homogeneous in
theorem solve_scaled (observer : Observer ℝ σ) (listener : σ) :
    (job.scaled positive).solve observer listener =
      (job.solve (observer.hearing (Event.scaled c)) listener).map id
        fun answer => (answer.mapError (SolveError.scaled c)).map (Solution.scaled c) := by
  have iterated : ∀ iteration state,
      (job.scaled positive).iterate iteration ((unitTerms positive).state state) =
        (job.iterate iteration state).convert (Event.scaled c) (SolveError.scaled c)
          (unitTerms positive).progress := by
    intro iteration state
    rw [show (unitTerms positive).progress = Progress.scaled c from funext fun
      | .converged _ => rfl
      | .advanced _ _ => rfl]
    exact iterate_scaled positive homogeneous iteration state
  exact solve_convert (unitTerms positive) rfl (start_scaled positive homogeneous) iterated observer
    listener

include homogeneous in
/-- The events of a solve are the same in any unit. -/
theorem events_scaled (observer : Observer ℝ σ) (listener : σ) :
    (job.scaled positive).events observer listener =
      (job.events (observer.hearing (Event.scaled c)) listener).map (Event.scaled c) :=
  events_convert (unitTerms positive) (solve_scaled positive homogeneous) observer listener

end Job

/-! ## Requests -/

/-- A problem in the new unit. -/
noncomputable def Problem.scaled (c : ℝ) (problem : Problem ℝ ε) : Problem ℝ ε :=
  { problem with oracles := problem.oracles.scaled c }

/-- Buffers in the new unit, of which only the multipliers have one. -/
noncomputable def Buffers.scaled (c : ℝ) (buffers : Buffers ℝ) : Buffers ℝ :=
  { buffers with y := buffers.y.map (c * ·) }

/-- A request in the new unit: the objective, the weights, the multipliers, the
tolerance and the smallest Lipschitz estimate are multiplied. -/
noncomputable def Request.scaled (c : ℝ) (request : Request ℝ ε) : Request ℝ ε where
  problem := request.problem.scaled c
  params := request.params.scaled c
  buffers := request.buffers.scaled c
  sigma := request.sigma.map (c * ·)
  eps := c * request.eps

/-- What a caller gets back in the new unit. -/
noncomputable def Outcome.scaled (c : ℝ) (outcome : Outcome ℝ ε σ) : Outcome ℝ ε σ :=
  { outcome with
    buffers := outcome.buffers.scaled c
    result := (outcome.result.mapError (SolveError.scaled c)).map (Summary.scaled c) }

/-- The defects of a set have no unit. -/
theorem Interval.fault?_scaled (c : ℝ) (role : Role) (index : Nat) (side : Interval ℝ) :
    (side.fault? role index).map (InputFault.scaled c) = side.fault? role index := by
  unfold Interval.fault?
  split
  · rfl
  · rw [Option.map_map]
    rfl

theorem Box.fault?_scaled (c : ℝ) (role : Role) (box : Box ℝ n) :
    (box.fault? role).map (InputFault.scaled c) = box.fault? role := by
  unfold Box.fault?
  rw [List.map_findSome?]
  refine congrArg (List.findSome? · _) (funext fun entry => ?_)
  exact Interval.fault?_scaled c role entry.2 entry.1

theorem Params.fault?_scaled (positive : 0 < c) (params : Params ℝ) :
    (params.scaled c).fault? = params.fault? := by
  unfold Params.fault?
  simp only [params.meets_scaled_iff positive]

namespace Request

variable {request : Request ℝ ε}

theorem sizeFault?_scaled (c : ℝ) (request : Request ℝ ε) :
    (request.scaled c).sizeFault? = request.sizeFault?.map (SolveError.scaled c) := by
  have sizes : (request.scaled c).sizes = request.sizes := by
    simp [Request.sizes, Request.scaled, Problem.scaled, Buffers.scaled]
  unfold sizeFault?
  rw [sizes, List.map_findSome?]
  refine congrArg (List.findSome? · _) (funext fun entry => ?_)
  obtain ⟨which, expected, actual⟩ := entry
  dsimp only [Function.comp]
  split
  · rfl
  · rfl

theorem weightFault?_scaled (positive : 0 < c) (request : Request ℝ ε) :
    (request.scaled c).weightFault? = request.weightFault?.map (InputFault.scaled c) := by
  unfold weightFault?
  show (request.sigma.map (c * ·)).toList.zipIdx.findSome? _ = _
  rw [Array.toList_map, List.zipIdx_map, List.findSome?_map, List.map_findSome?]
  refine congrArg (List.findSome? · _) (funext fun entry => ?_)
  obtain ⟨weight, index⟩ := entry
  show (if IsPositive (c * weight) then none else some (.weight index (c * weight))) =
    (if IsPositive weight then none else some (.weight index weight)).map (InputFault.scaled c)
  rw [apply_ite (Option.map (InputFault.scaled c))]
  exact if_congr (isPositive_scaled_iff positive weight) rfl rfl

/-- A request has the same fault in any unit. -/
theorem fault?_scaled (positive : 0 < c) (request : Request ℝ ε) :
    (request.scaled c).fault? = request.fault?.map (SolveError.scaled c) := by
  have tolerance : 0 < (request.scaled c).eps ↔ 0 < request.eps := mul_pos_iff_of_pos_left positive
  have params : (request.scaled c).params.fault? = request.params.fault? :=
    Params.fault?_scaled positive request.params
  have defect : ∀ {k : Nat} (role : Role) (box : Box ℝ k),
      (box.fault? role).map (SolveError.scaled c ∘ SolveError.input) =
        (box.fault? role).map (SolveError.input : _ → SolveError ℝ ε) := by
    intro k role box
    conv_rhs => rw [← box.fault?_scaled c role, Option.map_map]
    rfl
  unfold fault?
  simp only [Option.orElse_eq_orElse, Option.orElse_eq_or, Option.map_or, Option.map_map,
    sizeFault?_scaled, weightFault?_scaled positive, params, tolerance, defect,
    apply_ite (Option.map (SolveError.scaled c)), Option.map_none, Option.map_some]
  rfl

/-- The outcome of a converted answer. -/
theorem outcome_scaled {k l : Nat} (request : Request ℝ ε)
    (answered : σ × Except (SolveError ℝ ε) (Solution ℝ k l)) :
    (request.scaled c).outcome (answered.map id fun answer =>
        (answer.mapError (SolveError.scaled c)).map (Solution.scaled c)) =
      (request.outcome answered).scaled c := by
  rcases answered with ⟨listener, error | solution⟩
  · rfl
  · rfl

/-- **Solving does not depend on the unit of the objective.** If the objective, the
weights, the multipliers, the tolerance and the smallest Lipschitz estimate of a request
are multiplied by a positive number, then the same run is made: whatever the observer,
the outcome and the events are the former ones in the new unit. The adjoint of the
constraint map has to be homogeneous, as every linear map is. -/
theorem solve_equivariant (positive : 0 < c) {request : Request ℝ ε}
    (homogeneous : request.problem.oracles.HomogeneousAdjoint) (observer : Observer ℝ σ)
    (listener : σ) :
    (request.scaled c).solve observer listener =
        (request.solve (observer.hearing (Event.scaled c)) listener).scaled c ∧
      (request.scaled c).events observer listener =
        (request.events (observer.hearing (Event.scaled c)) listener).map (Event.scaled c) := by
  have same_fault := request.fault?_scaled positive
  cases tested : request.fault? with
  | some fault =>
    rw [tested] at same_fault
    constructor
    · rw [solve_of_fault tested, solve_of_fault same_fault]
      rfl
    · rw [events_of_fault tested, events_of_fault same_fault]
      rfl
  | none =>
    rw [tested] at same_fault
    -- the job of the request in the new unit is the job in the new unit
    have homogeneous : (request.job tested).merit.oracles.HomogeneousAdjoint := homogeneous
    have answered := Job.solve_scaled positive homogeneous observer listener
    constructor
    · rw [solve_eq_outcome tested, solve_eq_outcome same_fault]
      exact (congrArg (request.scaled c).outcome answered).trans (request.outcome_scaled _)
    · rw [events_eq tested, events_eq same_fault]
      exact Job.events_scaled positive homogeneous observer listener

end Request

/-! ## A request in two units -/

/-- A unit slope on the halfline from zero, with a violated constraint that pulls at the
variable with twice its multiplier. -/
noncomputable def pulledRequest : Request ℝ Unit :=
  { slopeRequest with
    problem := { slopeProblem with
      oracles := { slopeProblem.oracles with gradG := fun _ (y : Vector ℝ 1) => .ok (y + y) } } }

/-- The request is admitted, and its run in two units is the same. -/
theorem solve_equivariant_pulled : 0 < (2 : ℝ) ∧
    pulledRequest.problem.oracles.HomogeneousAdjoint ∧ pulledRequest.fault? = none ∧
    (pulledRequest.scaled 2).solve Observer.recorder ⟨[], none⟩ =
      (pulledRequest.solve (Observer.recorder.hearing (Event.scaled 2)) ⟨[], none⟩).scaled 2 ∧
    (pulledRequest.scaled 2).events Observer.recorder ⟨[], none⟩ =
      (pulledRequest.events (Observer.recorder.hearing (Event.scaled 2)) ⟨[], none⟩).map
        (Event.scaled 2) := by
  have homogeneous : pulledRequest.problem.oracles.HomogeneousAdjoint := by
    intro c _ y _
    exact congrArg Except.ok (hmul_add c y y).symm
  exact ⟨two_pos, homogeneous, slopeRequest_faultless,
    Request.solve_equivariant two_pos homogeneous Observer.recorder ⟨[], none⟩⟩

end ProximalNewton
