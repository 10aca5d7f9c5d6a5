import ProximalNewton.Proofs.Course
import ProximalNewton.Proofs.Evaluation
import ProximalNewton.Proofs.ScalarLaws

/-!
# Solves that succeed

A solve that succeeds has admitted its request and stopped at a point where an
iteration measured a residual within the tolerance. What it returns was
evaluated there: `Job.solve_eq_ok` and `Request.solve_eq_ok` go from the answer
back to that point.
-/

namespace ProximalNewton

variable {F ε σ : Type} [Scalar F]

/-- The residual of the proximal gradient map that an iteration measures. -/
def State.residualVector {n m depth : Nat} (state : State F n m depth)
    (atHat : Evaluation F n m) : Vector F n :=
  ProximalNewton.residualVector state.step.gamma state.current.r atHat.gradPsi
    state.current.gradPsi

namespace Job

variable {n m : Nat} {job : Job F ε n m}

/-- The residual is within the tolerance exactly when every component is, but for
those that are not numbers. -/
theorem residual_le_iff [LawfulScalar F] {state : State F n m job.depth}
    {atHat : Evaluation F n m} :
    state.residual atHat ≤ job.eps ↔ ∀ (i : Nat) (inside : i < n),
      Scalar.isNaN (state.residualVector atHat)[i] = true ∨
        Scalar.abs (state.residualVector atHat)[i] ≤ job.eps := by
  have nonneg : 0 ≤ job.eps := LawfulScalar.le_of_lt job.eps_pos
  exact maxNorm_le_iff nonneg (state.residualVector atHat)

/-- A solve that succeeds has begun its last iteration in a state whose residual it
has reported, and returns the solution there. -/
theorem solve_converged {observer : Observer F σ} {listener : σ} {solution : Solution F n m}
    (solved : (job.solve observer listener).2 = .ok solution) :
    ∃ laps before state atHat ledger, job.Reaches laps before (.ready state) ∧
      job.merit.evaluate state.current.xHat state.ledger = .ok (atHat, ledger) ∧
      State.residual { state with ledger } atHat ≤ job.eps ∧
      solution = job.solution laps.length { state with ledger }
        (State.residual { state with ledger } atHat) atHat.z ∧
      job.events observer listener = before ++
        [.iteration (job.report laps.length { state with ledger }
          (State.residual { state with ledger } atHat)), .finished solution.summary] := by
  rcases job.solve_ends observer listener with ⟨error, -, -, failed⟩ | ⟨laps, point, reached, ends⟩
  · rw [solved] at failed
    cases failed
  · rw [solved] at ends
    generalize job.events observer listener = events at reached
    cases ends with
    | converged =>
      cases reached with
      | converge measured small =>
        cases measured with
        | measure ready evaluated =>
          exact ⟨laps, _, _, _, _, ready, evaluated, small, rfl, List.append_assoc _ _ _⟩

/-- A solve that succeeds returns the solution at a point that it reaches. -/
theorem solve_eq_ok {observer : Observer F σ} {listener : σ} {solution : Solution F n m}
    (solved : (job.solve observer listener).2 = .ok solution) :
    ∃ laps events state atHat, job.Reaches laps events (.measured state atHat) ∧
      state.residual atHat ≤ job.eps ∧
      solution = job.solution laps.length state (state.residual atHat) atHat.z := by
  obtain ⟨laps, before, state, atHat, ledger, ready, evaluated, small, made, -⟩ :=
    solve_converged solved
  exact ⟨laps, _, _, atHat, .measure ready evaluated, small, made⟩

/-- The slack and the multipliers of a solution belong to the constraint value at
its point, and the gradient measured there is the one for these multipliers. -/
theorem Reaches.solution_evaluated {laps : List (Lap F n m job.depth)} {events : List (Event F)}
    {state : State F n m job.depth} {atHat : Evaluation F n m}
    (reached : job.Reaches laps events (.measured state atHat)) :
    ∃ g gradF gradG, job.oracles.g state.current.xHat = .ok g ∧
      atHat.z = job.merit.slackOf g ∧
      state.ledger.multipliers = job.merit.multipliersOf g ∧
      state.ledger.constraint = g ∧
      job.oracles.gradF state.current.xHat = .ok gradF ∧
      job.oracles.gradG state.current.xHat state.ledger.multipliers = .ok gradG ∧
      atHat.gradPsi = gradF + gradG := by
  cases reached with
  | measure _ evaluated =>
    obtain ⟨g, grad, psi, at_x, slope, -, answer⟩ := Merit.evaluate_eq_ok.mp evaluated
    obtain ⟨gradF, gradG, slopeF, slopeG, rfl⟩ := meritGradient_eq_ok.mp slope
    cases answer
    exact ⟨g, gradF, gradG, at_x, rfl, rfl, rfl, slopeF, slopeG, rfl⟩

/-- An iteration that measures a residual within the tolerance converges. -/
theorem iterate_of_small {state : State F n m job.depth} {atHat : Evaluation F n m}
    {ledger : Ledger F m}
    (evaluated : job.merit.evaluate state.current.xHat state.ledger = .ok (atHat, ledger))
    (small : State.residual { state with ledger } atHat ≤ job.eps) (iteration : Nat) :
    (job.iterate iteration state).result =
      .ok (.converged (job.solution iteration { state with ledger }
        (State.residual { state with ledger } atHat) atHat.z)) := by
  rw [job.iterate_of_met evaluated small]
  rfl

/-- A solve whose first iteration converges succeeds, unless the observer stops it
before. -/
theorem solve_of_small {observer : Observer F σ} {listener : σ} {state : State F n m job.depth}
    {atHat : Evaluation F n m} {ledger : Ledger F m} (started : job.start = .ok state)
    (evaluated : job.merit.evaluate state.current.xHat state.ledger = .ok (atHat, ledger))
    (small : State.residual { state with ledger } atHat ≤ job.eps)
    (permitted : (observer.wantsStop listener 0).1 = false) :
    (job.solve observer listener).2 =
      .ok (job.solution 0 { state with ledger } (State.residual { state with ledger } atHat)
        atHat.z) := by
  have converged := iterate_of_small evaluated small 0
  rcases asked : observer.wantsStop listener 0 with ⟨stop, after⟩
  rw [asked] at permitted
  cases permitted
  unfold solve
  rw [started]
  unfold run
  simp only [asked, converged]

/-! ## Runs whose iterations are known -/

/-- Before iteration `k`, with `left` iterations permitted after it, a run that nobody stops
reports these events and converges to this solution. -/
inductive Finishes (job : Job F ε n m) : Nat → Nat → State F n m job.depth → List (Event F) →
    Solution F n m → Prop
  | converged {left k state events solution} :
    job.iterate k state = ⟨events, .ok (.converged solution)⟩ →
    Finishes job left k state events solution
  | advanced {left k state events residual next later solution} :
    job.iterate k state = ⟨events, .ok (.advanced residual next)⟩ →
    Finishes job left (k + 1) next later solution →
    Finishes job (left + 1) k state (events ++ later) solution

theorem Finishes.run {left k : Nat} {state : State F n m job.depth} {events : List (Event F)}
    {solution : Solution F n m} (finishes : job.Finishes left k state events solution)
    {observer : Observer F σ}
    (never : ∀ listener k, (observer.wantsStop listener k).1 = false)
    (noted : σ × List (Event F)) :
    (job.run observer.noting left k state noted).1.2 = noted.2 ++ events ∧
      (job.run observer.noting left k state noted).2 = .ok solution := by
  have permitted : ∀ (noted : σ × List (Event F)) k,
      ∃ after, observer.noting.wantsStop noted k = (false, after) := by
    intro noted k
    exact ⟨_, Prod.ext (never noted.1 k) rfl⟩
  induction finishes generalizing noted with
  | converged iterated =>
    obtain ⟨after, asked⟩ := permitted noted _
    rw [run_of_converged asked (congrArg Traced.result iterated), iterated]
    exact ⟨Observer.noted_iteration asked _, rfl⟩
  | advanced iterated _ ih =>
    obtain ⟨after, asked⟩ := permitted noted _
    rw [run_of_advanced asked (congrArg Traced.result iterated), iterated]
    obtain ⟨told, answer⟩ := ih (observer.noting.observeAll after _)
    rw [Observer.noted_iteration asked, List.append_assoc] at told
    exact ⟨told, answer⟩

/-- A solve whose run is known and which nobody stops. -/
theorem Finishes.solve {state : State F n m job.depth} {events : List (Event F)}
    {solution : Solution F n m}
    (finishes : job.Finishes (job.params.maxIter - 1) 0 state events solution)
    (started : job.start = .ok state) {observer : Observer F σ}
    (never : ∀ listener k, (observer.wantsStop listener k).1 = false) (listener : σ) :
    job.events observer listener = events ∧
      (job.solve observer listener).2 = .ok solution := by
  obtain ⟨told, answer⟩ := finishes.run never (listener, [])
  rw [← job.solve_of_started started] at told answer
  rw [← job.solve_noting]
  exact ⟨told, answer⟩

end Job

namespace Request

variable {request : Request F ε}

/-- An admitted request is its job. -/
theorem accept_eq_ok {job : Job F ε request.problem.numVars request.problem.numConstraints}
    (accepted : request.accept = .ok job) :
    ∃ faultless, job = request.job faultless := by
  unfold accept at accepted
  split at accepted
  · cases accepted
  · cases accepted
    exact ⟨_, rfl⟩

theorem accept_of_faultless (faultless : request.fault? = none) :
    request.accept = .ok (request.job faultless) := by
  unfold accept
  split
  · rename_i fault found
    rw [faultless] at found
    cases found
  · rfl

theorem accept_of_fault {fault : SolveError F ε} (found : request.fault? = some fault) :
    request.accept = .error fault := by
  unfold accept
  split
  · rename_i fault' found'
    rw [found] at found'
    cases found'
    rfl
  · rename_i faultless
    rw [found] at faultless
    cases faultless

/-- A request with a fault is refused as it is, and nothing is reported. -/
theorem solve_of_fault {fault : SolveError F ε} (found : request.fault? = some fault)
    (observer : Observer F σ) (listener : σ) :
    request.solve observer listener =
      { buffers := request.buffers, result := .error fault, listener } := by
  unfold Request.solve
  rw [accept_of_fault found]

/-- What a request is given back once its job has been answered. -/
def outcome {n m : Nat} (request : Request F ε)
    (answered : σ × Except (SolveError F ε) (Solution F n m)) : Outcome F ε σ :=
  match answered with
  | (listener, .error error) => { buffers := request.buffers, result := .error error, listener }
  | (listener, .ok solution) =>
    { buffers := solution.buffers, result := .ok solution.summary, listener }

omit [Scalar F] in
@[simp]
theorem outcome_listener {n m : Nat}
    (answered : σ × Except (SolveError F ε) (Solution F n m)) :
    (request.outcome answered).listener = answered.1 := by
  rcases answered with ⟨listener, _ | _⟩
  · rfl
  · rfl

omit [Scalar F] in
/-- A failure leaves the buffers as they were. -/
theorem outcome_of_error {n m : Nat} (request : Request F ε)
    {answered : σ × Except (SolveError F ε) (Solution F n m)} {error : SolveError F ε}
    (failed : answered.2 = .error error) :
    request.outcome answered =
      { buffers := request.buffers, result := .error error, listener := answered.1 } := by
  rcases answered with ⟨listener, answer⟩
  subst failed
  rfl

omit [Scalar F] in
/-- A success hands over the solution. -/
theorem outcome_of_ok {n m : Nat} (request : Request F ε)
    {answered : σ × Except (SolveError F ε) (Solution F n m)} {solution : Solution F n m}
    (succeeded : answered.2 = .ok solution) :
    request.outcome answered =
      { buffers := solution.buffers, result := .ok solution.summary, listener := answered.1 } := by
  rcases answered with ⟨listener, answer⟩
  subst succeeded
  rfl

omit [Scalar F] in
/-- The summary and the buffers depend on the answer alone. -/
theorem outcome_congr (request : Request F ε) {τ : Type} {n m : Nat}
    {answered : σ × Except (SolveError F ε) (Solution F n m)}
    {answered' : τ × Except (SolveError F ε) (Solution F n m)} (same : answered.2 = answered'.2) :
    (request.outcome answered).result = (request.outcome answered').result ∧
      (request.outcome answered).buffers = (request.outcome answered').buffers := by
  rcases answered with ⟨listener, _ | _⟩
  · rcases answered' with ⟨listener', answer⟩
    subst same
    exact ⟨rfl, rfl⟩
  · rcases answered' with ⟨listener', answer⟩
    subst same
    exact ⟨rfl, rfl⟩

theorem solve_eq_outcome (faultless : request.fault? = none) (observer : Observer F σ)
    (listener : σ) :
    request.solve observer listener =
      request.outcome ((request.job faultless).solve observer listener) := by
  unfold Request.solve
  rw [accept_of_faultless faultless]
  dsimp only
  rcases (request.job faultless).solve observer listener with ⟨after, error | solution⟩
  · rfl
  · rfl

/-- The events that a solve reports to an observer, in their order. -/
def events (request : Request F ε) (observer : Observer F σ) (listener : σ) : List (Event F) :=
  (request.solve observer.noting (listener, [])).listener.2

theorem events_eq (faultless : request.fault? = none) (observer : Observer F σ) (listener : σ) :
    request.events observer listener = (request.job faultless).events observer listener := by
  unfold events
  rw [solve_eq_outcome faultless, outcome_listener]
  rfl

theorem events_of_fault {fault : SolveError F ε} (found : request.fault? = some fault)
    (observer : Observer F σ) (listener : σ) : request.events observer listener = [] := by
  unfold events
  rw [solve_of_fault found]

/-- A request that is solved has been admitted, and its buffers hold the solution
of its job. -/
theorem solve_eq_ok {observer : Observer F σ} {listener : σ} {summary : Summary F}
    (solved : (request.solve observer listener).result = .ok summary) :
    ∃ job solution, request.accept = .ok job ∧
      (job.solve observer listener).2 = .ok solution ∧
      (request.solve observer listener).buffers = solution.buffers ∧
      summary = solution.summary := by
  unfold Request.solve at solved ⊢
  cases accepted : request.accept with
  | error fault =>
    rw [accepted] at solved
    cases solved
  | ok job =>
    rw [accepted] at solved
    rcases answered : job.solve observer listener with ⟨after, error | solution⟩
    · simp only [answered] at solved
      cases solved
    · simp only [answered] at solved ⊢
      cases solved
      exact ⟨job, solution, rfl, by rw [answered], rfl, rfl⟩

/-- A request fails as its job does. -/
theorem solve_eq_error_iff {observer : Observer F σ} {listener : σ} {error : SolveError F ε}
    (faultless : request.fault? = none) :
    (request.solve observer listener).result = .error error ↔
      ((request.job faultless).solve observer listener).2 = .error error := by
  rw [solve_eq_outcome faultless]
  rcases (request.job faultless).solve observer listener with ⟨after, _ | _⟩
  · constructor
    · intro failed
      cases failed
      rfl
    · intro failed
      cases failed
      rfl
  · exact ⟨nofun, nofun⟩

/-- A request succeeds as its job does. -/
theorem solve_eq_ok_iff {observer : Observer F σ} {listener : σ} {summary : Summary F}
    (faultless : request.fault? = none) :
    (request.solve observer listener).result = .ok summary ↔
      ∃ solution, ((request.job faultless).solve observer listener).2 = .ok solution ∧
        solution.summary = summary := by
  rw [solve_eq_outcome faultless]
  rcases (request.job faultless).solve observer listener with ⟨after, _ | solution⟩
  · constructor
    · exact nofun
    · intro found
      obtain ⟨_, succeeded, -⟩ := found
      cases succeeded
  · constructor
    · intro succeeded
      cases succeeded
      exact ⟨solution, rfl, rfl⟩
    · intro found
      obtain ⟨_, succeeded, rfl⟩ := found
      cases succeeded
      rfl

theorem solve_of_faultless {observer : Observer F σ} {listener : σ}
    {solution : Solution F request.problem.numVars request.problem.numConstraints}
    (faultless : request.fault? = none)
    (answered : ((request.job faultless).solve observer listener).2 = .ok solution) :
    (request.solve observer listener).result = .ok solution.summary :=
  (solve_eq_ok_iff faultless).mpr ⟨solution, answered, rfl⟩

end Request

/-! ## A request that is solved -/

/-- `(x - 3)²` on `[-10, 10]`, with `x` to be at most one. -/
def parabolaProblem : Problem Float Unit where
  numVars := 1
  numConstraints := 1
  oracles :=
    { f := fun x => .ok ((x.get ⟨0, Nat.one_pos⟩ - 3) * (x.get ⟨0, Nat.one_pos⟩ - 3))
      gradF := fun x => .ok #v[2 * (x.get ⟨0, Nat.one_pos⟩ - 3)]
      g := fun x => .ok x
      gradG := fun _ y => .ok y }
  dimC := 1
  dimD := 1
  C := .replicate 1 (-10) 10
  D := ⟨#v[⟨none, some 1⟩]⟩

/-- A solve from the origin that makes at most `maxIter` iterations. -/
def parabolaRequest (maxIter : Nat) : Request Float Unit where
  problem := parabolaProblem
  params := { (default : Params Float) with maxIter }
  buffers := { x := #[0], z := #[0], y := #[0.5], errZ := #[0] }
  sigma := #[1]
  eps := 1e-3

end ProximalNewton
