import ProximalNewton.Proofs.Coherence
import ProximalNewton.Proofs.Success

/-!
# What a solve returns belongs to one point

Every evaluation of a solve leaves its constraint value and multiplier estimate in
one ledger, which the solution is read off: evaluations at the initial guess and
next to it, at projected points, after tightenings, and at the trials of searches.
The solution belongs to the last of these. `Request.solve_consistent` gives the
returned slack, multipliers and constraint residual as functions of the returned
point and of the data of the request, and the returned point as the projected one
of the iteration that was reported last.
-/

namespace ProximalNewton

variable {F ε σ : Type} [Scalar F] {n m : Nat}

/-- An evaluation gives the same, and leaves the same constraint value and
multipliers, whatever the ledger held before it. -/
theorem Merit.evaluate_anew {merit : Merit F ε n m} {x : Vector F n} {ledger after : Ledger F m}
    {evaluation : Evaluation F n m} (evaluated : merit.evaluate x ledger = .ok (evaluation, after))
    (before : Ledger F m) :
    ∃ after', merit.evaluate x before = .ok (evaluation, after') ∧
      after'.constraint = after.constraint ∧ after'.multipliers = after.multipliers := by
  obtain ⟨g, grad, psi, at_x, slope, value, answer⟩ := evaluate_eq_ok.mp evaluated
  cases answer
  exact ⟨_, evaluate_eq_ok.mpr ⟨g, grad, psi, at_x, slope, value, rfl⟩, rfl, rfl⟩

/-- Buffers that hold a point together with the slack, the multipliers and the
constraint residual that belong to a constraint value. -/
structure Buffers.Consistent (buffers : Buffers F) (D : Box F m) (y0 sigma : Vector F m)
    (x : Vector F n) (g : Vector F m) : Prop where
  x : buffers.x = x.toArray
  z : buffers.z = (slack D g (y0.zipWith (· / ·) sigma)).toArray
  y : buffers.y =
    (multiplierEstimate (slack D g (y0.zipWith (· / ·) sigma)) g y0 sigma).toArray
  errZ : buffers.errZ = (g - slack D g (y0.zipWith (· / ·) sigma)).toArray

/-- The solution at a measured residual is consistent with the constraint value at
its point. -/
theorem Job.solution_consistent {job : Job F ε n m} {state : State F n m job.depth}
    {atHat : Evaluation F n m} {ledger : Ledger F m}
    (evaluated : job.merit.evaluate state.current.xHat state.ledger = .ok (atHat, ledger))
    (iteration : Nat) (residual : F) :
    ∃ g, job.oracles.g state.current.xHat = .ok g ∧
      (job.solution iteration { state with ledger } residual atHat.z).buffers.Consistent
        job.D job.y job.sigma state.current.xHat g := by
  obtain ⟨g, grad, psi, at_x, -, -, answer⟩ := Merit.evaluate_eq_ok.mp evaluated
  cases answer
  exact ⟨g, at_x, rfl, rfl, rfl, rfl⟩

namespace Request

variable {request : Request F ε} {observer : Observer F σ} {listener : σ}

/-- Where a solved request has its point and its buffers from. -/
structure Provenance (request : Request F ε) (faultless : request.fault? = none)
    (observer : Observer F σ) (listener : σ) (summary : Summary F)
    (x : Vector F request.problem.numVars) : Prop where
  /-- The point is the projected one of the iteration that was reported last. -/
  lastIteration : ∃ laps before state residual,
    (request.job faultless).Reaches laps before (.ready state) ∧
    (request.job faultless).iterateAt state.step.gamma state.current.x = .ok state.current ∧
    x = state.current.xHat ∧
    request.events observer listener = before ++
      [.iteration ((request.job faultless).report laps.length state residual),
        .finished summary]
  /-- Evaluated anew, with whatever ledger, the point gives what was returned. -/
  anew : ∀ ledger, ∃ atHat after,
    (request.job faultless).merit.evaluate x ledger = .ok (atHat, after) ∧
    (request.solve observer listener).buffers.z = atHat.z.toArray ∧
    (request.solve observer listener).buffers.y = after.multipliers.toArray ∧
    (request.solve observer listener).buffers.errZ = (after.constraint - atHat.z).toArray

/-- **Consistency of the returned buffers.** A solve that succeeds returns the
projected point of its last iteration, with the slack, the multipliers and the
constraint residual that belong to the constraint value there and to the multipliers
that it was called with. -/
theorem solve_consistent {summary : Summary F}
    (solved : (request.solve observer listener).result = .ok summary) :
    ∃ (sameD : request.problem.dimD = request.problem.numConstraints)
      (sameY : request.buffers.y.size = request.problem.numConstraints)
      (sameSigma : request.sigma.size = request.problem.numConstraints)
      (x : Vector F request.problem.numVars) (g : Vector F request.problem.numConstraints),
      request.problem.oracles.g x = .ok g ∧
      (request.solve observer listener).buffers.Consistent (request.problem.D.cast sameD)
        ⟨request.buffers.y, sameY⟩ ⟨request.sigma, sameSigma⟩ x g ∧
      ∃ faultless, request.Provenance faultless observer listener summary x := by
  obtain ⟨job, solution, accepted, answered, buffers, rfl⟩ := solve_eq_ok solved
  obtain ⟨laps, before, state, atHat, ledger, ready, evaluated, -, made, events⟩ :=
    Job.solve_converged answered
  obtain ⟨g, at_x, consistent⟩ := Job.solution_consistent evaluated laps.length
    (State.residual { state with ledger } atHat)
  obtain ⟨faultless, rfl⟩ := accept_eq_ok accepted
  obtain ⟨-, -, sameD, -, sameY, -, sameSigma⟩ :=
    sizes_agree (conditions_of_faultless faultless).2.1
  refine ⟨sameD, sameY, sameSigma, state.current.xHat, g, at_x, ?_, faultless, ?_, ?_⟩
  · rw [buffers, made]
    exact consistent
  · refine ⟨laps, before, state, State.residual { state with ledger } atHat, ready,
      ready.current_coherent, rfl, ?_⟩
    rw [events_eq faultless]
    exact events
  · intro scratch
    obtain ⟨after, anew, constraint_eq, multipliers_eq⟩ := Merit.evaluate_anew evaluated scratch
    refine ⟨atHat, after, anew, ?_⟩
    rw [buffers, made, constraint_eq, multipliers_eq]
    exact ⟨rfl, rfl, rfl⟩

end Request

/-- The parabola takes several iterations. -/
theorem solve_consistent_parabola : ∃ summary,
    ((parabolaRequest 10).solve Observer.silent ()).result = .ok summary ∧
    0 < summary.iterations ∧
    ∃ x g : Vector Float 1, parabolaProblem.oracles.g x = .ok g ∧
      ((parabolaRequest 10).solve Observer.silent ()).buffers.Consistent parabolaProblem.D
        #v[0.5] #v[1] x g := by
  have answer : (match ((parabolaRequest 10).solve Observer.silent ()).result with
      | .ok summary => decide (0 < summary.iterations)
      | .error _ => false) = true := by
    decide +kernel
  split at answer
  · rename_i summary solved
    obtain ⟨sameD, sameY, sameSigma, x, g, at_x, consistent, -⟩ :=
      Request.solve_consistent solved
    exact ⟨summary, solved, of_decide_eq_true answer, x, g, at_x, consistent⟩
  · cases answer

end ProximalNewton
