import ProximalNewton.Proofs.Course
import ProximalNewton.Proofs.Evaluation

/-!
# Iterates are what their points make them

A run carries its iterates along: it computes them again when the step size
changes, and takes over the last trial of a search. `Job.iterateAt` computes an
iterate from nothing but a point and a step size. The main result is that at
every point of a run the current iterate, and at the end of a search also its
last trial, is the one so computed for the step size in force. What an iteration
reports is therefore a function of its point and its step size, `Job.reading`.
-/

namespace ProximalNewton

variable {F ε : Type} [Scalar F] {n m : Nat}

namespace Job

/-- The iterate at a point for a step size, computed from scratch. -/
def iterateAt (job : Job F ε n m) (gamma : F) (x : Vector F n) : Except ε (Iterate F n) := do
  let g ← job.oracles.g x
  let shift := job.y.zipWith (· / ·) job.sigma
  let z := slack job.D g shift
  let grad ← meritGradient job.oracles x (multiplierEstimate z g job.y job.sigma)
  let psi ← meritValue job.oracles x g shift z job.sigma
  let xHat := job.C.project (x - gamma * grad.total)
  let r := x - xHat
  return {
    x, psi, xHat, r
    gradPsi := grad.total
    gradDotR := dot grad.total r
    normSqR := normSq r }

/-- The merit, the residual and the length of the proximal step that belong to a
point and a step size. -/
def reading (job : Job F ε n m) (gamma : F) (x : Vector F n) : Except ε (F × F × F) := do
  let iterate ← job.iterateAt gamma x
  let atHat ← job.iterateAt gamma iterate.xHat
  return (iterate.psi, residual gamma iterate.r atHat.gradPsi iterate.gradPsi,
    Scalar.sqrt iterate.normSqR)

variable {job : Job F ε n m}

theorem iterateAt_eq_ok {gamma : F} {x : Vector F n} {iterate : Iterate F n} :
    job.iterateAt gamma x = .ok iterate ↔
      ∃ g grad psi, job.oracles.g x = .ok g ∧
        meritGradient job.oracles x (job.merit.multipliersOf g) = .ok grad ∧
        job.merit.psi x g = .ok psi ∧ iterate = .ofPoint job.C gamma x grad.total psi := by
  unfold iterateAt
  simp only [bind_eq_ok]
  constructor
  · intro answered
    rcases answered with ⟨g, at_x, grad, slope, psi, value, ⟨⟩⟩
    exact ⟨g, grad, psi, at_x, slope, value, rfl⟩
  · intro made
    rcases made with ⟨g, grad, psi, at_x, slope, value, rfl⟩
    exact ⟨g, at_x, grad, slope, psi, value, rfl⟩

/-- The iterate made from an evaluation is the one computed from scratch,
whatever the ledger held. -/
theorem iterateAt_of_evaluate {x : Vector F n} {ledger ledger' : Ledger F m}
    {evaluation : Evaluation F n m} (gamma : F)
    (evaluated : job.merit.evaluate x ledger = .ok (evaluation, ledger')) :
    job.iterateAt gamma x =
      .ok (.ofPoint job.C gamma x evaluation.gradPsi evaluation.psi) := by
  obtain ⟨g, grad, psi, at_x, slope, value, answer⟩ := Merit.evaluate_eq_ok.mp evaluated
  cases answer
  exact iterateAt_eq_ok.mpr ⟨g, grad, psi, at_x, slope, value, rfl⟩

/-- An iterate computed for another step size is the one computed from scratch. -/
theorem iterateAt_withGamma {gamma : F} {iterate : Iterate F n} (gamma' : F)
    (fresh : job.iterateAt gamma iterate.x = .ok iterate) :
    job.iterateAt gamma' iterate.x = .ok (iterate.withGamma job.C gamma') := by
  obtain ⟨g, grad, psi, at_x, slope, value, made⟩ := iterateAt_eq_ok.mp fresh
  refine iterateAt_eq_ok.mpr ⟨g, grad, psi, at_x, slope, value, ?_⟩
  rw [made]
  rfl

/-- The projected step of an iterate computed from scratch. -/
theorem projected_of_iterateAt {gamma : F} {x : Vector F n} {iterate : Iterate F n}
    (fresh : job.iterateAt gamma x = .ok iterate) :
    iterate.xHat = job.C.project (iterate.x - gamma * iterate.gradPsi) ∧
      iterate.r = iterate.x - iterate.xHat := by
  obtain ⟨g, grad, psi, -, -, -, rfl⟩ := iterateAt_eq_ok.mp fresh
  exact ⟨rfl, rfl⟩

/-- The products that an iterate computed from scratch keeps. -/
theorem products_of_iterateAt {gamma : F} {x : Vector F n} {iterate : Iterate F n}
    (fresh : job.iterateAt gamma x = .ok iterate) :
    iterate.gradDotR = dot iterate.gradPsi iterate.r ∧ iterate.normSqR = normSq iterate.r := by
  obtain ⟨g, grad, psi, -, -, -, rfl⟩ := iterateAt_eq_ok.mp fresh
  exact ⟨rfl, rfl⟩

end Job

/-- The current iterate at a point, and the last trial at the end of a search,
are those computed from scratch for the step size in force. -/
def Point.Coherent (job : Job F ε n m) : Point F n m job.depth → Prop
  | .searched attempt result =>
    job.iterateAt attempt.state.step.gamma attempt.state.current.x =
        .ok attempt.state.current ∧
      job.iterateAt attempt.state.step.gamma result.trial.x = .ok result.trial
  | point =>
    job.iterateAt point.state.step.gamma point.state.current.x = .ok point.state.current

namespace Job

variable {job : Job F ε n m} {laps : List (Lap F n m job.depth)} {events : List (Event F)}

/-- A trial is the iterate computed from scratch at its point. -/
theorem iterateAt_trial {iteration : Nat} {state : State F n m job.depth} {tau : F}
    {ledger ledger' : Ledger F m} {trial : Iterate F n}
    (tried : (job.search iteration state).trial tau ledger = .ok (trial, ledger')) :
    job.iterateAt state.step.gamma trial.x = .ok trial := by
  obtain ⟨evaluation, after, evaluated, answer⟩ := Search.trial_eq_ok.mp tried
  cases answer
  exact iterateAt_of_evaluate state.step.gamma evaluated

/-- Every point that a run gets to is coherent. -/
theorem Reaches.coherent {point : Point F n m job.depth}
    (reached : job.Reaches laps events point) : point.Coherent job := by
  induction reached with
  | start started =>
    obtain ⟨initial, ledger, lipschitz, ledger', evaluated, -, -, rfl⟩ := start_eq_ok started
    exact iterateAt_of_evaluate _ evaluated
  | measure _ _ ih => exact ih
  | converge _ _ ih => exact ih
  | enter _ _ ih => exact ih
  | @tighten _ _ attempt _ _ _ _ ih =>
    have current : job.iterateAt attempt.state.step.gamma attempt.state.current.x =
      .ok attempt.state.current := ih
    have again := iterateAt_withGamma (job.tighten attempt.state).step.gamma current
    exact again
  | revalue _ _ ih => exact ih
  | search _ _ ih => exact ih
  | begin _ ih => exact ih
  | reject _ _ _ _ ih => exact ih
  | accept _ tried _ ih => exact ⟨ih, iterateAt_trial tried⟩
  | stall _ tried _ _ ih => exact ⟨ih, iterateAt_trial tried⟩
  | advance _ ih => exact ih.2

theorem Reaches.current_coherent {point : Point F n m job.depth}
    (reached : job.Reaches laps events point) :
    job.iterateAt point.state.step.gamma point.state.current.x = .ok point.state.current := by
  have coherent := reached.coherent
  cases point with
  | searched attempt result => exact coherent.1
  | _ => exact coherent

/-- An iteration has measured with an evaluation at its projected point. -/
theorem Reaches.evaluated {state : State F n m job.depth} {atHat : Evaluation F n m}
    (reached : job.Reaches laps events (.measured state atHat)) :
    ∃ before, job.merit.evaluate state.current.xHat before = .ok (atHat, state.ledger) := by
  cases reached with
  | measure _ evaluated => exact ⟨_, evaluated⟩

/-- What an iteration reports is the reading at its point. -/
theorem Reaches.reading {state : State F n m job.depth} {atHat : Evaluation F n m}
    (reached : job.Reaches laps events (.measured state atHat)) :
    job.reading state.step.gamma state.current.x =
      .ok (state.current.psi, state.residual atHat, Scalar.sqrt state.current.normSqR) := by
  obtain ⟨before, evaluated⟩ := reached.evaluated
  have current := reached.current_coherent
  have atHat := iterateAt_of_evaluate state.step.gamma evaluated
  unfold Job.reading
  simp only [Point.state] at current
  rw [current]
  simp only [bind_eq_ok]
  exact ⟨_, rfl, _, atHat, rfl⟩

/-- **Iterates are coherent over whole runs.** At every point of control the
current iterate, and at the end of a search the last trial too, is the one
computed from scratch at its point for the step size in force. Every event of a
solve is reported at such a point, and an iteration reports the reading at its
point, which depends on the point and the step size alone. -/
theorem iterates_from_scratch (job : Job F ε n m) :
    (∀ laps events point, job.Reaches laps events point → point.Coherent job) ∧
    ∀ {σ : Type} (observer : Observer F σ) (listener : σ), ∀ event ∈ job.events observer listener,
      ∃ laps events point, job.Reaches laps events point ∧ job.Announces laps point event ∧
        ∀ report, event = .iteration report →
          report.iteration = laps.length ∧
          report.gamma = point.state.step.gamma ∧
          job.reading report.gamma point.state.current.x =
            .ok (report.psi, report.residual, report.normR) := by
  refine ⟨fun laps events point reached => reached.coherent, ?_⟩
  intro σ observer listener event member
  obtain ⟨laps, events, point, reached, announced⟩ :=
    job.events_announced observer listener member
  refine ⟨laps, events, point, reached, announced, ?_⟩
  intro report same
  subst same
  cases announced
  exact ⟨rfl, rfl, reached.reading⟩

end Job

end ProximalNewton
