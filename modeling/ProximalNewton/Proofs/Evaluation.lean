import ProximalNewton.Iteration

/-!
# Evaluations that succeed

What the operations of a solve that call the functions of a problem give when
they succeed: which of those functions have answered, and what was made of the
answers. The ledger that an evaluation is handed affects nothing but the ledger
that it hands on.
-/

namespace ProximalNewton

/-- A composition succeeds when its first part does and the rest does with the
value of the first. -/
theorem bind_eq_ok {ε α β : Type} {first : Except ε α} {next : α → Except ε β} {answer : β} :
    first >>= next = .ok answer ↔ ∃ value, first = .ok value ∧ next value = .ok answer := by
  cases first with
  | error error => simp [bind, Except.bind]
  | ok value => simp [bind, Except.bind]

theorem mapError_eq_ok {ε ε' α : Type} {wrap : ε → ε'} {result : Except ε α} {value : α} :
    result.mapError wrap = .ok value ↔ result = .ok value := by
  cases result with
  | error error => exact ⟨nofun, nofun⟩
  | ok found =>
    constructor
    · intro same
      cases same
      rfl
    · intro same
      cases same
      rfl

variable {F ε : Type} [Scalar F] {n m : Nat}

namespace Merit

variable {merit : Merit F ε n m} {x : Vector F n} {ledger : Ledger F m}

theorem value_eq_ok {answer : Value F m × Ledger F m} :
    merit.value x ledger = .ok answer ↔
      ∃ g psi, merit.oracles.g x = .ok g ∧ merit.psi x g = .ok psi ∧
        answer = ({ z := merit.slackOf g, psi },
          { ledger with constraint := g, fEvals := ledger.fEvals + 1 }) := by
  unfold value
  simp only [bind_eq_ok]
  constructor
  · intro answered
    rcases answered with ⟨g, at_x, psi, value, ⟨⟩⟩
    exact ⟨g, psi, at_x, value, rfl⟩
  · intro made
    rcases made with ⟨g, psi, at_x, value, rfl⟩
    exact ⟨g, at_x, psi, value, rfl⟩

theorem gradient_eq_ok {answer : Gradient F n m × Ledger F m} :
    merit.gradient x ledger = .ok answer ↔
      ∃ g grad, merit.oracles.g x = .ok g ∧
        meritGradient merit.oracles x (merit.multipliersOf g) = .ok grad ∧
        answer = ({ z := merit.slackOf g, gradPsi := grad.total },
          { ledger with
            constraint := g
            multipliers := merit.multipliersOf g
            gradEvals := ledger.gradEvals + 1 }) := by
  unfold gradient
  simp only [bind_eq_ok]
  constructor
  · intro answered
    rcases answered with ⟨g, at_x, grad, value, ⟨⟩⟩
    exact ⟨g, grad, at_x, value, rfl⟩
  · intro made
    rcases made with ⟨g, grad, at_x, value, rfl⟩
    exact ⟨g, at_x, grad, value, rfl⟩

theorem evaluate_eq_ok {answer : Evaluation F n m × Ledger F m} :
    merit.evaluate x ledger = .ok answer ↔
      ∃ g grad psi, merit.oracles.g x = .ok g ∧
        meritGradient merit.oracles x (merit.multipliersOf g) = .ok grad ∧
        merit.psi x g = .ok psi ∧
        answer = ({ z := merit.slackOf g, psi, gradPsi := grad.total },
          { constraint := g
            multipliers := merit.multipliersOf g
            fEvals := ledger.fEvals + 1
            gradEvals := ledger.gradEvals + 1 }) := by
  unfold evaluate
  simp only [bind_eq_ok, gradient_eq_ok]
  constructor
  · intro answered
    rcases answered with ⟨_, ⟨g, grad, at_x, slope, rfl⟩, psi, value, ⟨⟩⟩
    exact ⟨g, grad, psi, at_x, slope, value, rfl⟩
  · intro made
    rcases made with ⟨g, grad, psi, at_x, slope, value, rfl⟩
    exact ⟨_, ⟨g, grad, at_x, slope, rfl⟩, psi, value, rfl⟩

/-- Where an evaluation succeeds, the gradient alone does. -/
theorem gradient_of_evaluate {evaluation : Evaluation F n m} {after : Ledger F m}
    (evaluated : merit.evaluate x ledger = .ok (evaluation, after)) :
    ∃ ledger', merit.gradient x ledger = .ok (evaluation.toGradient, ledger') := by
  obtain ⟨g, grad, psi, at_x, slope, -, answer⟩ := evaluate_eq_ok.mp evaluated
  cases answer
  exact ⟨_, gradient_eq_ok.mpr ⟨g, grad, at_x, slope, rfl⟩⟩

end Merit

theorem meritGradient_eq_ok {oracles : Oracles F ε n m} {x : Vector F n} {yHat : Vector F m}
    {grad : MeritGradient F n} :
    meritGradient oracles x yHat = .ok grad ↔
      ∃ gradF adjoint, oracles.gradF x = .ok gradF ∧ oracles.gradG x yHat = .ok adjoint ∧
        grad = { adjoint, total := gradF + adjoint } := by
  unfold meritGradient
  simp only [bind_eq_ok]
  constructor
  · intro answered
    rcases answered with ⟨gradF, slope, adjoint, transposed, ⟨⟩⟩
    exact ⟨gradF, adjoint, slope, transposed, rfl⟩
  · intro made
    rcases made with ⟨gradF, adjoint, slope, transposed, rfl⟩
    exact ⟨gradF, slope, adjoint, transposed, rfl⟩

/-- A trial succeeds when the merit function can be evaluated at its point. -/
theorem Search.trial_eq_ok {search : Search F ε n m} {tau : F} {ledger : Ledger F m}
    {answer : Iterate F n × Ledger F m} :
    search.trial tau ledger = .ok answer ↔
      ∃ evaluation ledger', search.merit.evaluate (search.point tau) ledger =
          .ok (evaluation, ledger') ∧
        answer = (.ofPoint search.C search.step.gamma (search.point tau) evaluation.gradPsi
          evaluation.psi, ledger') := by
  unfold trial
  simp only [bind_eq_ok]
  constructor
  · intro answered
    rcases answered with ⟨⟨evaluation, ledger'⟩, evaluated, ⟨⟩⟩
    exact ⟨evaluation, ledger', evaluated, rfl⟩
  · intro made
    rcases made with ⟨evaluation, ledger', evaluated, rfl⟩
    exact ⟨(evaluation, ledger'), evaluated, rfl⟩

namespace Job

variable {job : Job F ε n m}

theorem initialLipschitz_eq_ok {x gradPsi : Vector F n} {ledger : Ledger F m}
    {answer : F × Ledger F m} :
    job.initialLipschitz x gradPsi ledger = .ok answer ↔
      ∃ shifted ledger', job.merit.gradient (x + perturbation job.params.estimate x) ledger =
          .ok (shifted, ledger') ∧
        answer = (differenceQuotient (perturbation job.params.estimate x) shifted.gradPsi gradPsi,
          ledger') := by
  unfold initialLipschitz
  simp only [bind_eq_ok]
  constructor
  · intro answered
    rcases answered with ⟨⟨shifted, ledger'⟩, evaluated, ⟨⟩⟩
    exact ⟨shifted, ledger', evaluated, rfl⟩
  · intro made
    rcases made with ⟨shifted, ledger', evaluated, rfl⟩
    exact ⟨(shifted, ledger'), evaluated, rfl⟩

/-- The initial state comes from an evaluation at the initial guess and a finite
estimate of the Lipschitz constant there. -/
theorem start_eq_ok {state : State F n m job.depth} (started : job.start = .ok state) :
    ∃ initial ledger lipschitz ledger',
      job.merit.evaluate job.x Ledger.blank = .ok (initial, ledger) ∧
      job.initialLipschitz job.x initial.gradPsi ledger = .ok (lipschitz, ledger') ∧
      Scalar.isFinite lipschitz = true ∧
      state =
        let step := StepSize.ofLipschitz (maxNum lipschitz job.params.estimate.lMin)
        { current := .ofPoint job.C step.gamma job.x initial.gradPsi initial.psi
          step
          ledger := ledger'
          memory := .empty job.params.memory.curvatureTol job.depth_pos
          tightenings := 0
          stalls := 0
          lastTau := 1 } := by
  unfold start at started
  obtain ⟨⟨initial, ledger⟩, evaluated, started⟩ := bind_eq_ok.mp started
  obtain ⟨⟨lipschitz, ledger'⟩, estimated, started⟩ := bind_eq_ok.mp started
  rw [mapError_eq_ok] at evaluated estimated
  dsimp only at started
  split at started
  · cases started
    exact ⟨initial, ledger, lipschitz, ledger', evaluated, estimated, ‹_›, rfl⟩
  · cases started

/-- A solve starts where the evaluation at the initial guess succeeds and the estimate there
is finite. -/
theorem start_of_estimated {initial : Evaluation F n m} {ledger ledger' : Ledger F m}
    {lipschitz : F}
    (evaluated : job.merit.evaluate job.x Ledger.blank = .ok (initial, ledger))
    (estimated : job.initialLipschitz job.x initial.gradPsi ledger = .ok (lipschitz, ledger'))
    (finite : Scalar.isFinite lipschitz = true) :
    job.start = .ok (
      let step := StepSize.ofLipschitz (maxNum lipschitz job.params.estimate.lMin)
      { current := .ofPoint job.C step.gamma job.x initial.gradPsi initial.psi
        step
        ledger := ledger'
        memory := .empty job.params.memory.curvatureTol job.depth_pos
        tightenings := 0
        stalls := 0
        lastTau := 1 }) := by
  unfold start
  rw [evaluated]
  dsimp only [Except.mapError, bind, Except.bind]
  rw [estimated]
  dsimp only
  rw [if_pos finite]
  rfl

/-- The estimate of the Lipschitz constant at the initial guess. -/
def InitialEstimate (job : Job F ε n m) (lipschitz : F) : Prop :=
  ∃ initial ledger ledger', job.merit.evaluate job.x Ledger.blank = .ok (initial, ledger) ∧
    job.initialLipschitz job.x initial.gradPsi ledger = .ok (lipschitz, ledger')

/-- A solve does not start when a function of the problem fails or when the
estimate at the initial guess is not finite. -/
theorem start_eq_error {error : SolveError F ε} (failed : job.start = .error error) :
    (∃ cause, error = .oracle cause) ∨ ∃ lipschitz, job.InitialEstimate lipschitz ∧
      Scalar.isFinite lipschitz = false ∧ error = .stepSize 0 0 lipschitz := by
  unfold start at failed
  cases evaluated : job.merit.evaluate job.x Ledger.blank with
  | error cause =>
    rw [evaluated] at failed
    cases failed
    exact Or.inl ⟨cause, rfl⟩
  | ok first =>
    cases estimated : job.initialLipschitz job.x first.1.gradPsi first.2 with
    | error cause =>
      rw [evaluated] at failed
      dsimp only [Except.mapError, bind, Except.bind] at failed
      rw [estimated] at failed
      cases failed
      exact Or.inl ⟨cause, rfl⟩
    | ok estimate =>
      rw [evaluated] at failed
      dsimp only [Except.mapError, bind, Except.bind] at failed
      rw [estimated] at failed
      dsimp only at failed
      split at failed
      · cases failed
      · cases failed
        have unbounded := (Bool.not_eq_true _).mp ‹_›
        exact Or.inr ⟨estimate.1, ⟨first.1, first.2, estimate.2, evaluated, estimated⟩, unbounded,
          rfl⟩

end Job

end ProximalNewton
