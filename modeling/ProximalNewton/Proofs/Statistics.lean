import Mathlib.Data.List.Induction
import Mathlib.Logic.Function.Iterate
import ProximalNewton.Proofs.Searches
import ProximalNewton.Proofs.Success

/-!
# Statistics agree with the events

A state counts what has been done as it is done, in several places: the step size is
halved and counted where it is tightened, evaluations are counted where they are made,
stalls and the last step where a search ends. The events tell the same. `Counters.after`
says what one event adds, and `replay` adds up a stream of them.

* `Job.Reaches.replays`: wherever a run gets, replaying its events gives the counters
  there. A tightening is reported before its evaluation is made.
* `replay_tally`: what a replay gives, in numbers of events.
* `Request.solve_statistics`: the summary of a solve agrees with its events.
-/

namespace ProximalNewton

variable {F ε σ : Type} {n m : Nat}

/-! ## Counting events -/

/-- The kinds of events. -/
inductive Kind where
  | iteration
  | tightened
  | rejected
  | accepted
  | stalled
  | finished
  deriving DecidableEq

def Event.kind : Event F → Kind
  | .iteration _ => .iteration
  | .tightened _ => .tightened
  | .rejected _ => .rejected
  | .accepted _ => .accepted
  | .stalled _ => .stalled
  | .finished _ => .finished

/-- How many events are of a kind. -/
def count (kind : Kind) (events : List (Event F)) : Nat :=
  events.countP fun event => event.kind = kind

/-- The event reports a tightening in the iteration. -/
def Event.tightens (iteration : Nat) : Event F → Bool
  | .tightened report => report.iteration = iteration
  | _ => false

/-- How many tightenings are reported for an iteration. -/
def tighteningsIn (iteration : Nat) (events : List (Event F)) : Nat :=
  events.countP (Event.tightens iteration)

/-- The report that an event begins an iteration with. -/
def Event.opening? : Event F → Option (IterationReport F)
  | .iteration report => some report
  | _ => none

/-- The report of the iteration that was begun last. -/
def latestOpening? (events : List (Event F)) : Option (IterationReport F) :=
  (events.filterMap Event.opening?).getLast?

/-- The step that the last search ended with, one if there was none. -/
def latestTau [Scalar F] (events : List (Event F)) : F :=
  ((events.filterMap Event.closing?).getLast?.map (·.tau)).getD 1

section Streams

variable {events : List (Event F)} {event : Event F}

theorem count_append_singleton (kind : Kind) :
    count kind (events ++ [event]) = count kind events + if event.kind = kind then 1 else 0 := by
  simp [count, List.countP_append, List.countP_singleton]

theorem tighteningsIn_append_singleton (k : Nat) :
    tighteningsIn k (events ++ [event]) =
      tighteningsIn k events + if event.tightens k then 1 else 0 := by
  simp [tighteningsIn, List.countP_append, List.countP_singleton]

theorem tighteningsIn_of_not {k : Nat} (untightened : ¬ TightenedIn events k) :
    tighteningsIn k events = 0 := by
  refine List.countP_eq_zero.mpr ?_
  intro event member
  cases event with
  | tightened report =>
    intro tightens
    exact untightened ⟨report, member, of_decide_eq_true tightens⟩
  | _ => exact Bool.false_ne_true

variable [Scalar F]

theorem latestTau_append_singleton :
    latestTau (events ++ [event]) = (event.closing?.map (·.tau)).getD (latestTau events) := by
  unfold latestTau
  cases closing : event.closing? with
  | none => simp [closing]
  | some report => simp [closing]

end Streams

/-! ## Replaying events -/

/-- What a solve counts, with the step size that it is at. -/
structure Counters (F : Type) where
  /-- Iterations that were begun. -/
  iterations : Nat
  /-- Searches that have ended. -/
  searches : Nat
  stalls : Nat
  tightenings : Nat
  lastTau : F
  step : StepSize F
  fEvals : Nat
  gradEvals : Nat

variable [Scalar F]

/-- The counters after an event. -/
def Counters.after (counters : Counters F) : Event F → Counters F
  | .iteration _ =>
    { counters with
      iterations := counters.iterations + 1
      fEvals := counters.fEvals + 1
      gradEvals := counters.gradEvals + 1 }
  | .tightened _ =>
    { counters with
      tightenings := counters.tightenings + 1
      step := counters.step.halved
      fEvals := counters.fEvals + 1 }
  | .rejected _ =>
    { counters with
      fEvals := counters.fEvals + 1
      gradEvals := counters.gradEvals + 1 }
  | .accepted report =>
    { counters with
      searches := counters.searches + 1
      lastTau := report.tau
      fEvals := counters.fEvals + 1
      gradEvals := counters.gradEvals + 1 }
  | .stalled report =>
    { counters with
      searches := counters.searches + 1
      stalls := counters.stalls + 1
      lastTau := report.tau
      fEvals := counters.fEvals + 1
      gradEvals := counters.gradEvals + 1 }
  | .finished _ => counters

/-- The counters before the first event: the merit and its gradient at the initial guess
have been evaluated, and another gradient for the step size. -/
def Counters.start (step : StepSize F) : Counters F where
  iterations := 0
  searches := 0
  stalls := 0
  tightenings := 0
  lastTau := 1
  step := step
  fEvals := 1
  gradEvals := 2

/-- The counters after a stream of events, from an initial step size. -/
def replay (step : StepSize F) (events : List (Event F)) : Counters F :=
  events.foldl Counters.after (.start step)

theorem replay_append_singleton (step : StepSize F) (events : List (Event F)) (event : Event F) :
    replay step (events ++ [event]) = (replay step events).after event := by
  simp [replay, List.foldl_append]

/-- The counters are numbers of events. -/
structure Counters.Tally (counters : Counters F) (step : StepSize F) (events : List (Event F)) :
    Prop where
  iterations : counters.iterations = count .iteration events
  searches : counters.searches = count .accepted events + count .stalled events
  stalls : counters.stalls = count .stalled events
  tightenings : counters.tightenings = count .tightened events
  lastTau : counters.lastTau = latestTau events
  step : counters.step = StepSize.halved^[count .tightened events] step
  fEvals : counters.fEvals = 1 + count .iteration events + count .tightened events +
    count .rejected events + count .accepted events + count .stalled events
  gradEvals : counters.gradEvals = 2 + count .iteration events +
    count .rejected events + count .accepted events + count .stalled events

/-- One more event counts once, under its kind. -/
theorem Counters.Tally.after {counters : Counters F} {step : StepSize F} {events : List (Event F)}
    (tally : counters.Tally step events) (event : Event F) :
    (counters.after event).Tally step (events ++ [event]) := by
  obtain ⟨iterations, searches, stalls, tightenings, lastTau, step_eq, fEvals, gradEvals⟩ := tally
  cases event
  all_goals
    constructor
    case lastTau => simp [Counters.after, latestTau_append_singleton, Event.closing?, lastTau]
    case step =>
      simp [Counters.after, count_append_singleton, Event.kind, step_eq,
        Function.iterate_succ_apply']
    all_goals
      simp only [Counters.after, count_append_singleton, Event.kind, reduceCtorEq, if_true,
        if_false]
      omega

/-- A replay counts the events. -/
theorem replay_tally (step : StepSize F) (events : List (Event F)) :
    (replay step events).Tally step events := by
  induction events using List.reverseRecOn with
  | nil => exact ⟨rfl, rfl, rfl, rfl, rfl, rfl, rfl, rfl⟩
  | append_singleton events event ih =>
    rw [replay_append_singleton]
    exact ih.after event

/-! ## Evaluations are counted -/

section Counted

variable {merit : Merit F ε n m} {x : Vector F n} {ledger ledger' : Ledger F m}

theorem Merit.counts_of_evaluate {evaluation : Evaluation F n m}
    (evaluated : merit.evaluate x ledger = .ok (evaluation, ledger')) :
    ledger'.fEvals = ledger.fEvals + 1 ∧ ledger'.gradEvals = ledger.gradEvals + 1 := by
  obtain ⟨g, grad, psi, -, -, -, answer⟩ := evaluate_eq_ok.mp evaluated
  cases answer
  exact ⟨rfl, rfl⟩

theorem Merit.counts_of_value {value : Value F m}
    (evaluated : merit.value x ledger = .ok (value, ledger')) :
    ledger'.fEvals = ledger.fEvals + 1 ∧ ledger'.gradEvals = ledger.gradEvals := by
  obtain ⟨g, psi, -, -, answer⟩ := value_eq_ok.mp evaluated
  cases answer
  exact ⟨rfl, rfl⟩

theorem Search.counts_of_trial {search : Search F ε n m} {tau : F} {trial : Iterate F n}
    (tried : search.trial tau ledger = .ok (trial, ledger')) :
    ledger'.fEvals = ledger.fEvals + 1 ∧ ledger'.gradEvals = ledger.gradEvals + 1 := by
  obtain ⟨evaluation, after, evaluated, answer⟩ := trial_eq_ok.mp tried
  cases answer
  exact Merit.counts_of_evaluate evaluated

end Counted

/-- The counters in a state. -/
def State.counters {depth : Nat} (state : State F n m depth) (iterations searches : Nat) :
    Counters F where
  iterations := iterations
  searches := searches
  stalls := state.stalls
  tightenings := state.tightenings
  lastTau := state.lastTau
  step := state.step
  fEvals := state.ledger.fEvals
  gradEvals := state.ledger.gradEvals

/-- The counters that a summary gives. The iteration that met the tolerance was begun after
those that were completed. -/
def Summary.counters (summary : Summary F) : Counters F where
  iterations := summary.iterations + 1
  searches := summary.iterations
  stalls := summary.stalls
  tightenings := summary.tightenings
  lastTau := summary.lastTau
  step := summary.step
  fEvals := summary.fEvals
  gradEvals := summary.gradEvals

namespace Job

variable {job : Job F ε n m} {laps : List (Lap F n m job.depth)} {events : List (Event F)}
  {point : Point F n m job.depth}

/-- The counters at a point. The evaluation that follows a tightening is counted with it. -/
def counters (job : Job F ε n m) (laps : List (Lap F n m job.depth)) :
    Point F n m job.depth → Counters F
  | .ready state => state.counters laps.length laps.length
  | .tightened attempt _ =>
    let counters := attempt.state.counters (laps.length + 1) laps.length
    { counters with fEvals := counters.fEvals + 1 }
  | .trying attempt _ _ ledger =>
    State.counters { attempt.state with ledger } (laps.length + 1) laps.length
  | .searched attempt result =>
    (job.advance attempt.state result).counters (laps.length + 1) (laps.length + 1)
  | point => point.state.counters (laps.length + 1) laps.length

/-- What is evaluated for the initial state is counted beforehand. -/
theorem counters_start {state : State F n m job.depth} (started : job.start = .ok state) :
    state.counters 0 0 = .start state.step := by
  obtain ⟨initial, first, lipschitz, second, evaluated, estimated, -, rfl⟩ := start_eq_ok started
  obtain ⟨shifted, third, slope, answer⟩ := initialLipschitz_eq_ok.mp estimated
  cases answer
  obtain ⟨g, grad, -, -, answer⟩ := Merit.gradient_eq_ok.mp slope
  cases answer
  obtain ⟨fEvals, gradEvals⟩ := Merit.counts_of_evaluate evaluated
  simp [State.counters, Counters.start, fEvals, gradEvals, Ledger.blank]

/-- Wherever a run gets, replaying its events gives the counters there. -/
theorem Reaches.replays {first : State F n m job.depth} (started : job.start = .ok first)
    (reached : job.Reaches laps events point) :
    replay first.step events = job.counters laps point := by
  induction reached with
  | start again =>
    cases started.symm.trans again
    exact (counters_start started).symm
  | measure _ evaluated ih =>
    obtain ⟨fEvals, gradEvals⟩ := Merit.counts_of_evaluate evaluated
    rw [replay_append_singleton, ih]
    simp [counters, State.counters, Counters.after, Point.state, fEvals, gradEvals]
  | converge _ _ ih =>
    rw [replay_append_singleton, ih]
    rfl
  | enter _ _ ih => exact ih
  | tighten _ _ ih =>
    rw [replay_append_singleton, ih]
    rfl
  | revalue _ evaluated ih =>
    obtain ⟨fEvals, gradEvals⟩ := Merit.counts_of_value evaluated
    rw [ih]
    simp [counters, State.counters, Point.state, fEvals, gradEvals]
  | search _ _ ih => exact ih
  | begin _ ih => exact ih
  | reject _ tried _ _ ih =>
    obtain ⟨fEvals, gradEvals⟩ := Search.counts_of_trial tried
    rw [replay_append_singleton, ih]
    simp [counters, State.counters, Counters.after, fEvals, gradEvals]
  | accept _ tried _ ih =>
    obtain ⟨fEvals, gradEvals⟩ := Search.counts_of_trial tried
    rw [replay_append_singleton, ih]
    simp [counters, State.counters, Counters.after, Job.advance, Search.report, fEvals, gradEvals]
  | stall _ tried _ _ ih =>
    obtain ⟨fEvals, gradEvals⟩ := Search.counts_of_trial tried
    rw [replay_append_singleton, ih]
    simp [counters, State.counters, Counters.after, Job.advance, Search.report, fEvals, gradEvals]
  | advance _ ih => exact ih

/-- A run that gets anywhere has started. -/
theorem Reaches.started (reached : job.Reaches laps events point) :
    ∃ first, job.start = .ok first := by
  induction reached with
  | start started => exact ⟨_, started⟩
  | _ => assumption

/-! ## Tightenings -/

/-- An iteration has reported as many tightenings as it has made. -/
theorem Reaches.tighteningsIn_eq (reached : job.Reaches laps events point) :
    tighteningsIn laps.length events = point.updates := by
  induction reached with
  | start => rfl
  | measure _ _ ih => exact (tighteningsIn_append_singleton _).trans ih
  | converge _ _ ih => exact (tighteningsIn_append_singleton _).trans ih
  | enter _ _ ih => exact ih
  | tighten _ _ ih =>
    rw [tighteningsIn_append_singleton, ih]
    simp [Event.tightens, Point.updates, tightenAttempt]
  | revalue _ _ ih => exact ih
  | search _ _ ih => exact ih
  | begin _ ih => exact ih
  | reject _ _ _ _ ih => exact (tighteningsIn_append_singleton _).trans ih
  | accept _ _ _ ih => exact (tighteningsIn_append_singleton _).trans ih
  | stall _ _ _ _ ih => exact (tighteningsIn_append_singleton _).trans ih
  | advance searched _ =>
    have untightened := mt (Reaches.advance searched).tightenedIn_iff.mp (not_not.mpr rfl)
    exact tighteningsIn_of_not untightened

/-- A tightening is reported with the step size after it and with its number in its
iteration. -/
theorem Reaches.tightened_eq {first : State F n m job.depth} (started : job.start = .ok first)
    (reached : job.Reaches laps events point) (before : List (Event F))
    (report : TighteningReport F) (after : List (Event F))
    (divided : events = before ++ .tightened report :: after) :
    report.step = StepSize.halved^[count .tightened before + 1] first.step ∧
      report.update = tighteningsIn report.iteration before + 1 := by
  obtain ⟨laps', point', reached', announces⟩ := reached.announcedAfter divided
  have tally := replay_tally first.step (before ++ [.tightened report])
  rw [reached'.replays started] at tally
  have step_eq := tally.step
  have number := reached'.tighteningsIn_eq
  rw [count_append_singleton] at step_eq
  rw [tighteningsIn_append_singleton] at number
  cases announces
  exact ⟨step_eq, by simpa [Event.tightens, Point.updates] using number.symm⟩

/-! ## The summary of a solve -/

/-- The step size that a solve begins with, for an estimate of the Lipschitz constant. -/
def initialStep (job : Job F ε n m) (estimate : F) : StepSize F :=
  .ofLipschitz (maxNum estimate job.params.estimate.lMin)

/-- What the summary of a solve that began with an estimate has to do with its events. -/
structure Statistics (job : Job F ε n m) (estimate : F) (events : List (Event F))
    (summary : Summary F) : Prop where
  estimated : job.InitialEstimate estimate
  tally : summary.counters.Tally (job.initialStep estimate) events
  /-- The iteration that was begun last met the tolerance. -/
  opening : ∃ report, latestOpening? events = some report ∧ summary.residual = report.residual ∧
    summary.step.lipschitz = report.lipschitz ∧ summary.step.gamma = report.gamma
  /-- Every tightening halved the step size, and is numbered in its iteration. -/
  tightened : ∀ before report after, events = before ++ .tightened report :: after →
    report.step = StepSize.halved^[count .tightened before + 1] (job.initialStep estimate) ∧
      report.update = tighteningsIn report.iteration before + 1

section Converged

variable {state : State F n m job.depth} {solution : Solution F n m}

theorem Reaches.counters_converged (reached : job.Reaches laps events (.converged state solution)) :
    job.counters laps (.converged state solution) = solution.summary.counters := by
  cases reached
  rfl

/-- The last report of an iteration is the one of the iteration that converged. -/
theorem Reaches.latestOpening (reached : job.Reaches laps events (.converged state solution)) :
    ∃ report, latestOpening? events = some report ∧ solution.summary.residual = report.residual ∧
      solution.summary.step.lipschitz = report.lipschitz ∧
      solution.summary.step.gamma = report.gamma := by
  cases reached with
  | converge measured _ =>
    cases measured with
    | measure =>
      refine ⟨job.report laps.length _ _, ?_, rfl, rfl, rfl⟩
      simp only [latestOpening?, List.filterMap_append, List.filterMap_cons, Event.opening?,
        List.filterMap_nil, List.append_nil, List.getLast?_concat]
      rfl

/-- A run that has converged has counted its events. -/
theorem Reaches.statistics (reached : job.Reaches laps events (.converged state solution)) :
    ∃ estimate, job.Statistics estimate events solution.summary := by
  obtain ⟨first, started⟩ := reached.started
  have tally := replay_tally first.step events
  rw [reached.replays started, reached.counters_converged] at tally
  have tightened := reached.tightened_eq started
  obtain ⟨initial, ledger, estimate, ledger', evaluated, estimated, -, rfl⟩ := start_eq_ok started
  exact ⟨estimate, ⟨initial, ledger, ledger', evaluated, estimated⟩, tally, reached.latestOpening,
    tightened⟩

end Converged

end Job

/-- **Statistics agree with the events.** The summary of a solve that succeeds gives the
numbers of the events that it has reported, the residual and the step size that its last
iteration began with, and the step of its last search. Each tightening halves the step size
and is numbered in its iteration. -/
theorem Request.solve_statistics {request : Request F ε} {observer : Observer F σ} {listener : σ}
    {summary : Summary F} (solved : (request.solve observer listener).result = .ok summary) :
    ∃ job estimate, request.accept = .ok job ∧
      job.Statistics estimate (request.events observer listener) summary := by
  obtain ⟨job, solution, accepted, answered, -, rfl⟩ := solve_eq_ok solved
  obtain ⟨faultless, rfl⟩ := accept_eq_ok accepted
  rw [events_eq faultless]
  rcases Job.solve_ends (request.job faultless) observer listener with
    ⟨error, -, -, failed⟩ | ⟨laps, point, reached, ends⟩
  · rw [answered] at failed
    cases failed
  · rw [answered] at ends
    cases ends
    obtain ⟨estimate, statistics⟩ := reached.statistics
    exact ⟨_, estimate, accepted, statistics⟩

/-- The parabola takes several iterations. -/
theorem solve_statistics_parabola : ∃ summary job estimate,
    ((parabolaRequest 10).solve Observer.silent ()).result = .ok summary ∧
    0 < summary.iterations ∧ (parabolaRequest 10).accept = .ok job ∧
    job.Statistics estimate ((parabolaRequest 10).events Observer.silent ()) summary := by
  have answer : (match ((parabolaRequest 10).solve Observer.silent ()).result with
      | .ok summary => decide (0 < summary.iterations)
      | .error _ => false) = true := by
    decide +kernel
  split at answer
  · rename_i summary solved
    obtain ⟨job, estimate, accepted, statistics⟩ := Request.solve_statistics solved
    exact ⟨summary, job, estimate, solved, of_decide_eq_true answer, accepted, statistics⟩
  · cases answer

end ProximalNewton
