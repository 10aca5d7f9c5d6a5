import ProximalNewton.Iteration

/-!
Runs of the proximal Newton method.

`Job.run` strings iterations together under an observer, which is asked before
each one whether to stop and told afterwards what it reported. `Request.solve`
admits a request and, if the run converges, writes its solution to the buffers.
-/

namespace ProximalNewton

variable {F ε : Type} [Scalar F] {n m : Nat}

namespace Job

/-- Iterates from a state, with `left` iterations permitted after this one. The
observer is asked before the iteration and told of its events. -/
def run {σ : Type} (job : Job F ε n m) (observer : Observer F σ) (left iteration : Nat)
    (state : State F n m job.depth) (listener : σ) :
    σ × Except (SolveError F ε) (Solution F n m) :=
  match observer.wantsStop listener iteration with
  | (true, listener) => (listener, .error (.interrupted iteration))
  | (false, listener) =>
    let block := job.iterate iteration state
    let listener := observer.observeAll listener block.events
    match block.result with
    | .error error => (listener, .error error)
    | .ok (.converged solution) => (listener, .ok solution)
    | .ok (.advanced residual next) =>
      match left with
      | 0 => (listener, .error (.iterationLimit (iteration + 1) residual))
      | left + 1 => job.run observer left (iteration + 1) next listener

/-! ## Each way a run can go on -/

section Ways

variable {σ : Type} {job : Job F ε n m} {observer : Observer F σ} {left iteration : Nat}
  {state next : State F n m job.depth} {listener after : σ} {residual : F}

theorem run_of_stop (asked : observer.wantsStop listener iteration = (true, after)) :
    job.run observer left iteration state listener = (after, .error (.interrupted iteration)) := by
  unfold run
  rw [asked]

theorem run_of_error (asked : observer.wantsStop listener iteration = (false, after))
    {error : SolveError F ε} (failed : (job.iterate iteration state).result = .error error) :
    job.run observer left iteration state listener =
      (observer.observeAll after (job.iterate iteration state).events, .error error) := by
  unfold run
  simp only [asked, failed]

theorem run_of_converged (asked : observer.wantsStop listener iteration = (false, after))
    {solution : Solution F n m}
    (converged : (job.iterate iteration state).result = .ok (.converged solution)) :
    job.run observer left iteration state listener =
      (observer.observeAll after (job.iterate iteration state).events, .ok solution) := by
  unfold run
  simp only [asked, converged]

theorem run_of_limit (asked : observer.wantsStop listener iteration = (false, after))
    (advanced : (job.iterate iteration state).result = .ok (.advanced residual next)) :
    job.run observer 0 iteration state listener =
      (observer.observeAll after (job.iterate iteration state).events,
        .error (.iterationLimit (iteration + 1) residual)) := by
  unfold run
  simp only [asked, advanced]

theorem run_of_advanced (asked : observer.wantsStop listener iteration = (false, after))
    (advanced : (job.iterate iteration state).result = .ok (.advanced residual next)) :
    job.run observer (left + 1) iteration state listener =
      job.run observer left (iteration + 1) next
        (observer.observeAll after (job.iterate iteration state).events) := by
  rw [run, asked]
  simp only [advanced]

end Ways

/-- Runs a job from its initial guess. -/
def solve {σ : Type} (job : Job F ε n m) (observer : Observer F σ) (listener : σ) :
    σ × Except (SolveError F ε) (Solution F n m) :=
  match job.start with
  | .error error => (listener, .error error)
  | .ok state => job.run observer (job.params.maxIter - 1) 0 state listener

theorem solve_of_error {σ : Type} (job : Job F ε n m) {error : SolveError F ε}
    (failed : job.start = .error error) (observer : Observer F σ) (listener : σ) :
    job.solve observer listener = (listener, .error error) := by
  unfold solve
  rw [failed]

theorem solve_of_started {σ : Type} (job : Job F ε n m) {state : State F n m job.depth}
    (started : job.start = .ok state) (observer : Observer F σ) (listener : σ) :
    job.solve observer listener = job.run observer (job.params.maxIter - 1) 0 state listener := by
  unfold solve
  rw [started]

end Job

/-- What a caller gets back. -/
structure Outcome (F ε σ : Type) where
  /-- The buffers, which differ from those handed over only on success. -/
  buffers : Buffers F
  result : Except (SolveError F ε) (Summary F)
  /-- The state of the observer. -/
  listener : σ

/-- The buffers that hold a solution. -/
def Solution.buffers (solution : Solution F n m) : Buffers F where
  x := solution.x.toArray
  z := solution.z.toArray
  y := solution.y.toArray
  errZ := solution.errZ.toArray

/-- Solves a request under an observer. -/
def Request.solve {σ : Type} (request : Request F ε) (observer : Observer F σ) (listener : σ) :
    Outcome F ε σ :=
  match request.accept with
  | .error fault => { buffers := request.buffers, result := .error fault, listener }
  | .ok job =>
    match job.solve observer listener with
    | (listener, .error error) => { buffers := request.buffers, result := .error error, listener }
    | (listener, .ok solution) =>
      { buffers := solution.buffers, result := .ok solution.summary, listener }

end ProximalNewton
