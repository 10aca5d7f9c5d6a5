import ProximalNewton.Arena
import ProximalNewton.Event
import ProximalNewton.Traced

/-!
Solves on arrays.

An `ArrayRequest` is a request whose functions are routines and whose solve works in an arena.
It is admitted by the same conditions as any request. From then on nothing but the accesses
themselves looks at the size of an array, and the first access that cannot be made ends the solve
in a panic.

`ArrayRequest.start` and `ArrayRequest.iterate` do step by step what `Job.start` and
`Job.iterate` do; after each step they mark the arena that it leaves. `ArrayRequest.solve` gives
all these arenas beside its answer. `Request.onArrays` is a request with functions that give
vectors, as an array request.
-/

namespace ProximalNewton

variable {F ε τ α : Type}

/-! ## Requests -/

/-- What a caller asks to be solved when the functions of the problem are routines. -/
structure ArrayRequest (F ε τ : Type) where
  numVars : Nat
  numConstraints : Nat
  routines : Routines F ε τ
  /-- The state of the routines before the solve. -/
  world : τ
  C : Bounds F
  D : Bounds F
  params : Params F
  buffers : Buffers F
  /-- Penalty weights. -/
  sigma : Array F
  /-- Tolerance on the residual. -/
  eps : F

namespace ArrayRequest

variable [Scalar F] (request : ArrayRequest F ε τ)

/-- The request with its routines left out and with the boxes that its bounds make. This is what
its admission looks at. -/
def form : Request F ε where
  problem :=
    { numVars := request.numVars
      numConstraints := request.numConstraints
      oracles :=
        { f := fun _ => .ok 0
          gradF := .ok
          g := fun _ => .ok (Vector.replicate _ 0)
          gradG := fun x _ => .ok x }
      dimC := request.C.dim
      dimD := request.D.dim
      C := request.C.box
      D := request.D.box }
  params := request.params
  buffers := request.buffers
  sigma := request.sigma
  eps := request.eps

/-- The merit function of the request, for the multipliers that are handed over. -/
def merit : ArrayMerit F ε τ where
  routines := request.routines
  D := request.D
  sigma := request.sigma
  y := request.buffers.y

end ArrayRequest

/-! ## Programs on an arena -/

/-- What is noted of a solve on arrays: each arena that a step leaves, and the events. -/
inductive Mark (F τ : Type) where
  | left (arena : Arena F τ)
  | told (event : Event F)

def Mark.arena? : Mark F τ → Option (Arena F τ)
  | .left arena => some arena
  | .told _ => none

def Mark.event? : Mark F τ → Option (Event F)
  | .left _ => none
  | .told event => some event

/-- A program that marks the arenas it leaves, and may fail or panic. -/
abbrev ArrayProgram (F ε τ α : Type) : Type :=
  Traced (Mark F τ) (Halt (SolveError F ε)) α

namespace ArrayProgram

/-- One step, with the arena that it leaves. -/
def step (made : Checked (SolveError F ε) (Arena F τ)) : ArrayProgram F ε τ (Arena F τ) := do
  let arena ← Traced.ofExcept made
  Traced.emit (.left arena)
  return arena

/-- One step that finds a value, with the arena that it leaves. -/
def find (made : Checked (SolveError F ε) (α × Arena F τ)) :
    ArrayProgram F ε τ (α × Arena F τ) := do
  let (value, arena) ← Traced.ofExcept made
  Traced.emit (.left arena)
  return (value, arena)

def tell (event : Event F) : ArrayProgram F ε τ Unit :=
  Traced.emit (.told event)

def fail (error : SolveError F ε) : ArrayProgram F ε τ α :=
  Traced.fail (.failed error)

/-- The arenas that were left, in their order. -/
def arenas (program : ArrayProgram F ε τ α) : List (Arena F τ) :=
  program.events.filterMap Mark.arena?

/-- The events that were reported, in their order. -/
def told (program : ArrayProgram F ε τ α) : List (Event F) :=
  program.events.filterMap Mark.event?

end ArrayProgram

/-- The arena between two iterations, and the numbers beside it. -/
structure ArrayState (F τ : Type) where
  arena : Arena F τ
  step : StepSize F
  /-- How often the step size has been tightened. -/
  tightenings : Nat
  /-- How many searches have stalled. -/
  stalls : Nat
  /-- The step of the last search, one before the first search. -/
  lastTau : F

/-- How a search on arrays ended, with the last point tried in the candidate. -/
structure ArraySearchResult (F τ : Type) where
  tau : F
  accepted : Bool
  arena : Arena F τ

/-- How an iteration on arrays ends. -/
inductive ArrayProgress (F τ : Type) where
  | converged (summary : Summary F) (arena : Arena F τ)
  | advanced (residual : F) (next : ArrayState F τ)

namespace ArrayRequest

open ArrayProgram

variable [Scalar F] (request : ArrayRequest F ε τ)

/-! ## Steps that call the routines -/

/-- Allocates the arena. -/
def allocate : Checked (SolveError F ε) (Arena F τ) := do
  let curvature ← CurvatureSlots.allocate request.numVars request.params.memory
  return {
    current := .allocate request.numVars request.numConstraints
    candidate := .allocate request.numVars request.numConstraints
    zHat := Array.replicate request.numConstraints 0
    gradHat := Array.replicate request.numVars 0
    fixedPoint := Array.replicate request.numVars 0
    direction := Array.replicate request.numVars 0
    s := Array.replicate request.numVars 0
    y := Array.replicate request.numVars 0
    curvature
    merit := .allocate request.world request.numVars request.numConstraints
    buffers := request.buffers }

/-- Copies the initial guess to the current point. -/
def takeGuess (arena : Arena F τ) : Checked (SolveError F ε) (Arena F τ) := do
  let x ← Checked.copy arena.current.x arena.buffers.x
  return { arena with current := { arena.current with x } }

/-- Merit and merit gradient at the current point. -/
def evaluateCurrent (arena : Arena F τ) : Checked (SolveError F ε) (Arena F τ) := do
  let (current, merit) ← arena.current.evaluate request.merit arena.merit
  return { arena with current, merit }

/-- Merit and merit gradient at the candidate. -/
def evaluateCandidate (arena : Arena F τ) : Checked (SolveError F ε) (Arena F τ) := do
  let (candidate, merit) ← arena.candidate.evaluate request.merit arena.merit
  return { arena with candidate, merit }

/-- Merit and merit gradient at the projected point. -/
def evaluateHat (arena : Arena F τ) : Checked (SolveError F ε) (F × Arena F τ) := do
  let (psiHat, zHat, gradHat, merit) ←
    request.merit.evaluate arena.current.xHat arena.zHat arena.gradHat arena.merit
  return (psiHat, { arena with zHat, gradHat, merit })

/-- Merit at the projected point. -/
def valueHat (arena : Arena F τ) : Checked (SolveError F ε) (F × Arena F τ) := do
  let (psiHat, zHat, merit) ← request.merit.value arena.current.xHat arena.zHat arena.merit
  return (psiHat, { arena with zHat, merit })

/-- Estimate of the Lipschitz constant at the current point, in arrays of its own. -/
def initialLipschitz (arena : Arena F τ) : Checked (SolveError F ε) (F × Arena F τ) := do
  let x := arena.current.x
  let h ← Checked.perturbation request.params.estimate x (Array.replicate x.size 0)
  let shifted ← Checked.plus (Array.replicate x.size 0) x h
  let (_, gradPsi, merit) ← request.merit.gradient shifted
    (Array.replicate request.numConstraints 0) (Array.replicate x.size 0) arena.merit
  let change ← Checked.difference shifted gradPsi arena.current.gradPsi
  return (Checked.norm change / Checked.norm h, { arena with merit })

/-! ## One iteration -/

/-- What comes before the first step: merit, merit gradient and an estimate of the Lipschitz
constant at the initial guess, in an arena that is allocated for them. -/
def estimate : ArrayProgram F ε τ (F × Arena F τ) := do
  let arena ← step request.allocate
  let arena ← step (takeGuess arena)
  let arena ← step (request.evaluateCurrent arena)
  find (request.initialLipschitz arena)

/-- The state before the first iteration. -/
def start : ArrayProgram F ε τ (ArrayState F τ) := do
  let (lipschitz, arena) ← request.estimate
  if Scalar.isFinite lipschitz then
    let size := StepSize.ofLipschitz (maxNum lipschitz request.params.estimate.lMin)
    let arena ← step (arena.stepCurrent request.C size.gamma)
    return { arena, step := size, tightenings := 0, stalls := 0, lastTau := 1 }
  else
    fail (.stepSize 0 0 lipschitz)

/-- Tightens the step size until the merit `psiHat` at the projected point satisfies the descent
condition. -/
def adapt (request : ArrayRequest F ε τ) (iteration updates left : Nat) (state : ArrayState F τ)
    (psiHat : F) : ArrayProgram F ε τ (ArrayState F τ) :=
  if state.arena.current.descentLimit state.step < psiHat then
    match left with
    | 0 => fail (.stepSize iteration updates state.step.lipschitz)
    | left + 1 => do
      let arena ← step (.ok state.arena.forget)
      let size := state.step.halved
      tell (.tightened { iteration, update := updates + 1, step := size })
      let arena ← step (arena.stepCurrent request.C size.gamma)
      let (psiHat, arena) ← find (request.valueHat arena)
      request.adapt iteration (updates + 1) left
        { state with arena, step := size, tightenings := state.tightenings + 1 } psiHat
  else
    return state

/-- What is reported of the candidate of step `τ`. -/
def trialReport (iteration : Nat) (size : StepSize F) (arena : Arena F τ) (tau : F) :
    TrialReport F where
  iteration := iteration
  tau := tau
  phi := arena.current.envelope size
  phiTrial := arena.candidate.envelope size
  threshold := arena.current.envelope size - size.requiredDecrease arena.current.normSqR

/-- Tries the point of step `τ` in the arrays of the candidate. -/
def tryPoint (iteration : Nat) (size : StepSize F) (tau : F) (arena : Arena F τ) :
    ArrayProgram F ε τ (TrialReport F × Arena F τ) := do
  let arena ← step (arena.place tau)
  let arena ← step (request.evaluateCandidate arena)
  let arena ← step (arena.stepCandidate request.C size.gamma)
  return (trialReport iteration size arena tau, arena)

/-- Tries `τ` and, at most `halvings` times, half of the step tried before. -/
def backtrack (request : ArrayRequest F ε τ) (iteration : Nat) (size : StepSize F)
    (halvings : Nat) (tau : F) (arena : Arena F τ) :
    ArrayProgram F ε τ (ArraySearchResult F τ) := do
  let (report, arena) ← request.tryPoint iteration size tau arena
  if report.phiTrial ≤ report.threshold then
    tell (.accepted report)
    return { tau, accepted := true, arena }
  else
    match halvings with
    | 0 =>
      tell (.stalled report)
      return { tau, accepted := false, arena }
    | left + 1 =>
      if tau * 0.5 < request.params.search.tauMin then
        tell (.stalled report)
        return { tau, accepted := false, arena }
      else
        tell (.rejected report)
        request.backtrack iteration size left (tau * 0.5) arena

/-- The summary of a solve that converges in a state. -/
def summary (iteration : Nat) (state : ArrayState F τ) (residual : F) : Summary F where
  iterations := iteration
  residual := residual
  step := state.step
  tightenings := state.tightenings
  stalls := state.stalls
  lastTau := state.lastTau
  fEvals := state.arena.merit.fEvals
  gradEvals := state.arena.merit.gradEvals

/-- What an iteration reports first. -/
def report (iteration : Nat) (state : ArrayState F τ) (residual : F) : IterationReport F where
  iteration := iteration
  psi := state.arena.current.psi
  residual := residual
  lipschitz := state.step.lipschitz
  gamma := state.step.gamma
  normR := Scalar.sqrt state.arena.current.normSqR
  pairs := state.arena.curvature.size

/-- The search of an iteration, and what is learned from it. -/
def advance (iteration : Nat) (state : ArrayState F τ) :
    ArrayProgram F ε τ (ArrayState F τ) := do
  let arena ← step state.arena.aim
  let result ← request.backtrack iteration state.step
    (Scalar.halvings request.params.search.tauMin) 1 arena
  let arena ← step result.arena.learn
  let arena ← step (.ok arena.swap)
  return { state with
    arena
    stalls := if result.accepted then state.stalls else state.stalls + 1
    lastTau := result.tau }

/-- One iteration. -/
def iterate (iteration : Nat) (state : ArrayState F τ) :
    ArrayProgram F ε τ (ArrayProgress F τ) := do
  let (psiHat, arena) ← find (request.evaluateHat state.arena)
  let (residual, arena) ← find (arena.measure state.step.gamma)
  let state := { state with arena }
  tell (.iteration (report iteration state residual))
  if residual ≤ request.eps then
    let arena ← step state.arena.deliver
    let summary := summary iteration state residual
    tell (.finished summary)
    return .converged summary arena
  else
    let state ← request.adapt iteration 0 request.params.estimate.maxUpdates state psiHat
    let next ← request.advance iteration state
    return .advanced residual next

end ArrayRequest

/-! ## Runs -/

/-- What a caller gets back, with the arenas that the solve has left on its way. -/
structure ArrayOutcome (F ε τ σ : Type) where
  buffers : Buffers F
  result : Except (Halt (SolveError F ε)) (Summary F)
  listener : σ
  arenas : List (Arena F τ)

/-- The outcome with arenas that were left before. -/
def ArrayOutcome.after {σ : Type} (outcome : ArrayOutcome F ε τ σ)
    (earlier : List (Arena F τ)) : ArrayOutcome F ε τ σ :=
  { outcome with arenas := earlier ++ outcome.arenas }

namespace ArrayRequest

variable [Scalar F] {σ : Type} (request : ArrayRequest F ε τ)

/-- An end without success, which leaves the buffers as they were handed over. -/
def halted (halt : Halt (SolveError F ε)) (listener : σ) (arenas : List (Arena F τ)) :
    ArrayOutcome F ε τ σ where
  buffers := request.buffers
  result := .error halt
  listener := listener
  arenas := arenas

/-- Iterates from a state, with `left` iterations permitted after this one. -/
def run (request : ArrayRequest F ε τ) (observer : Observer F σ) (left iteration : Nat)
    (state : ArrayState F τ) (listener : σ) : ArrayOutcome F ε τ σ :=
  match observer.wantsStop listener iteration with
  | (true, listener) => request.halted (.failed (.interrupted iteration)) listener []
  | (false, listener) =>
    let block := request.iterate iteration state
    let listener := observer.observeAll listener block.told
    match block.result with
    | .error halt => request.halted halt listener block.arenas
    | .ok (.converged summary arena) =>
      { buffers := arena.buffers, result := .ok summary, listener, arenas := block.arenas }
    | .ok (.advanced residual next) =>
      match left with
      | 0 =>
        request.halted (.failed (.iterationLimit (iteration + 1) residual)) listener block.arenas
      | left + 1 => (request.run observer left (iteration + 1) next listener).after block.arenas

/-- Solves a request in an arena, under an observer. -/
def solve (observer : Observer F σ) (listener : σ) : ArrayOutcome F ε τ σ :=
  match request.form.fault? with
  | some fault => request.halted (.failed fault) listener []
  | none =>
    let started := request.start
    match started.result with
    | .error halt => request.halted halt listener started.arenas
    | .ok state =>
      (request.run observer (request.params.maxIter - 1) 0 state listener).after started.arenas

end ArrayRequest

/-! ## Functions that give vectors -/

/-- An array as a vector, if it has the size for it. -/
def sized? (n : Nat) (array : Array F) : Option (Vector F n) :=
  if same : array.size = n then some ⟨array, same⟩ else none

/-- What is left behind by a routine that writes the vector that a function gives. -/
def Written.ofAnswer {n : Nat} (answer : Except ε (Vector F n)) (out : Array F) :
    Written F ε Unit :=
  match answer with
  | .ok value => { world := (), out := value.toArray, outcome := .ok () }
  | .error cause => { world := (), out, outcome := .error cause }

/-- Routines that write what functions give. Arrays of other sizes than the functions have to do
with are left alone. -/
def Oracles.routines [Zero F] {n m : Nat} (oracles : Oracles F ε n m) : Routines F ε Unit where
  f _ x :=
    match sized? n x with
    | some x => ((), oracles.f x)
    | none => ((), .ok 0)
  gradF _ x out :=
    match sized? n x, sized? n out with
    | some x, some _ => .ofAnswer (oracles.gradF x) out
    | _, _ => ⟨(), out, .ok ()⟩
  g _ x out :=
    match sized? n x, sized? m out with
    | some x, some _ => .ofAnswer (oracles.g x) out
    | _, _ => ⟨(), out, .ok ()⟩
  gradG _ x y out :=
    match sized? n x, sized? m y, sized? n out with
    | some x, some y, some _ => .ofAnswer (oracles.gradG x y) out
    | _, _, _ => ⟨(), out, .ok ()⟩

/-- A request for functions that give vectors, as one for routines that write these. The bounds of
its sets are handed over in arrays. -/
def Request.onArrays [Zero F] (request : Request F ε) (C D : Bounds F) :
    ArrayRequest F ε Unit where
  numVars := request.problem.numVars
  numConstraints := request.problem.numConstraints
  routines := request.problem.oracles.routines
  world := ()
  C := C
  D := D
  params := request.params
  buffers := request.buffers
  sigma := request.sigma
  eps := request.eps

end ProximalNewton
