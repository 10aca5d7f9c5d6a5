import ProximalNewton.StepSize

/-!
What a solve reports while it runs, and the observers that listen.

An `Event` is one point of the run: the start of an iteration, a tightening of
the step size, a trial of the search, the end. An `Observer` folds the events
into a state of its own and is asked once before each iteration whether to stop;
nothing else flows back from it into the run.
-/

namespace ProximalNewton

/-- The start of an iteration, after its residual was evaluated. -/
structure IterationReport (F : Type) where
  iteration : Nat
  /-- Merit of the current point. -/
  psi : F
  residual : F
  lipschitz : F
  gamma : F
  /-- Length of the step to the projected point. -/
  normR : F
  /-- How many curvature pairs are held. -/
  pairs : Nat

/-- One tightening of the step size. -/
structure TighteningReport (F : Type) where
  iteration : Nat
  /-- How many tightenings this iteration has made, this one included. -/
  update : Nat
  /-- The step size after it. -/
  step : StepSize F

/-- One trial of the search. -/
structure TrialReport (F : Type) where
  iteration : Nat
  tau : F
  /-- Envelope at the current point. -/
  phi : F
  /-- Envelope at the trial point. -/
  phiTrial : F
  /-- The envelope that the trial must not exceed. -/
  threshold : F

/-- Summary of a solve that converged. -/
structure Summary (F : Type) where
  iterations : Nat
  residual : F
  step : StepSize F
  /-- How often the step size was tightened. -/
  tightenings : Nat
  /-- How many searches ended without an acceptable trial. -/
  stalls : Nat
  /-- The step of the last search, one if there was none. -/
  lastTau : F
  fEvals : Nat
  gradEvals : Nat

/-- A point of a run. -/
inductive Event (F : Type) where
  | iteration (report : IterationReport F)
  | tightened (report : TighteningReport F)
  /-- A trial was rejected, and the step will be halved. -/
  | rejected (report : TrialReport F)
  | accepted (report : TrialReport F)
  /-- The step cannot be halved any more; the last trial is used as it is. -/
  | stalled (report : TrialReport F)
  | finished (summary : Summary F)

/-- Listens to a run with a state of type `σ`. -/
structure Observer (F σ : Type) where
  /-- Takes note of an event. -/
  observe : σ → Event F → σ
  /-- Asked before an iteration whether the solve should stop there. -/
  wantsStop : σ → Nat → Bool × σ

namespace Observer

variable {F σ : Type}

/-- Takes note of events in their order. -/
def observeAll (observer : Observer F σ) (state : σ) (events : List (Event F)) : σ :=
  events.foldl observer.observe state

/-- Ignores every event and never stops a solve. -/
def silent : Observer F Unit where
  observe _ _ := ()
  wantsStop _ _ := (false, ())

end Observer

/-- Events seen so far, the latest first, and the iteration to stop at. -/
structure Recording (F : Type) where
  latestFirst : List (Event F)
  stopAt : Option Nat

/-- The events seen so far in their order. -/
def Recording.events {F : Type} (recording : Recording F) : List (Event F) :=
  recording.latestFirst.reverse

/-- Records every event, and stops a solve at the chosen iteration. -/
def Observer.recorder {F : Type} : Observer F (Recording F) where
  observe recording event := { recording with latestFirst := event :: recording.latestFirst }
  wantsStop recording iteration := (recording.stopAt == some iteration, recording)

end ProximalNewton
