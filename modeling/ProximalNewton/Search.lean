import ProximalNewton.Event
import ProximalNewton.Iterate
import ProximalNewton.Merit
import ProximalNewton.Traced

/-!
The backtracking search on the forward-backward envelope.

The search tries the points `x - (1 - τ)r - τd` for `τ = 1, ½, ¼, …` and takes
the first one whose envelope does not exceed the threshold. It stalls when `τ`
cannot be halved without falling below `tauMin`, and then takes the last point
tried. `Scalar.halving_lt` bounds the number of trials: the recursion counts the
halvings that are left, and where none is left the next one is below `tauMin`.
-/

namespace ProximalNewton

variable {F ε : Type} [Scalar F] {n m : Nat}

/-- What stays fixed during one search. -/
structure Search (F ε : Type) (n m : Nat) where
  merit : Merit F ε n m
  C : Box F n
  step : StepSize F
  tauMin : F
  iteration : Nat
  current : Iterate F n
  /-- The quasi-Newton direction `d`. -/
  direction : Vector F n

/-- How a search ended. -/
structure SearchResult (F : Type) (n m : Nat) where
  /-- The last step tried. -/
  tau : F
  /-- The envelope at that step did not exceed the threshold. -/
  accepted : Bool
  /-- The point of that step. -/
  trial : Iterate F n
  ledger : Ledger F m

namespace Search

/-- Envelope at the current point. -/
def phi (search : Search F ε n m) : F :=
  search.current.envelope search.step

/-- The envelope that an acceptable trial does not exceed. -/
def threshold (search : Search F ε n m) : F :=
  search.phi - search.step.requiredDecrease search.current.normSqR

/-- The point tried at step `τ`, between the proximal and the quasi-Newton step. -/
def point (search : Search F ε n m) (tau : F) : Vector F n :=
  search.current.x - (1 - tau) * search.current.r - tau * search.direction

/-- The iterate at the point of step `τ`. -/
def trial (search : Search F ε n m) (tau : F) (ledger : Ledger F m) :
    Except ε (Iterate F n × Ledger F m) := do
  let x := search.point tau
  let (at_x, ledger) ← search.merit.evaluate x ledger
  return (.ofPoint search.C search.step.gamma x at_x.gradPsi at_x.psi, ledger)

/-- What is reported of a trial. -/
def report (search : Search F ε n m) (tau : F) (trial : Iterate F n) : TrialReport F where
  iteration := search.iteration
  tau := tau
  phi := search.phi
  phiTrial := trial.envelope search.step
  threshold := search.threshold

/-- Tries `τ` and, at most `halvings` times, half of the step tried before. -/
def backtrack (search : Search F ε n m) (halvings : Nat) (tau : F) (ledger : Ledger F m) :
    Traced (Event F) ε (SearchResult F n m) := do
  let (trial, ledger) ← Traced.ofExcept (search.trial tau ledger)
  let report := search.report tau trial
  if report.phiTrial ≤ report.threshold then
    Traced.emit (.accepted report)
    return { tau, accepted := true, trial, ledger }
  else
    match halvings with
    | 0 =>
      Traced.emit (.stalled report)
      return { tau, accepted := false, trial, ledger }
    | left + 1 =>
      if tau * 0.5 < search.tauMin then
        Traced.emit (.stalled report)
        return { tau, accepted := false, trial, ledger }
      else
        Traced.emit (.rejected report)
        search.backtrack left (tau * 0.5) ledger

/-- The search from a unit step. -/
def run (search : Search F ε n m) (ledger : Ledger F m) :
    Traced (Event F) ε (SearchResult F n m) :=
  search.backtrack (Scalar.halvings search.tauMin) 1 ledger

/-! ## Each way a trial can go -/

section Ways

variable {search : Search F ε n m} {tau : F} {trial : Iterate F n} {ledger ledger' : Ledger F m}

theorem backtrack_of_error {error : ε}
    (failed : search.trial tau ledger = .error error) (halvings : Nat) :
    search.backtrack halvings tau ledger = ⟨[], .error error⟩ := by
  unfold backtrack
  rw [failed]
  rfl

theorem backtrack_of_acceptable (tried : search.trial tau ledger = .ok (trial, ledger'))
    (acceptable : trial.envelope search.step ≤ search.threshold) (halvings : Nat) :
    search.backtrack halvings tau ledger =
      ⟨[.accepted (search.report tau trial)],
        .ok { tau, accepted := true, trial, ledger := ledger' }⟩ := by
  have below : (search.report tau trial).phiTrial ≤ (search.report tau trial).threshold :=
    acceptable
  unfold backtrack
  rw [tried, Traced.ofExcept_ok_bind]
  dsimp only
  rw [if_pos below]
  rfl

theorem backtrack_of_exhausted (tried : search.trial tau ledger = .ok (trial, ledger'))
    (rejected : ¬ trial.envelope search.step ≤ search.threshold)
    {halvings : Nat} (exhausted : halvings = 0 ∨ tau * 0.5 < search.tauMin) :
    search.backtrack halvings tau ledger =
      ⟨[.stalled (search.report tau trial)],
        .ok { tau, accepted := false, trial, ledger := ledger' }⟩ := by
  have above : ¬ (search.report tau trial).phiTrial ≤ (search.report tau trial).threshold :=
    rejected
  unfold backtrack
  rw [tried, Traced.ofExcept_ok_bind]
  dsimp only
  rw [if_neg above]
  cases halvings with
  | zero => rfl
  | succ left =>
    dsimp only
    rw [if_pos (exhausted.resolve_left (Nat.succ_ne_zero left))]
    rfl

theorem backtrack_of_rejected (tried : search.trial tau ledger = .ok (trial, ledger'))
    (rejected : ¬ trial.envelope search.step ≤ search.threshold)
    (permitted : ¬ tau * 0.5 < search.tauMin) (left : Nat) :
    search.backtrack (left + 1) tau ledger =
      ⟨.rejected (search.report tau trial) :: (search.backtrack left (tau * 0.5) ledger').events,
        (search.backtrack left (tau * 0.5) ledger').result⟩ := by
  have above : ¬ (search.report tau trial).phiTrial ≤ (search.report tau trial).threshold :=
    rejected
  rw [backtrack, tried, Traced.ofExcept_ok_bind]
  dsimp only
  rw [if_neg above, if_neg permitted]
  rfl

end Ways

end Search

end ProximalNewton
