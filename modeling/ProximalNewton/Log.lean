import ProximalNewton.Decimal.Text
import ProximalNewton.Event

/-!
Log lines of a run.

Iterations are logged at level `debug`, changes of the step size and trials of
the search at `trace`, stalled searches at `warn` and the summary at `info`.
Merit values and envelopes have six decimals, all other numbers three.
-/

namespace ProximalNewton

/-- How important a log line is. -/
inductive LogLevel where
  | debug
  | trace
  | warn
  | info
  deriving DecidableEq

/-- One line of a log. -/
structure LogLine where
  level : LogLevel
  text : String
  deriving DecidableEq

/-- The target that every line is logged under. -/
def LogLine.target : String := "panoc"

section Lines

variable {F : Type} [MachineScalar F]

/-- A number with three decimals. -/
def coarse (value : F) : String :=
  Decimal.scientificTo 3 (MachineScalar.widen value)

/-- A number with six decimals. -/
def fine (value : F) : String :=
  Decimal.scientificTo 6 (MachineScalar.widen value)

def IterationReport.logText (report : IterationReport F) : String :=
  s!"iter={report.iteration} psi={fine report.psi} eps={coarse report.residual} " ++
    s!"L={coarse report.lipschitz} gamma={coarse report.gamma} " ++
    s!"norm_r={coarse report.normR} pairs={report.pairs}"

def TighteningReport.logText (report : TighteningReport F) : String :=
  s!"iter={report.iteration} update={report.update} L={coarse report.step.lipschitz} " ++
    s!"gamma={coarse report.step.gamma} sigma={coarse report.step.sigma}"

def TrialReport.rejectedText (report : TrialReport F) : String :=
  s!"iter={report.iteration} tau={coarse report.tau} phi={fine report.phi} " ++
    s!"phi_next={fine report.phiTrial} threshold={fine report.threshold} rejected"

def TrialReport.acceptedText (report : TrialReport F) : String :=
  s!"iter={report.iteration} tau={coarse report.tau} phi_next={fine report.phiTrial} accepted"

def TrialReport.stalledText (report : TrialReport F) : String :=
  s!"iter={report.iteration} line search stalled at tau={coarse report.tau} " ++
    s!"(phi={fine report.phi}, phi_next={fine report.phiTrial})"

def Summary.logText (summary : Summary F) : String :=
  s!"converged iterations={summary.iterations} eps={coarse summary.residual} " ++
    s!"L={coarse summary.step.lipschitz} step_size_updates={summary.tightenings} " ++
    s!"stalls={summary.stalls} f_evals={summary.fEvals} grad_evals={summary.gradEvals}"

/-- The line of an event. -/
def Event.logLine : Event F → LogLine
  | .iteration report => ⟨.debug, report.logText⟩
  | .tightened report => ⟨.trace, report.logText⟩
  | .rejected report => ⟨.trace, report.rejectedText⟩
  | .accepted report => ⟨.trace, report.acceptedText⟩
  | .stalled report => ⟨.warn, report.stalledText⟩
  | .finished summary => ⟨.info, summary.logText⟩

/-- Collects the line of every event, the latest first, and never stops a solve. -/
def Observer.logger : Observer F (List LogLine) where
  observe latestFirst event := event.logLine :: latestFirst
  wantsStop lines _ := (false, lines)

end Lines

end ProximalNewton
