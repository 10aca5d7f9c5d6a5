import ProximalNewton.Proofs.RealVectors
import ProximalNewton.Proofs.Coherence

/-!
# Smooth problems never exhaust the adaptation

Over exact arithmetic, let the merit gradient be Lipschitz continuous with a
constant `L⋆`, and let the merit be at most its quadratic bound with that constant.
Then an estimate `L` that is at least `L⋆` passes the descent condition, so that a
step size is tightened only below `L⋆` (`Job.Reaches.lipschitz_lt`). The initial
estimate is a difference quotient of the gradient and therefore at most `L⋆`, or it
is `lMin`. Hence the estimate never exceeds `max lMin (2 L⋆)`, and as every
tightening doubles it, there are few of them over a whole run (`Job.Budget`).
-/

namespace ProximalNewton

variable {ε σ : Type} {n m : Nat}

/-! ## Merit and gradient as functions of a point -/

section Merit

variable {F : Type} [Scalar F] {job : Job F ε n m}

namespace Job

/-- The merit of a point. -/
def valueAt (job : Job F ε n m) (x : Vector F n) : Except ε F := do
  let g ← job.oracles.g x
  job.merit.psi x g

/-- The merit gradient at a point. -/
def gradientAt (job : Job F ε n m) (x : Vector F n) : Except ε (Vector F n) := do
  let g ← job.oracles.g x
  let grad ← meritGradient job.oracles x (job.merit.multipliersOf g)
  return grad.total

theorem valueAt_of_value {x : Vector F n} {ledger ledger' : Ledger F m} {value : Value F m}
    (evaluated : job.merit.value x ledger = .ok (value, ledger')) :
    job.valueAt x = .ok value.psi := by
  obtain ⟨g, psi, at_x, known, answer⟩ := Merit.value_eq_ok.mp evaluated
  cases answer
  exact bind_eq_ok.mpr ⟨g, at_x, known⟩

theorem gradientAt_of_gradient {x : Vector F n} {ledger ledger' : Ledger F m}
    {gradient : Gradient F n m}
    (evaluated : job.merit.gradient x ledger = .ok (gradient, ledger')) :
    job.gradientAt x = .ok gradient.gradPsi := by
  obtain ⟨g, grad, at_x, slope, answer⟩ := Merit.gradient_eq_ok.mp evaluated
  cases answer
  exact bind_eq_ok.mpr ⟨g, at_x, bind_eq_ok.mpr ⟨grad, slope, rfl⟩⟩

theorem valueAt_of_evaluate {x : Vector F n} {ledger ledger' : Ledger F m}
    {evaluation : Evaluation F n m}
    (evaluated : job.merit.evaluate x ledger = .ok (evaluation, ledger')) :
    job.valueAt x = .ok evaluation.psi ∧ job.gradientAt x = .ok evaluation.gradPsi := by
  obtain ⟨g, grad, psi, at_x, slope, known, answer⟩ := Merit.evaluate_eq_ok.mp evaluated
  cases answer
  exact ⟨bind_eq_ok.mpr ⟨g, at_x, known⟩,
    bind_eq_ok.mpr ⟨g, at_x, bind_eq_ok.mpr ⟨grad, slope, rfl⟩⟩⟩

/-- A coherent iterate holds the merit and the gradient at its point. -/
theorem valueAt_of_iterateAt {gamma : F} {x : Vector F n} {iterate : Iterate F n}
    (fresh : job.iterateAt gamma x = .ok iterate) :
    job.valueAt x = .ok iterate.psi ∧ job.gradientAt x = .ok iterate.gradPsi := by
  obtain ⟨g, grad, psi, at_x, slope, known, rfl⟩ := iterateAt_eq_ok.mp fresh
  exact ⟨bind_eq_ok.mpr ⟨g, at_x, known⟩,
    bind_eq_ok.mpr ⟨g, at_x, bind_eq_ok.mpr ⟨grad, slope, rfl⟩⟩⟩

/-- The merit that the descent condition is tested with is that of the projected
point. -/
theorem Reaches.valueAt_xHat {laps : List (Lap F n m job.depth)} {events : List (Event F)}
    {attempt : Attempt F n m job.depth} {left : Nat} {psiHat : F}
    (reached : job.Reaches laps events (.adapting attempt left psiHat)) :
    job.valueAt attempt.state.current.xHat = .ok psiHat := by
  cases reached with
  | enter measured _ =>
    obtain ⟨before, evaluated⟩ := measured.evaluated
    exact (valueAt_of_evaluate evaluated).1
  | revalue _ evaluated => exact valueAt_of_value evaluated

end Job

end Merit

/-! ## Smooth merit functions -/

/-- The merit gradient is Lipschitz continuous with the constant `lStar`, and the
merit is at most its quadratic bound with this constant, wherever the functions of
the problem answer. -/
structure Job.SmoothMerit (job : Job ℝ ε n m) (lStar : ℝ) : Prop where
  positive : 0 < lStar
  lipschitz : ∀ u v gradU gradV, job.gradientAt u = .ok gradU → job.gradientAt v = .ok gradV →
    norm (gradU - gradV) ≤ lStar * norm (u - v)
  descent : ∀ u v gradU psiU psiV, job.gradientAt u = .ok gradU → job.valueAt u = .ok psiU →
    job.valueAt v = .ok psiV →
    psiV ≤ psiU + dot gradU (v - u) + lStar / 2 * normSq (v - u)

namespace Job

variable {job : Job ℝ ε n m} {lStar : ℝ} {laps : List (Lap ℝ n m job.depth)}
  {events : List (Event ℝ)}

/-- An estimate that fails the descent condition is below `lStar`. -/
theorem Reaches.lipschitz_lt (smooth : job.SmoothMerit lStar)
    {attempt : Attempt ℝ n m job.depth} {left : Nat} {psiHat : ℝ}
    (reached : job.Reaches laps events (.adapting attempt left psiHat))
    (exceeds : attempt.state.current.descentLimit attempt.state.step < psiHat) :
    attempt.state.step.lipschitz < lStar := by
  have fresh := reached.current_coherent
  simp only [Point.state] at fresh
  obtain ⟨value, gradient⟩ := valueAt_of_iterateAt fresh
  have bounded := smooth.descent _ _ _ _ _ gradient value reached.valueAt_xHat
  obtain ⟨gradDotR_eq, normSqR_eq⟩ := products_of_iterateAt fresh
  rw [(projected_of_iterateAt fresh).2] at gradDotR_eq normSqR_eq
  rw [dot_sub_comm, normSq_sub_comm, ← gradDotR_eq, ← normSqR_eq] at bounded
  have above : attempt.state.current.psi - attempt.state.current.gradDotR +
      0.5 * attempt.state.step.lipschitz * attempt.state.current.normSqR +
      1e-6 * |attempt.state.current.psi| < psiHat := exceeds
  have margin : 0 ≤ 1e-6 * |attempt.state.current.psi| := by positivity
  have length : 0 ≤ attempt.state.current.normSqR := by
    rw [normSqR_eq]
    exact normSq_nonneg _
  by_contra enough
  have grows := mul_le_mul_of_nonneg_right (not_lt.mp enough) length
  linarith

/-- The initial estimate is a difference quotient of the gradient, or `lMin`. -/
theorem SmoothMerit.lipschitz_start (smooth : job.SmoothMerit lStar)
    {state : State ℝ n m job.depth} (started : job.start = .ok state) :
    job.params.estimate.lMin ≤ state.step.lipschitz ∧
      state.step.lipschitz ≤ max job.params.estimate.lMin lStar := by
  obtain ⟨initial, ledger, lipschitz, ledger', evaluated, estimated, -, rfl⟩ := start_eq_ok started
  obtain ⟨shifted, after, slope, answer⟩ := initialLipschitz_eq_ok.mp estimated
  have quotient_le : lipschitz ≤ lStar := by
    cases answer
    have close := smooth.lipschitz _ _ _ _ (gradientAt_of_gradient slope)
      (valueAt_of_evaluate evaluated).2
    rw [add_sub_self] at close
    exact div_le_of_le_mul₀ (Real.sqrt_nonneg _) smooth.positive.le close
  have estimate_eq : (StepSize.ofLipschitz (maxNum lipschitz job.params.estimate.lMin)).lipschitz =
      max lipschitz job.params.estimate.lMin := maxNum_eq_max _ _
  rw [estimate_eq, max_comm lipschitz]
  exact ⟨le_max_left _ _, max_le_max_left _ quotient_le⟩

/-! ## How often the step size is tightened -/

/-- What the estimate in a state and the tightenings so far say of each other. -/
structure Budget (job : Job ℝ ε n m) (lStar : ℝ) (state : State ℝ n m job.depth) : Prop where
  floor : job.params.estimate.lMin * 2 ^ state.tightenings ≤ state.step.lipschitz
  ceiling : state.step.lipschitz ≤ max job.params.estimate.lMin (2 * lStar)
  spent : 0 < state.tightenings → job.params.estimate.lMin * 2 ^ (state.tightenings - 1) < lStar

/-- A tightening doubles the estimate. -/
theorem lipschitz_tighten (job : Job ℝ ε n m) (state : State ℝ n m job.depth) :
    (job.tighten state).step.lipschitz = state.step.lipschitz * 2 := by
  show state.step.lipschitz * (1 + 1) = state.step.lipschitz * 2
  norm_num

/-- The budget allows a tightening below `lStar`. -/
theorem Budget.tighten {state : State ℝ n m job.depth} (budget : job.Budget lStar state)
    (below : state.step.lipschitz < lStar) : job.Budget lStar (job.tighten state) := by
  have doubled := job.lipschitz_tighten state
  have counted : (job.tighten state).tightenings = state.tightenings + 1 := rfl
  constructor
  case floor =>
    rw [doubled, counted, pow_succ, ← mul_assoc]
    exact mul_le_mul_of_nonneg_right budget.floor zero_le_two
  case ceiling =>
    rw [doubled]
    exact le_max_of_le_right (by linarith)
  case spent =>
    intro _
    rw [counted, Nat.add_sub_cancel]
    exact budget.floor.trans_lt below

/-- The budget is kept over whole runs. -/
theorem Reaches.budget (smooth : job.SmoothMerit lStar) {point : Point ℝ n m job.depth}
    (reached : job.Reaches laps events point) : job.Budget lStar point.state := by
  refine reached.history_invariant (fun _ state => job.Budget lStar state) ?start ?evaluated
    ?reported ?tightened ?advanced
  case start =>
    intro state started
    obtain ⟨above, below⟩ := smooth.lipschitz_start started
    have untouched : state.tightenings = 0 := by
      obtain ⟨initial, ledger, lipschitz, ledger', -, -, -, rfl⟩ := start_eq_ok started
      rfl
    refine ⟨?_, below.trans (max_le_max_left _ ?_), ?_⟩
    · rw [untouched, pow_zero, mul_one]
      exact above
    · linarith [smooth.positive]
    · rw [untouched]
      exact nofun
  case evaluated =>
    intro events state ledger budget
    exact ⟨budget.floor, budget.ceiling, budget.spent⟩
  case reported =>
    intro events state event _ budget
    exact budget
  case tightened =>
    intro laps events attempt left psiHat reached exceeds budget
    exact budget.tighten (reached.lipschitz_lt smooth exceeds)
  case advanced =>
    intro events state result budget
    exact ⟨budget.floor, budget.ceiling, budget.spent⟩

end Job

/-! ## What the events tell of the estimates -/

section Reports

variable {F : Type}

/-- The estimate that an event reports. -/
def Event.lipschitz? : Event F → Option F
  | .iteration report => some report.lipschitz
  | .tightened report => some report.step.lipschitz
  | .finished summary => some summary.step.lipschitz
  | .rejected _ => none
  | .accepted _ => none
  | .stalled _ => none

def Event.isTightening : Event F → Bool
  | .tightened _ => true
  | _ => false

theorem Event.isTightening_eq_false {event : Event F}
    (other : ∀ report, event ≠ .tightened report) :
    event.isTightening = false := by
  cases event with
  | tightened report => exact absurd rfl (other report)
  | _ => rfl

variable [Scalar F] {job : Job F ε n m} {laps : List (Lap F n m job.depth)}
  {events : List (Event F)}

/-- An iteration has made some of the tightenings that it is permitted, and the
others are left. -/
def Attempt.Counted (job : Job F ε n m) (attempt : Attempt F n m job.depth) (left : Nat) :
    Prop :=
  attempt.updates + left = job.params.estimate.maxUpdates ∧
    attempt.updates ≤ attempt.state.tightenings

/-- While an iteration adapts its step size, its tightenings are counted. -/
def Point.Counted (job : Job F ε n m) : Point F n m job.depth → Prop
  | .adapting attempt left _ => attempt.Counted job left
  | .tightened attempt left => attempt.Counted job left
  | _ => True

namespace Job

/-- A state counts the tightenings that have been reported. -/
theorem Reaches.countP_isTightening {point : Point F n m job.depth}
    (reached : job.Reaches laps events point) :
    events.countP Event.isTightening = point.state.tightenings := by
  refine reached.history_invariant
    (fun events state => events.countP Event.isTightening = state.tightenings) ?start ?evaluated
    ?reported ?tightened ?advanced
  case start =>
    intro state started
    obtain ⟨initial, ledger, lipschitz, ledger', -, -, -, rfl⟩ := start_eq_ok started
    rfl
  case evaluated =>
    intro events state ledger count
    exact count
  case reported =>
    intro events state event other count
    have uncounted := Event.isTightening_eq_false other
    simp [List.countP_append, uncounted, count]
  case tightened =>
    intro laps events attempt left psiHat _ _ count
    rw [List.countP_append, count]
    rfl
  case advanced =>
    intro events state result count
    exact count

/-- An event reports the estimate in the state in which it is reported. -/
theorem Announces.lipschitz_eq {point : Point F n m job.depth} {event : Event F} {lipschitz : F}
    (announces : job.Announces laps point event) (reached : job.Reaches laps events point)
    (reports : event.lipschitz? = some lipschitz) :
    lipschitz = point.state.step.lipschitz := by
  cases announces with
  | finished =>
    cases reached
    cases reports
    rfl
  | iteration =>
    cases reports
    rfl
  | tightened =>
    cases reports
    rfl
  | rejected => cases reports
  | accepted => cases reports
  | stalled => cases reports

/-- The event before a test of the descent condition reports the estimate that is
tested. -/
theorem Reaches.latest_lipschitz {attempt : Attempt F n m job.depth} {left : Nat} {psiHat : F}
    (reached : job.Reaches laps events (.adapting attempt left psiHat)) :
    ∃ before latest, events = before ++ [latest] ∧
      latest.lipschitz? = some attempt.state.step.lipschitz := by
  cases reached with
  | enter measured _ =>
    cases measured with
    | measure => exact ⟨_, _, rfl, rfl⟩
  | revalue tightened _ =>
    cases tightened with
    | tighten => exact ⟨_, _, rfl, rfl⟩

theorem Reaches.pointCounted {point : Point F n m job.depth}
    (reached : job.Reaches laps events point) : point.Counted job := by
  induction reached with
  | enter => exact ⟨Nat.zero_add _, Nat.zero_le _⟩
  | tighten _ _ ih =>
    obtain ⟨total, made⟩ := ih
    exact ⟨(Nat.add_right_comm _ _ _).trans total, Nat.succ_le_succ made⟩
  | revalue _ _ ih => exact ih
  | _ => trivial

end Job

end Reports

/-! ## Runs on smooth problems -/

/-- Every tightening comes right after an event that reports an estimate below
`lStar`, and doubles this estimate. -/
def TightenedBelow (lStar : ℝ) (events : List (Event ℝ)) : Prop :=
  ∀ before report after, events = before ++ .tightened report :: after →
    ∃ earlier latest lipschitz, before = earlier ++ [latest] ∧
      latest.lipschitz? = some lipschitz ∧ lipschitz < lStar ∧
      report.step.lipschitz = lipschitz * (1 + 1)

theorem tightenedBelow_nil (lStar : ℝ) : TightenedBelow lStar [] := by
  intro before report after divided
  simp at divided

theorem TightenedBelow.append_other {lStar : ℝ} {events : List (Event ℝ)} {event : Event ℝ}
    (holds : TightenedBelow lStar events) (other : ∀ report, event ≠ .tightened report) :
    TightenedBelow lStar (events ++ [event]) := by
  intro before report after divided
  rcases eq_append_cons_of_append_singleton divided with ⟨-, same⟩ | ⟨rest, earlier⟩
  · exact absurd same (other report)
  · exact holds before report rest earlier

theorem TightenedBelow.append_tightened {lStar lipschitz : ℝ} {before : List (Event ℝ)}
    {latest : Event ℝ} {report : TighteningReport ℝ}
    (holds : TightenedBelow lStar (before ++ [latest]))
    (reports : latest.lipschitz? = some lipschitz) (below : lipschitz < lStar)
    (doubled : report.step.lipschitz = lipschitz * (1 + 1)) :
    TightenedBelow lStar (before ++ [latest] ++ [.tightened report]) := by
  intro front report' after divided
  rcases eq_append_cons_of_append_singleton divided with ⟨rfl, same⟩ | ⟨rest, earlier⟩
  · cases same
    exact ⟨before, latest, lipschitz, rfl, reports, below, doubled⟩
  · exact holds front report' rest earlier

namespace Job

variable {job : Job ℝ ε n m} {lStar : ℝ} {laps : List (Lap ℝ n m job.depth)}
  {events : List (Event ℝ)}

theorem Reaches.tightenedBelow (smooth : job.SmoothMerit lStar) {point : Point ℝ n m job.depth}
    (reached : job.Reaches laps events point) : TightenedBelow lStar events := by
  refine reached.history_invariant (fun events _ => TightenedBelow lStar events) ?start
    ?evaluated ?reported ?tightened ?advanced
  case start =>
    intro state _
    exact tightenedBelow_nil lStar
  case evaluated =>
    intro events state ledger holds
    exact holds
  case reported =>
    intro events state event other holds
    exact holds.append_other other
  case tightened =>
    intro laps events attempt left psiHat reached exceeds holds
    obtain ⟨before, latest, rfl, reports⟩ := reached.latest_lipschitz
    exact holds.append_tightened reports (reached.lipschitz_lt smooth exceeds) rfl
  case advanced =>
    intro events state result holds
    exact holds

/-- Every estimate that is reported is within the budget. -/
theorem Reaches.reported_le (smooth : job.SmoothMerit lStar) {point : Point ℝ n m job.depth}
    (reached : job.Reaches laps events point) {event : Event ℝ} (member : event ∈ events)
    {lipschitz : ℝ} (reports : event.lipschitz? = some lipschitz) :
    lipschitz ≤ max job.params.estimate.lMin (2 * lStar) := by
  obtain ⟨laps, events, point, reached, announces⟩ := reached.announced member
  rw [announces.lipschitz_eq reached reports]
  exact (reached.budget smooth).ceiling

/-- A run that gives up is within its budget, and has used up the tightenings of an
iteration while its estimate was below `lStar`. -/
theorem Reaches.gives_up (smooth : job.SmoothMerit lStar) {point : Point ℝ n m job.depth}
    (reached : job.Reaches laps events point) {k updates : Nat} {lipschitz : ℝ}
    (ends : job.Ends laps point (.error (.stepSize k updates lipschitz))) :
    lipschitz ≤ max job.params.estimate.lMin (2 * lStar) ∧
      job.params.estimate.lMin * 2 ^ job.params.estimate.maxUpdates < lStar := by
  have budget := reached.budget smooth
  cases ends with
  | @stepSize _ psiHat attempt exceeds =>
    refine ⟨budget.ceiling, ?_⟩
    obtain ⟨total, made⟩ := reached.pointCounted
    have exhausted : job.params.estimate.maxUpdates ≤ attempt.state.tightenings :=
      total ▸ made
    have positive : 0 < job.params.estimate.lMin := (job.params_valid .lMin).1
    calc job.params.estimate.lMin * 2 ^ job.params.estimate.maxUpdates
        ≤ job.params.estimate.lMin * 2 ^ attempt.state.tightenings :=
          mul_le_mul_of_nonneg_left (pow_le_pow_right₀ one_le_two exhausted) positive.le
      _ ≤ attempt.state.step.lipschitz := budget.floor
      _ < lStar := reached.lipschitz_lt smooth exceeds

/-- What the smoothness of the merit function means for a solve. -/
structure SmoothCourse (job : Job ℝ ε n m) (lStar : ℝ) (events : List (Event ℝ))
    (answer : Except (SolveError ℝ ε) (Solution ℝ n m)) : Prop where
  /-- The step size is tightened only where the estimate is below `lStar`. -/
  tightenedBelow : TightenedBelow lStar events
  /-- No estimate that is reported exceeds `max lMin (2 lStar)`. -/
  reported : ∀ event ∈ events, ∀ lipschitz, event.lipschitz? = some lipschitz →
    lipschitz ≤ max job.params.estimate.lMin (2 * lStar)
  failed : ∀ k updates lipschitz, answer = .error (.stepSize k updates lipschitz) →
    lipschitz ≤ max job.params.estimate.lMin (2 * lStar)
  /-- There are few tightenings in the whole solve. -/
  few : 0 < events.countP Event.isTightening →
    job.params.estimate.lMin * 2 ^ (events.countP Event.isTightening - 1) < lStar
  none : lStar ≤ job.params.estimate.lMin → events.countP Event.isTightening = 0
  /-- The solve does not fail for the step size if enough tightenings are permitted. -/
  adapts : lStar ≤ job.params.estimate.lMin * 2 ^ job.params.estimate.maxUpdates →
    ∀ k updates lipschitz, answer ≠ .error (.stepSize k updates lipschitz)

/-- **Smooth problems never exhaust the adaptation.** -/
theorem solve_smooth (smooth : job.SmoothMerit lStar) {σ : Type} (observer : Observer ℝ σ)
    (listener : σ) :
    job.SmoothCourse lStar (job.events observer listener) (job.solve observer listener).2 := by
  have floor_pos : 0 < job.params.estimate.lMin := (job.params_valid .lMin).1
  rcases job.solve_ends observer listener with
    ⟨error, failed, silent, answer⟩ | ⟨laps, point, reached, ends⟩
  · -- every real estimate is finite, so that only an oracle can prevent the start
    rcases start_eq_error failed with ⟨cause, rfl⟩ | ⟨lipschitz, -, unbounded, -⟩
    · rw [silent, answer]
      refine ⟨tightenedBelow_nil lStar, nofun, nofun, nofun, fun _ => rfl, fun _ => nofun⟩
    · cases unbounded
  · have budget := reached.budget smooth
    have counted := reached.countP_isTightening
    have few : 0 < (job.events observer listener).countP Event.isTightening →
        job.params.estimate.lMin *
          2 ^ ((job.events observer listener).countP Event.isTightening - 1) < lStar := by
      rw [counted]
      exact budget.spent
    refine ⟨reached.tightenedBelow smooth, ?reported, ?failed, few, ?none, ?adapts⟩
    case reported =>
      intro event member lipschitz reports
      exact reached.reported_le smooth member reports
    case failed =>
      intro k updates lipschitz answer
      rw [answer] at ends
      exact (reached.gives_up smooth ends).1
    case none =>
      intro enough
      by_contra some_tightened
      have below := few (Nat.pos_of_ne_zero some_tightened)
      have grows : job.params.estimate.lMin * 1 ≤ job.params.estimate.lMin *
          2 ^ ((job.events observer listener).countP Event.isTightening - 1) :=
        mul_le_mul_of_nonneg_left (one_le_pow₀ one_le_two) floor_pos.le
      linarith
    case adapts =>
      intro enough k updates lipschitz answer
      rw [answer] at ends
      exact absurd (reached.gives_up smooth ends).2 (not_lt.mpr enough)

end Job

/-! ## A parabola -/

/-- `(x - 3)²` from the origin, without constraints. -/
noncomputable def bowlJob : Job ℝ Unit 1 0 where
  oracles :=
    { f := fun x => .ok ((x[0] - (3 : ℝ)) * (x[0] - (3 : ℝ)))
      gradF := fun x => .ok #v[(x[0] - (3 : ℝ)) + (x[0] - (3 : ℝ))]
      g := fun _ => .ok #v[]
      gradG := fun _ _ => .ok (.replicate 1 0) }
  C := .whole 1
  D := .whole 0
  x := .replicate 1 0
  y := #v[]
  sigma := #v[]
  params :=
    { maxIter := 100
      memory := { depth := 1, curvatureTol := 0 }
      estimate := { epsilon := 1, delta := 1, lMin := 1, maxUpdates := 1 }
      search := { tauMin := 1 / 3 } }
  eps := 1
  numVars_pos := Nat.one_pos
  C_valid := Box.valid_whole 1
  D_valid := Box.valid_whole 0
  sigma_pos := nofun
  params_valid := by
    intro which
    cases which with
    | maxIter => exact Nat.succ_pos _
    | memoryDepth => exact Nat.one_pos
    | curvatureTol => exact ⟨le_rfl, rfl⟩
    | epsilon | delta | lMin => exact ⟨zero_lt_one, rfl⟩
    | tauMin => exact ⟨⟨by norm_num, rfl⟩, by norm_num⟩
  eps_pos := zero_lt_one

theorem dot_of_single (v w : Vector ℝ 1) : dot v w = v[0] * w[0] := by
  rw [dot_eq_sum, Fin.sum_univ_one]
  rfl

theorem norm_of_single (v : Vector ℝ 1) : norm v = |v[0]| := by
  show Real.sqrt (dot v v) = |v[0]|
  rw [dot_of_single, Real.sqrt_mul_self_eq_abs]

theorem distanceSq_of_none (g shift z sigma : Vector ℝ 0) : distanceSq g shift z sigma = 0 := by
  have empty : ∀ v : Vector ℝ 0, v.toList = [] := by
    intro v
    exact List.eq_nil_of_length_eq_zero v.length_toList
  unfold distanceSq
  rw [← Vector.foldl_toList, empty]
  rfl

/-- Without constraints an evaluation gives the objective and its gradient. -/
theorem Merit.evaluate_of_unconstrained {ε : Type} {n : Nat} {merit : Merit ℝ ε n 0}
    {x gradF : Vector ℝ n} {f : ℝ} (value : merit.oracles.f x = .ok f)
    (slope : merit.oracles.gradF x = .ok gradF) (none : merit.oracles.g x = .ok #v[])
    (adjoint : ∀ yHat, merit.oracles.gradG x yHat = .ok (.replicate n 0)) (ledger : Ledger ℝ 0) :
    ∃ z ledger', merit.evaluate x ledger = .ok ({ z, psi := f, gradPsi := gradF }, ledger') := by
  have psi : merit.psi x #v[] = .ok f := by
    unfold Merit.psi meritValue
    rw [value, distanceSq_of_none, mul_zero]
    exact congrArg Except.ok (add_zero f)
  have total : gradF + .replicate n 0 = gradF := by
    ext i inside
    simp
  refine ⟨_, _, Merit.evaluate_eq_ok.mpr ⟨#v[], ⟨.replicate n 0, gradF⟩, f, none, ?_, psi, rfl⟩⟩
  exact meritGradient_eq_ok.mpr ⟨gradF, .replicate n 0, slope, adjoint _, by rw [total]⟩

/-- The gradient of the parabola. -/
noncomputable def bowlSlope (u : Vector ℝ 1) : Vector ℝ 1 :=
  #v[(u[0] - (3 : ℝ)) + (u[0] - (3 : ℝ))] + .replicate 1 0

theorem getElem_bowlSlope (u : Vector ℝ 1) : (bowlSlope u)[0] = (2 : ℝ) * (u[0] - (3 : ℝ)) := by
  simp [bowlSlope, two_mul]

theorem bowlJob_gradientAt (u : Vector ℝ 1) : bowlJob.gradientAt u = .ok (bowlSlope u) :=
  rfl

theorem bowlJob_valueAt (u : Vector ℝ 1) :
    bowlJob.valueAt u = .ok ((u[0] - (3 : ℝ)) * (u[0] - (3 : ℝ))) := by
  have value : bowlJob.valueAt u = .ok ((u[0] - (3 : ℝ)) * (u[0] - (3 : ℝ)) +
      0.5 * distanceSq #v[] bowlJob.merit.shift (bowlJob.merit.slackOf #v[]) #v[]) := rfl
  rw [value, distanceSq_of_none, mul_zero, add_zero]

theorem bowlJob_smooth : bowlJob.SmoothMerit 2 := by
  constructor
  case positive => norm_num
  case lipschitz =>
    intro u v gradU gradV slopeU slopeV
    cases (bowlJob_gradientAt u).symm.trans slopeU
    cases (bowlJob_gradientAt v).symm.trans slopeV
    have difference : ∀ a b : ℝ, 2 * (a - 3) - 2 * (b - 3) = 2 * (a - b) := by
      intro a b
      ring
    rw [norm_of_single, norm_of_single, Vector.getElem_sub, Vector.getElem_sub, getElem_bowlSlope,
      getElem_bowlSlope, difference, abs_mul, abs_two]
  case descent =>
    intro u v gradU psiU psiV slopeU valueU valueV
    cases (bowlJob_gradientAt u).symm.trans slopeU
    cases (bowlJob_valueAt u).symm.trans valueU
    cases (bowlJob_valueAt v).symm.trans valueV
    unfold normSq
    rw [dot_of_single, dot_of_single, Vector.getElem_sub, getElem_bowlSlope]
    apply le_of_eq
    ring

/-- A minimum of the parabola is sought without a failure for the step size. -/
theorem solve_smooth_bowl : bowlJob.SmoothMerit 2 ∧
    ∀ k updates lipschitz, (bowlJob.solve Observer.silent ()).2 ≠
      .error (.stepSize k updates lipschitz) := by
  refine ⟨bowlJob_smooth, ?_⟩
  have enough : (2 : ℝ) ≤
      bowlJob.params.estimate.lMin * 2 ^ bowlJob.params.estimate.maxUpdates := by
    show (2 : ℝ) ≤ 1 * 2 ^ 1
    norm_num
  exact (Job.solve_smooth bowlJob_smooth Observer.silent ()).adapts enough

/-! ## A slope -/

/-- Two iterations down a unit slope from the origin, without constraints. -/
noncomputable def slideJob : Job ℝ Unit 1 0 :=
  { bowlJob with
    oracles := { bowlJob.oracles with
      f := fun x => .ok (x.get ⟨0, Nat.one_pos⟩)
      gradF := fun _ => .ok (.replicate 1 1) }
    params := { bowlJob.params with maxIter := 2 }
    params_valid := by
      intro which
      cases which with
      | maxIter => exact Nat.two_pos
      | memoryDepth => exact bowlJob.params_valid .memoryDepth
      | curvatureTol => exact bowlJob.params_valid .curvatureTol
      | epsilon => exact bowlJob.params_valid .epsilon
      | delta => exact bowlJob.params_valid .delta
      | lMin => exact bowlJob.params_valid .lMin
      | tauMin => exact bowlJob.params_valid .tauMin
    eps := 0.5
    eps_pos := by norm_num }

theorem slideJob_evaluate (x : Vector ℝ 1) (ledger : Ledger ℝ 0) : ∃ z ledger',
    slideJob.merit.evaluate x ledger =
      .ok ({ z, psi := x.get 0, gradPsi := .replicate 1 1 }, ledger') :=
  Merit.evaluate_of_unconstrained rfl rfl rfl (fun _ => rfl) ledger

end ProximalNewton
