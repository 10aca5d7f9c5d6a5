import ProximalNewton.Proofs.Coherence
import ProximalNewton.Proofs.InfiniteEstimate
import ProximalNewton.Proofs.RegularSteps
import ProximalNewton.Proofs.SmoothMerit
import ProximalNewton.Proofs.Success

/-!
# Whether the step sizes of a run can be used

In a machine format every step size of a run is regular (`Job.Reaches.regular`). What its
events report can therefore be computed with as long as the estimate and the proximal step
are finite, and `Request.stepSizes_usable_iff` says so of every solve. Neither is certain.
The proximal step is infinite from the start when the floor of the estimates is so small
that `0.95` divided by it overflows and the merit is flat (`not_keepsUsable`). An estimate
that overflows while it is doubled passes the descent test from then on and is never the
reason for which a solve gives up (`Job.Reaches.isFinite_lipschitz_of_exceeds`).
-/

namespace ProximalNewton

open BinaryScalar

/-! ## Along a run -/

section Run

variable {F ε σ : Type} [Scalar F] [BinaryScalar F] {n m : Nat}

namespace Job

variable {job : Job F ε n m} {laps : List (Lap F n m job.depth)} {events : List (Event F)}
  {point : Point F n m job.depth}

/-- Every step size of a run is regular, and has a finite proximal step if the floor of
the estimates gives one. -/
theorem Reaches.regular (reached : job.Reaches laps events point) :
    point.state.step.Regular ∧
      (Scalar.isFinite (0.95 / job.params.estimate.lMin : F) = true →
        Scalar.isFinite point.state.step.gamma = true) := by
  refine reached.state_invariant
    (fun state => state.step.Regular ∧
      (Scalar.isFinite (0.95 / job.params.estimate.lMin : F) = true →
        Scalar.isFinite state.step.gamma = true)) ?start ?evaluated ?tightened ?advanced
  case start =>
    intro state started
    obtain ⟨initial, ledger, lipschitz, ledger', -, -, finite, rfl⟩ := start_eq_ok started
    obtain ⟨floor_pos, floor_finite⟩ := job.params_valid .lMin
    obtain ⟨w, w_pos, floor⟩ := exists_represents floor_pos floor_finite
    obtain ⟨v, le, value⟩ := Represents.maxNum finite w_pos floor
    exact ⟨StepSize.regular_ofLipschitz (w_pos.trans_le le) value,
      StepSize.isFinite_gamma_mono w_pos floor value le⟩
  case evaluated =>
    intro state ledger holds
    exact holds
  case tightened =>
    intro state holds
    exact ⟨holds.1.halved, fun finite => holds.1.isFinite_halved_gamma (holds.2 finite)⟩
  case advanced =>
    intro state result holds
    exact holds

/-- An iteration never gives up with an infinite estimate, because an infinite estimate
passes its test. -/
theorem Reaches.isFinite_lipschitz_of_exceeds {attempt : Attempt F n m job.depth} {left : Nat}
    {psiHat : F} (reached : job.Reaches laps events (.adapting attempt left psiHat))
    (exceeds : attempt.state.current.descentLimit attempt.state.step < psiHat) :
    Scalar.isFinite attempt.state.step.lipschitz = true := by
  rcases reached.regular.1.lipschitz with ⟨v, -, value⟩ | overflows
  · exact value.isFinite
  · have normSqR := (products_of_iterateAt reached.current_coherent).2
    unfold Iterate.descentLimit at exceeds
    simp only [Point.state] at normSqR
    rw [normSqR] at exceeds
    exact absurd exceeds (StepSize.not_descentLimit_lt overflows _ _ _ _)

omit [BinaryScalar F] in
/-- A solve does not start from an initial estimate that is not finite. -/
theorem start_of_not_finite {lipschitz : F} (estimated : job.InitialEstimate lipschitz)
    (unbounded : Scalar.isFinite lipschitz = false) :
    job.start = .error (.stepSize 0 0 lipschitz) := by
  obtain ⟨initial, ledger, ledger', evaluated, quotient⟩ := estimated
  unfold start
  rw [evaluated]
  dsimp only [Except.mapError, bind, Except.bind]
  rw [quotient]
  dsimp only
  rw [if_neg (by simp [unbounded])]
  rfl

/-- A solve that gives up with an estimate that is not finite has not started. -/
theorem solve_eq_stepSize_iff {observer : Observer F σ} {listener : σ} {k updates : Nat}
    {lipschitz : F} (unbounded : Scalar.isFinite lipschitz = false) :
    (job.solve observer listener).2 = .error (.stepSize k updates lipschitz) ↔
      k = 0 ∧ updates = 0 ∧ job.InitialEstimate lipschitz ∧
        job.events observer listener = [] := by
  constructor
  · intro failed
    rcases job.solve_ends observer listener with
      ⟨error, not_started, none, answer⟩ | ⟨laps, point, reached, ends⟩
    · cases answer.symm.trans failed
      rcases start_eq_error not_started with ⟨cause, ⟨⟩⟩ | ⟨estimate, estimated, -, ⟨⟩⟩
      exact ⟨rfl, rfl, estimated, none⟩
    · rw [failed] at ends
      cases ends with
      | stepSize exceeds =>
        have finite := reached.isFinite_lipschitz_of_exceeds exceeds
        exact absurd (unbounded.symm.trans finite) Bool.false_ne_true
  · intro not_started
    rcases not_started with ⟨rfl, rfl, estimated, -⟩
    rw [job.solve_of_error (start_of_not_finite estimated unbounded)]

end Job

end Run

/-! ## What is reported -/

section Reports

variable {F ε σ : Type} [Scalar F] {n m : Nat}

/-- The numbers of a step size that an event reports are fit to be computed with. -/
def Event.Usable : Event F → Prop
  | .iteration report => IsPositive report.lipschitz ∧ IsPositive report.gamma
  | .tightened report => report.step.Usable
  | .finished summary => summary.step.Usable
  | .rejected _ => True
  | .accepted _ => True
  | .stalled _ => True

instance Event.Usable.decidable : (event : Event F) → Decidable event.Usable
  | .iteration _ => inferInstanceAs (Decidable (_ ∧ _))
  | .tightened report => StepSize.Usable.decidable report.step
  | .finished summary => StepSize.Usable.decidable summary.step
  | .rejected _ => isTrue trivial
  | .accepted _ => isTrue trivial
  | .stalled _ => isTrue trivial

/-- The estimate and the proximal step that an event reports are finite. -/
def Event.Bounded : Event F → Prop
  | .iteration report =>
    Scalar.isFinite report.lipschitz = true ∧ Scalar.isFinite report.gamma = true
  | .tightened report =>
    Scalar.isFinite report.step.lipschitz = true ∧ Scalar.isFinite report.step.gamma = true
  | .finished summary =>
    Scalar.isFinite summary.step.lipschitz = true ∧ Scalar.isFinite summary.step.gamma = true
  | .rejected _ => True
  | .accepted _ => True
  | .stalled _ => True

variable {job : Job F ε n m} {laps : List (Lap F n m job.depth)} {events : List (Event F)}
  {point : Point F n m job.depth} {event : Event F}

/-- An event reports the step size in force, or none. -/
theorem Job.Announces.reports (announces : job.Announces laps point event)
    (reached : job.Reaches laps events point) :
    (event.lipschitz? = none ∧ event.Usable ∧ event.Bounded) ∨
    (event.lipschitz? = some point.state.step.lipschitz ∧
      (event.Bounded ↔ Scalar.isFinite point.state.step.lipschitz = true ∧
        Scalar.isFinite point.state.step.gamma = true) ∧
      (point.state.step.Usable → event.Usable) ∧ (event.Usable → event.Bounded)) := by
  cases announces with
  | iteration =>
    exact Or.inr ⟨rfl, Iff.rfl, fun usable => ⟨usable.lipschitz, usable.gamma⟩,
      fun usable => ⟨usable.1.2, usable.2.2⟩⟩
  | tightened =>
    exact Or.inr ⟨rfl, Iff.rfl, id, fun usable => ⟨usable.lipschitz.2, usable.gamma.2⟩⟩
  | finished =>
    cases reached
    exact Or.inr ⟨rfl, Iff.rfl, id, fun usable => ⟨usable.lipschitz.2, usable.gamma.2⟩⟩
  | rejected => exact Or.inl ⟨rfl, trivial, trivial⟩
  | accepted => exact Or.inl ⟨rfl, trivial, trivial⟩
  | stalled => exact Or.inl ⟨rfl, trivial, trivial⟩

/-- What an event tells of the step size: the estimate is above zero, and the numbers are
usable when those that can overflow have not. -/
theorem Job.Announced.usable_iff [BinaryScalar F] (announced : job.Announced event) :
    (∀ lipschitz ∈ event.lipschitz?, 0 < lipschitz) ∧ (event.Usable ↔ event.Bounded) ∧
      (Scalar.isFinite (0.95 / job.params.estimate.lMin : F) = true →
        (event.Usable ↔ ∀ lipschitz ∈ event.lipschitz?, Scalar.isFinite lipschitz = true)) := by
  obtain ⟨laps, events, point, reached, announces⟩ := announced
  obtain ⟨regular, finite_gamma⟩ := reached.regular
  rcases announces.reports reached with
    ⟨none, usable, bounded⟩ | ⟨reports, bounded_iff, usable_of, bounded_of⟩
  · rw [none]
    exact ⟨nofun, iff_of_true usable bounded, fun _ => iff_of_true usable nofun⟩
  · have usable_iff : event.Usable ↔ event.Bounded := by
      refine ⟨bounded_of, ?_⟩
      intro bounded
      exact usable_of (regular.usable_iff.mpr (bounded_iff.mp bounded))
    simp only [reports, Option.mem_some_iff, forall_eq']
    refine ⟨regular.lipschitz_pos, usable_iff, ?_⟩
    intro floor
    rw [usable_iff, bounded_iff]
    exact and_iff_left (finite_gamma floor)

end Reports

namespace Request

variable {F ε σ : Type} [Scalar F] {request : Request F ε}

/-- A request is not refused for its step size. -/
theorem fault?_ne_stepSize {k updates : Nat} {lipschitz : F} :
    request.fault? ≠ some (.stepSize k updates lipschitz) := by
  intro found
  have size_ne : request.sizeFault? ≠ some (.stepSize k updates lipschitz) := by
    intro found
    obtain ⟨⟨which, expected, actual⟩, -, made⟩ := List.exists_of_findSome?_eq_some found
    simp at made
  simp [fault?, Option.or_eq_some_iff, size_ne] at found

/-- **When the numbers of a step size can be used.** In a machine format every estimate
that is reported is above zero. The estimate and the proximal step are finite and above zero
and the search constant is finite and not negative exactly when neither of the first two
has become infinite, and the proximal step has not if the floor of the estimates gives a
finite one. A solve gives up with an estimate that is not finite exactly when this is its
first one; an estimate that overflows while it is doubled ends no solve. -/
theorem stepSizes_usable_iff [BinaryScalar F] (request : Request F ε) (observer : Observer F σ)
    (listener : σ) :
    (∀ event ∈ request.events observer listener,
      (∀ lipschitz ∈ event.lipschitz?, 0 < lipschitz) ∧ (event.Usable ↔ event.Bounded) ∧
        (Scalar.isFinite (0.95 / request.params.estimate.lMin : F) = true →
          (event.Usable ↔
            ∀ lipschitz ∈ event.lipschitz?, Scalar.isFinite lipschitz = true))) ∧
    ∀ (k updates : Nat) (lipschitz : F), Scalar.isFinite lipschitz = false →
      ((request.solve observer listener).result = .error (.stepSize k updates lipschitz) ↔
        k = 0 ∧ updates = 0 ∧ request.events observer listener = [] ∧
          ∃ job, request.accept = .ok job ∧ job.InitialEstimate lipschitz) := by
  cases tested : request.fault? with
  | some fault =>
    rw [events_of_fault tested, solve_of_fault tested, accept_of_fault tested]
    refine ⟨nofun, ?_⟩
    intro k updates lipschitz _
    constructor
    · intro failed
      cases failed
      exact absurd tested fault?_ne_stepSize
    · intro not_started
      obtain ⟨job, accepted, -⟩ := not_started.2.2.2
      cases accepted
  | none =>
    rw [events_eq tested, accept_of_faultless tested]
    constructor
    · intro event member
      exact (Job.events_announced _ _ _ member).usable_iff
    · intro k updates lipschitz unbounded
      rw [solve_eq_error_iff tested, Job.solve_eq_stepSize_iff unbounded]
      constructor
      · intro not_started
        obtain ⟨rfl, rfl, estimated, none⟩ := not_started
        exact ⟨rfl, rfl, none, _, rfl, estimated⟩
      · intro not_started
        obtain ⟨rfl, rfl, none, job, accepted, estimated⟩ := not_started
        cases accepted
        exact ⟨rfl, rfl, estimated, none⟩

/-- In every event of every solve of the request the numbers of the step size are fit to be
computed with. -/
def KeepsUsable (request : Request F ε) : Prop :=
  ∀ {σ : Type} (observer : Observer F σ) (listener : σ),
    ∀ event ∈ request.events observer listener, event.Usable

end Request

/-! ## A flat merit -/

/-- The constant one on `[-10, 10]`. -/
def flatProblem : Problem Float Unit where
  numVars := 1
  numConstraints := 0
  oracles :=
    { f := fun _ => .ok 1
      gradF := fun _ => .ok (.replicate 1 0)
      g := fun _ => .ok (.replicate 0 0)
      gradG := fun _ _ => .ok (.replicate 1 0) }
  dimC := 1
  dimD := 0
  C := .replicate 1 (-10) 10
  D := .whole 0

/-- One iteration from one, with estimates not below `floor`. -/
def flatRequest (floor : Float) : Request Float Unit where
  problem := flatProblem
  params :=
    { (default : Params Float) with
      maxIter := 1
      estimate := { (default : Params Float).estimate with lMin := floor } }
  buffers := { x := #[1], z := #[], y := #[], errZ := #[] }
  sigma := #[]
  eps := 1e-3

/-- With the usual floor the step size of the flat merit is usable. -/
theorem stepSizes_usable_flat :
    (flatRequest 1e-6).events Observer.silent () ≠ [] ∧
      ∀ event ∈ (flatRequest 1e-6).events Observer.silent (), event.Usable := by
  have reported : ((flatRequest 1e-6).events Observer.silent ()).isEmpty = false := by
    decide +kernel
  have bounded : ((flatRequest 1e-6).events Observer.silent ()).all
      (fun event => event.lipschitz?.all Scalar.isFinite) = true := by
    decide +kernel
  have floor : Scalar.isFinite (0.95 / (flatRequest 1e-6).params.estimate.lMin : Float) = true := by
    decide +kernel
  refine ⟨by simpa using reported, ?_⟩
  intro event member
  refine ((((flatRequest 1e-6).stepSizes_usable_iff Observer.silent ()).1 event member).2.2
    floor).mpr ?_
  simpa [Option.all_eq_true] using List.all_eq_true.mp bounded event member

/-- With the least positive number for a floor it is infinite. -/
theorem not_keepsUsable : ¬ ∀ request : Request Float Unit, request.KeepsUsable := by
  intro keeps
  have infinite : ∃ event ∈ (flatRequest (.ofBits 1)).events Observer.silent (),
      ¬ event.Usable := by
    decide +kernel
  obtain ⟨event, member, not_usable⟩ := infinite
  exact not_usable (keeps _ Observer.silent () event member)

end ProximalNewton
