import ProximalNewton.Proofs.Coherence
import ProximalNewton.Proofs.MachineLaws
import ProximalNewton.Proofs.Success

/-!
# What meeting the tolerance means in a machine format

An iteration converges when the largest component of its residual vector is
within the tolerance. The maximum passes over components that are not numbers, so
this says that every component is within the tolerance or is not a number. The
residual and the point of a successful solve are what they are taken for exactly
when no component of the residual is NaN (`Request.solve_meetsTolerance_iff`), and
a gradient that is not a number at the projected point ends a solve with success
(`not_alwaysMeetsTolerance`).
-/

namespace ProximalNewton

variable {F ε σ : Type} [Scalar F] {n m : Nat}

/-- Every component is a number. -/
def AllOrdered (v : Vector F n) : Prop :=
  ∀ (i : Nat) (inside : i < n), Scalar.isNaN v[i] = false

/-- Every component of the residual is a number within the tolerance, and the
projected point is in `C`. -/
structure Job.MeetsTolerance (job : Job F ε n m) (state : State F n m job.depth)
    (atHat : Evaluation F n m) : Prop where
  ordered : AllOrdered (state.residualVector atHat)
  small : ∀ (i : Nat) (inside : i < n), Scalar.abs (state.residualVector atHat)[i] ≤ job.eps
  feasible : job.C.Contains state.current.xHat

namespace Job

variable [LawfulScalar F] {job : Job F ε n m} {laps : List (Lap F n m job.depth)}
  {events : List (Event F)} {state : State F n m job.depth} {atHat : Evaluation F n m}

/-- The projected point of an iteration is in `C` exactly when its components are
numbers. -/
theorem Reaches.contains_xHat_iff (reached : job.Reaches laps events (.measured state atHat)) :
    job.C.Contains state.current.xHat ↔ AllOrdered state.current.xHat := by
  have projected := (projected_of_iterateAt reached.current_coherent).1
  simp only [Point.state] at projected
  rw [projected]
  exact Box.contains_project_iff job.C_valid _

/-- A component of the projected point that is not a number leaves its mark on the
residual. -/
theorem Reaches.ordered_xHat (reached : job.Reaches laps events (.measured state atHat))
    (ordered : AllOrdered (state.residualVector atHat)) : AllOrdered state.current.xHat := by
  have step := (projected_of_iterateAt reached.current_coherent).2
  simp only [Point.state] at step
  intro i inside
  by_contra unordered
  rw [Bool.not_eq_false] at unordered
  have marked : Scalar.isNaN state.current.r[i] = true := by
    rw [step, Vector.getElem_sub]
    exact LawfulScalar.isNaN_sub_right unordered
  have known := ordered i inside
  unfold State.residualVector ProximalNewton.residualVector at known
  rw [Vector.getElem_add, Vector.getElem_hmul] at known
  rw [LawfulScalar.isNaN_add_right (LawfulScalar.isNaN_mul_right marked)] at known
  cases known

/-- Where the residual passes the test, the tolerance is met exactly when no
component of the residual is NaN. -/
theorem Reaches.meetsTolerance_iff (reached : job.Reaches laps events (.measured state atHat))
    (passed : state.residual atHat ≤ job.eps) :
    job.MeetsTolerance state atHat ↔ AllOrdered (state.residualVector atHat) := by
  constructor
  · exact MeetsTolerance.ordered
  · intro ordered
    refine ⟨ordered, ?_, reached.contains_xHat_iff.mpr (reached.ordered_xHat ordered)⟩
    intro i inside
    rcases residual_le_iff.mp passed i inside with unordered | small
    · rw [ordered i inside] at unordered
      cases unordered
    · exact small

end Job

namespace Request

/-- Whenever the request is solved, the tolerance is met where the solve ended. -/
def AlwaysMeetsTolerance (request : Request F ε) : Prop :=
  ∀ {σ : Type} (observer : Observer F σ) (listener : σ) (summary : Summary F),
    (request.solve observer listener).result = .ok summary →
    ∃ job laps events state atHat, request.accept = .ok job ∧
      job.Reaches laps events (.measured state atHat) ∧
      summary.iterations = laps.length ∧
      (request.solve observer listener).buffers.x = state.current.xHat.toArray ∧
      job.MeetsTolerance state atHat

/-- **Convergence with NaN.** When a solve succeeds, every component of the last
residual vector is within the tolerance or is not a number, and the solve has met
its tolerance at a point of `C` exactly when none of them is NaN. -/
theorem solve_meetsTolerance_iff [LawfulScalar F] {request : Request F ε}
    {observer : Observer F σ} {listener : σ} {summary : Summary F}
    (solved : (request.solve observer listener).result = .ok summary) :
    ∃ job laps events state atHat, request.accept = .ok job ∧
      job.Reaches laps events (.measured state atHat) ∧
      summary.iterations = laps.length ∧
      (request.solve observer listener).buffers.x = state.current.xHat.toArray ∧
      (∀ (i : Nat) (inside : i < request.problem.numVars),
        Scalar.isNaN (state.residualVector atHat)[i] = true ∨
          Scalar.abs (state.residualVector atHat)[i] ≤ request.eps) ∧
      (job.MeetsTolerance state atHat ↔ AllOrdered (state.residualVector atHat)) := by
  obtain ⟨job, solution, accepted, answered, buffers, rfl⟩ := solve_eq_ok solved
  obtain ⟨laps, events, state, atHat, reached, passed, rfl⟩ := Job.solve_eq_ok answered
  refine ⟨job, laps, events, state, atHat, accepted, reached, rfl, ?_, ?_, ?_⟩
  · rw [buffers]
    rfl
  · obtain ⟨faultless, rfl⟩ := accept_eq_ok accepted
    exact Job.residual_le_iff.mp passed
  · exact reached.meetsTolerance_iff passed

end Request

/-! ## A gradient that is not a number -/

/-- `(x - 3)²` on `[-10, 10]`, with a gradient that is not a number above two. -/
def guardedProblem : Problem Float Unit where
  numVars := 1
  numConstraints := 0
  oracles :=
    { f := fun x => .ok ((x.get ⟨0, Nat.one_pos⟩ - 3) * (x.get ⟨0, Nat.one_pos⟩ - 3))
      gradF := fun x =>
        let value := x.get ⟨0, Nat.one_pos⟩
        .ok #v[if 2 < value then 0.0 / 0.0 else 2 * (value - 3)]
      g := fun _ => .ok #v[]
      gradG := fun _ _ => .ok #v[0] }
  dimC := 1
  dimD := 0
  C := .replicate 1 (-10) 10
  D := .whole 0

/-- One iteration from the origin. -/
def guardedRequest : Request Float Unit where
  problem := guardedProblem
  params := { (default : Params Float) with maxIter := 1 }
  buffers := { x := #[0], z := #[], y := #[], errZ := #[] }
  sigma := #[]
  eps := 1e-3

theorem guardedRequest_faultless : guardedRequest.fault? = none := by
  have tested : guardedRequest.fault?.isNone = true := by
    decide +kernel
  exact Option.isNone_iff_eq_none.mp tested

/-- The request is solved by its first iteration. -/
theorem guardedRequest_solved : ∃ summary,
    (guardedRequest.solve Observer.silent ()).result = .ok summary ∧ summary.iterations = 0 := by
  have answer : (match (guardedRequest.solve Observer.silent ()).result with
      | .ok summary => summary.iterations == 0
      | .error _ => false) = true := by
    decide +kernel
  split at answer
  · exact ⟨_, ‹_›, by simpa using answer⟩
  · cases answer

theorem solve_meetsTolerance_iff_guarded : ∃ summary,
    (guardedRequest.solve Observer.silent ()).result = .ok summary ∧
    ∃ job laps events state atHat, guardedRequest.accept = .ok job ∧
      job.Reaches laps events (.measured state atHat) ∧
      summary.iterations = laps.length ∧
      (job.MeetsTolerance state atHat ↔ AllOrdered (state.residualVector atHat)) := by
  obtain ⟨summary, solved, -⟩ := guardedRequest_solved
  obtain ⟨job, laps, events, state, atHat, accepted, reached, laps_eq, -, -, met_iff⟩ :=
    Request.solve_meetsTolerance_iff solved
  exact ⟨summary, solved, job, laps, events, state, atHat, accepted, reached, laps_eq, met_iff⟩

/-- The first iteration of the request measures a residual that is not a number. -/
theorem not_alwaysMeetsTolerance :
    ¬ ∀ request : Request Float Unit, request.AlwaysMeetsTolerance := by
  intro always
  obtain ⟨summary, solved, at_start⟩ := guardedRequest_solved
  obtain ⟨job, laps, events, state, atHat, accepted, reached, laps_eq, -, met⟩ :=
    always guardedRequest Observer.silent () summary solved
  obtain ⟨faultless, rfl⟩ := Request.accept_eq_ok accepted
  cases List.length_eq_zero_iff.mp (laps_eq.symm.trans at_start)
  have unordered : (match (guardedRequest.job guardedRequest_faultless).start with
      | .error _ => false
      | .ok state =>
        match (guardedRequest.job guardedRequest_faultless).merit.evaluate state.current.xHat
          state.ledger with
        | .error _ => false
        | .ok (atHat, _) =>
          Scalar.isNaN ((state.residualVector atHat).get ⟨0, by decide⟩)) = true := by
    decide +kernel
  cases reached with
  | measure ready evaluated =>
    cases ready with
    | start started =>
      rw [started] at unordered
      dsimp only at unordered
      rw [evaluated] at unordered
      exact Bool.false_ne_true ((met.ordered 0 (by decide)).symm.trans unordered)

end ProximalNewton
