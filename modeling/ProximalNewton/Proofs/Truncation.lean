import Mathlib.Data.List.TakeWhile
import ProximalNewton.Proofs.MachineLaws
import ProximalNewton.Proofs.Success
import ProximalNewton.Proofs.Transcript

/-!
# Limits only cut a solve short

Four things limit a solve: how many iterations it may make, the tolerance, how
often an iteration may tighten the step size, and the observer, which may stop
it. None of them enters the numbers of an iteration. They only decide where the
solve ends.

* `Job.adapt_within`, `Job.iterate_within` and `Job.run_within` compare a
  computation with the one under looser limits: they are the same, or the first
  one was cut short by one of its limits and has recorded a part of the events of
  the other one.
* `Job.run_heeding` does the same for an observer that may stop the run and one
  that does not.
* `Request.solve_onlyCut` is the law for whole solves.
-/

namespace ProximalNewton

/-! ## Limits -/

/-- What limits a solve, apart from its observer. -/
structure Limits (F : Type) where
  maxIter : Nat
  eps : F
  /-- How often an iteration may tighten the step size. -/
  maxUpdates : Nat

variable {F ε : Type} [Scalar F] {n m : Nat}

/-- The limits are in their ranges. -/
structure Limits.Valid (limits : Limits F) : Prop where
  maxIter_pos : 0 < limits.maxIter
  eps_pos : 0 < limits.eps

/-- The same settings but for their limits. -/
def Params.within (params : Params F) (limits : Limits F) : Params F :=
  { params with
    maxIter := limits.maxIter
    estimate := { params.estimate with maxUpdates := limits.maxUpdates } }

theorem Params.within_valid {params : Params F} {limits : Limits F} (params_valid : params.Valid)
    (valid : limits.Valid) : (params.within limits).Valid := by
  intro which
  cases which with
  | maxIter => exact valid.maxIter_pos
  | memoryDepth => exact params_valid .memoryDepth
  | curvatureTol => exact params_valid .curvatureTol
  | epsilon => exact params_valid .epsilon
  | delta => exact params_valid .delta
  | lMin => exact params_valid .lMin
  | tauMin => exact params_valid .tauMin

namespace Job

/-- The limits of a job. -/
def limits (job : Job F ε n m) : Limits F where
  maxIter := job.params.maxIter
  eps := job.eps
  maxUpdates := job.params.estimate.maxUpdates

/-- The same job under other limits. -/
def within (job : Job F ε n m) (limits : Limits F) (valid : limits.Valid) : Job F ε n m :=
  { job with
    params := job.params.within limits
    eps := limits.eps
    params_valid := Params.within_valid job.params_valid valid
    eps_pos := valid.eps_pos }

end Job

namespace Request

/-- The limits of a request. -/
def limits (request : Request F ε) : Limits F where
  maxIter := request.params.maxIter
  eps := request.eps
  maxUpdates := request.params.estimate.maxUpdates

/-- The same request under other limits. -/
def within (request : Request F ε) (limits : Limits F) : Request F ε :=
  { request with params := request.params.within limits, eps := limits.eps }

/-- Limits make no difference to the fault of a request if they are in their ranges
alike. -/
theorem fault?_within {request : Request F ε} {limits : Limits F}
    (maxIter : 0 < limits.maxIter ↔ 0 < request.limits.maxIter)
    (eps : 0 < limits.eps ↔ 0 < request.limits.eps) :
    (request.within limits).fault? = request.fault? := by
  have meets : ∀ which,
      (request.params.within limits).Meets which ↔ request.params.Meets which := by
    intro which
    cases which with
    | maxIter => exact maxIter
    | _ => exact Iff.rfl
  have params : (request.within limits).params.fault? = request.params.fault? := by
    show (request.params.within limits).fault? = request.params.fault?
    simp only [Params.fault?, meets]
  have tolerance : 0 < (request.within limits).eps ↔ 0 < request.eps := eps
  unfold fault?
  simp only [params, tolerance]
  rfl

end Request

/-- The second limits allow all that the first ones do. A number that passes the
second tolerance passes the first one. -/
structure Limits.Loosens (limits limits' : Limits F) : Prop where
  maxIter : limits.maxIter ≤ limits'.maxIter
  eps : ∀ value, Scalar.isNaN value = false → value ≤ limits'.eps → value ≤ limits.eps
  maxUpdates : limits.maxUpdates ≤ limits'.maxUpdates

/-- The residual that an iteration measures is a number. -/
theorem ordered_residual (ordered_zero : Scalar.isNaN (0 : F) = false) (gamma : F)
    (r gradHat grad : Vector F n) :
    Scalar.isNaN (ProximalNewton.residual gamma r gradHat grad) = false := by
  unfold ProximalNewton.residual
  rw [maxNorm_eq_foldl_toList]
  exact ordered_foldl_maxNum _ ordered_zero

/-! ## Computations that are given up -/

namespace Traced

variable {ω ε α β : Type} {kind : ε → Prop}

/-- The first computation is the second one, or has been given up with an error of
the kind after a part of its events. -/
def CutBy (kind : ε → Prop) (shorter longer : Traced ω ε α) : Prop :=
  shorter = longer ∨
    (∃ error, shorter.result = .error error ∧ kind error) ∧ shorter.events <+: longer.events

theorem prefix_events_bind (first : Traced ω ε β) (next : β → Traced ω ε α) :
    first.events <+: (first >>= next).events := by
  cases result : first.result with
  | error error =>
    rw [bind_of_error result]
  | ok value =>
    rw [bind_of_ok result]
    exact List.prefix_append _ _

theorem CutBy.bind {shorter longer : Traced ω ε β} (cut : shorter.CutBy kind longer)
    (next : β → Traced ω ε α) : (shorter >>= next).CutBy kind (longer >>= next) := by
  rcases cut with rfl | ⟨⟨error, failed, of_kind⟩, part⟩
  · exact Or.inl rfl
  · rw [bind_of_error failed]
    exact Or.inr ⟨⟨error, rfl, of_kind⟩, part.trans (longer.prefix_events_bind next)⟩

theorem CutBy.emit_bind {event : ω} {next next' : Unit → Traced ω ε α}
    (cut : (next ()).CutBy kind (next' ())) :
    (emit event >>= next).CutBy kind (emit event >>= next') := by
  rcases cut with same | ⟨failed, part⟩
  · left
    rw [Traced.emit_bind, Traced.emit_bind, same]
  · exact Or.inr ⟨failed, List.cons_prefix_cons.mpr ⟨rfl, part⟩⟩

theorem cutBy_ofExcept_bind {result : Except ε β} {next next' : β → Traced ω ε α}
    (cut : ∀ value, result = .ok value → (next value).CutBy kind (next' value)) :
    (ofExcept result >>= next).CutBy kind (ofExcept result >>= next') := by
  cases result with
  | error error => exact Or.inl rfl
  | ok value => exact cut value rfl

end Traced

/-! ## Iterations under looser limits -/

namespace Job

/-- The error of an adaptation that has no tightenings left where another one has. -/
def OutOfUpdates (k updates left left' : Nat) (error : SolveError F ε) : Prop :=
  left < left' ∧ ∃ lipschitz, error = .stepSize k (updates + left) lipschitz

/-- An adaptation under fewer permitted tightenings is the same, or has given up
after all of them. -/
theorem adapt_within (job : Job F ε n m) {limits : Limits F} (valid : limits.Valid)
    (k updates : Nat) {left left' : Nat} (fewer : left ≤ left') (state : State F n m job.depth)
    (psiHat : F) :
    (job.adapt k updates left state psiHat).CutBy (OutOfUpdates k updates left left')
      ((job.within limits valid).adapt k updates left' state psiHat) := by
  induction left generalizing updates left' state psiHat with
  | zero =>
    by_cases exceeds : state.current.descentLimit state.step < psiHat
    · rw [job.adapt_of_exhausted exceeds]
      cases left' with
      | zero =>
        rw [(job.within limits valid).adapt_of_exhausted exceeds]
        exact Or.inl rfl
      | succ left' => exact Or.inr ⟨⟨_, rfl, Nat.succ_pos left', _, rfl⟩, List.nil_prefix⟩
    · rw [job.adapt_of_le exceeds, (job.within limits valid).adapt_of_le exceeds]
      exact Or.inl rfl
  | succ left ih =>
    obtain ⟨left', rfl⟩ : ∃ more, left' = more + 1 := Nat.exists_eq_succ_of_ne_zero (by omega)
    by_cases exceeds : state.current.descentLimit state.step < psiHat
    · rw [job.adapt_of_exceeds exceeds, (job.within limits valid).adapt_of_exceeds exceeds]
      refine Traced.CutBy.emit_bind (Traced.cutBy_ofExcept_bind ?_)
      intro answer evaluated
      rcases answer with ⟨value, ledger⟩
      have rest := ih (updates + 1) (Nat.le_of_succ_le_succ fewer)
        { job.tighten state with ledger } value.psi
      unfold OutOfUpdates at rest ⊢
      rw [Nat.add_right_comm, Nat.add_assoc] at rest
      simp only [Nat.add_lt_add_iff_right]
      exact rest
    · rw [job.adapt_of_le exceeds, (job.within limits valid).adapt_of_le exceeds]
      exact Or.inl rfl

/-- The first iteration is the second one, which is under looser limits, or has been
cut short: it may not tighten the step size again, or its residual meets only the
tolerance of the first one. -/
inductive IterationCut (job : Job F ε n m) (limits : Limits F) (k : Nat)
    (block block' : Traced (Event F) (SolveError F ε) (Progress F n m job.depth)) : Prop
  | same : block = block' → IterationCut job limits k block block'
  | stepSize {updates lipschitz} :
    job.limits.maxUpdates < limits.maxUpdates →
    block.result = .error (.stepSize k updates lipschitz) → block.events ≠ [] →
    block.events <+: block'.events → IterationCut job limits k block block'
  | converged {opening} {solution : Solution F n m} :
    opening.iteration = k → solution.summary.iterations = k →
    opening.residual ≤ job.limits.eps → ¬ opening.residual ≤ limits.eps →
    block.result = .ok (.converged solution) →
    block.events = [.iteration opening, .finished solution.summary] →
    [.iteration opening] <+: block'.events → IterationCut job limits k block block'

theorem iterate_within (job : Job F ε n m) {limits : Limits F} (valid : limits.Valid)
    (looser : job.limits.Loosens limits) (ordered_zero : Scalar.isNaN (0 : F) = false) (k : Nat)
    (state : State F n m job.depth) :
    job.IterationCut limits k (job.iterate k state)
      ((job.within limits valid).iterate k state) := by
  cases evaluated : job.merit.evaluate state.current.xHat state.ledger with
  | error cause =>
    rw [job.iterate_of_error evaluated, (job.within limits valid).iterate_of_error evaluated]
    exact .same rfl
  | ok answer =>
    rcases answer with ⟨atHat, ledger⟩
    have ordered : Scalar.isNaN (State.residual { state with ledger } atHat) = false :=
      ordered_residual ordered_zero _ _ _ _
    by_cases strict : State.residual { state with ledger } atHat ≤ limits.eps
    · have met : State.residual { state with ledger } atHat ≤ job.eps :=
        looser.eps _ ordered strict
      rw [job.iterate_of_met evaluated met,
        (job.within limits valid).iterate_of_met evaluated strict]
      exact .same rfl
    by_cases met : State.residual { state with ledger } atHat ≤ job.eps
    · rw [job.iterate_of_met evaluated met,
        (job.within limits valid).iterate_of_unmet evaluated strict]
      exact .converged rfl rfl met strict rfl rfl ⟨_, rfl⟩
    · -- the search and the step to the next iteration know no limit
      have adapted := job.adapt_within valid k 0 looser.maxUpdates { state with ledger } atHat.psi
      have cut : (job.iterate k state).CutBy
          (OutOfUpdates k 0 job.limits.maxUpdates limits.maxUpdates)
          ((job.within limits valid).iterate k state) := by
        rw [job.iterate_of_unmet evaluated met,
          (job.within limits valid).iterate_of_unmet evaluated strict]
        exact Traced.CutBy.emit_bind (adapted.bind _)
      have reported : (job.iterate k state).events ≠ [] := by
        rw [job.iterate_of_unmet evaluated met]
        exact List.cons_ne_nil _ _
      rcases cut with same | ⟨⟨error, failed, fewer, lipschitz, rfl⟩, part⟩
      · exact .same same
      · exact .stepSize fewer failed reported part

end Job

/-! ## Runs under looser limits -/

/-- The iteration that reports an event. -/
def Event.number {F : Type} : Event F → Nat
  | .iteration report => report.iteration
  | .tightened report => report.iteration
  | .rejected report => report.iteration
  | .accepted report => report.iteration
  | .stalled report => report.iteration
  | .finished summary => summary.iterations

omit [Scalar F] in
theorem Draft.IsOf.number {limit k : Nat} {draft : Draft F} (own : draft.IsOf limit k) :
    ∀ event ∈ draft.events, event.number = k := by
  intro event member
  simp only [Draft.events, List.mem_cons, List.mem_append, List.mem_map] at member
  rcases member with rfl | ⟨report, inside, rfl⟩ | ⟨report, inside, rfl⟩
  · exact own.opening
  · exact own.tightenings.own report inside
  · exact own.retries report inside

namespace Job

variable {σ : Type} {job : Job F ε n m}

theorem IterationShape.number {k : Nat} {events : List (Event F)}
    {answer : Except (SolveError F ε) (Progress F n m job.depth)}
    (shape : job.IterationShape k events answer) : ∀ event ∈ events, event.number = k := by
  cases shape with
  | unmeasured => exact nofun
  | converged own _ iterations _ =>
    simp only [List.forall_mem_cons]
    exact ⟨own, iterations, nofun⟩
  | failed drafts => exact drafts.isOf.number
  | stepSize drafts _ _ => exact drafts.isOf.number
  | @advanced block next drafts own =>
    intro event member
    rcases List.mem_append.mp member with before | latest
    · exact drafts.isOf.number event before
    · rw [List.mem_singleton.mp latest]
      unfold verdict
      split
      · exact own
      · exact own

/-- An iteration that converges counts the iterations before it. -/
theorem IterationShape.iterations {k : Nat} {events : List (Event F)} {solution : Solution F n m}
    (shape : job.IterationShape k events (.ok (.converged solution))) :
    solution.summary.iterations = k := by
  cases shape with
  | converged _ _ iterations _ => exact iterations

/-- A run adds the events of its own iterations to those that were noted before. -/
theorem run_extends (job : Job F ε n m) (observer : Observer F σ) (left iteration : Nat)
    (state : State F n m job.depth) (noted : σ × List (Event F)) :
    ∃ own, (job.run observer.noting left iteration state noted).1.2 = noted.2 ++ own ∧
      ∀ event ∈ own, iteration ≤ event.number := by
  have own : ∀ (iteration : Nat) (state : State F n m job.depth),
      ∀ event ∈ (job.iterate iteration state).events, iteration ≤ event.number := by
    intro iteration state event member
    exact Nat.le_of_eq ((job.iterate_shape iteration state).number event member).symm
  fun_induction Job.run job observer.noting left iteration state noted with
  | case1 left iteration state noted after asked =>
    exact ⟨[], by rw [Observer.noted_of_asked asked, List.append_nil], List.forall_mem_nil _⟩
  | case2 left iteration state noted after asked =>
    exact ⟨_, Observer.noted_iteration asked _, own iteration state⟩
  | case3 left iteration state noted after asked =>
    exact ⟨_, Observer.noted_iteration asked _, own iteration state⟩
  | case4 iteration state noted after asked =>
    exact ⟨_, Observer.noted_iteration asked _, own iteration state⟩
  | case5 iteration state noted after asked block told residual next advanced left ih =>
    obtain ⟨later, events_eq, from_next⟩ := ih
    have told_eq : told.2 = noted.2 ++ block.events := Observer.noted_iteration asked _
    refine ⟨block.events ++ later, ?_, ?_⟩
    · rw [events_eq, told_eq, List.append_assoc]
    · intro event member
      rcases List.mem_append.mp member with first | rest
      · exact own iteration state event first
      · exact Nat.le_of_succ_le (from_next event rest)

/-- A run notes the events of its first iteration first. -/
theorem iterate_prefix_run (job : Job F ε n m) {observer : Observer F σ} (left : Nat)
    {iteration : Nat} (state : State F n m job.depth) {noted after : σ × List (Event F)}
    (asked : observer.noting.wantsStop noted iteration = (false, after)) :
    noted.2 ++ (job.iterate iteration state).events <+:
      (job.run observer.noting left iteration state noted).1.2 := by
  rw [← Observer.noted_iteration asked]
  rcases result : (job.iterate iteration state).result with error | solution | ⟨residual, next⟩
  · rw [run_of_error asked result]
  · rw [run_of_converged asked result]
  · cases left with
    | zero =>
      rw [run_of_limit asked result]
    | succ left =>
      rw [run_of_advanced asked result]
      obtain ⟨later, events_eq, -⟩ := job.run_extends observer left (iteration + 1) next _
      exact ⟨later, events_eq.symm⟩

/-- A run that starts with an iteration converges in no earlier one. -/
theorem run_iterations {observer : Observer F σ} {left iteration : Nat}
    {state : State F n m job.depth} {listener : σ} {solution : Solution F n m}
    (solved : (job.run observer left iteration state listener).2 = .ok solution) :
    iteration ≤ solution.summary.iterations := by
  fun_induction Job.run job observer left iteration state listener with
  | case1 | case2 | case4 => cases solved
  | case3 left iteration state listener after asked block told solution' =>
    rename_i converged
    cases solved
    have shape := job.iterate_shape iteration state
    rw [converged] at shape
    exact Nat.le_of_eq shape.iterations.symm
  | case5 iteration state listener after asked block told residual next advanced left ih =>
    exact Nat.le_of_succ_le (ih solved)

/-- What a run leaves whose events are noted: the observer, the events, and the
answer. -/
abbrev NotedRun (F ε σ : Type) (n m : Nat) : Type :=
  (σ × List (Event F)) × Except (SolveError F ε) (Solution F n m)

/-- The first of two noted runs is the second one, which is under looser limits, or
has been cut short by one of its own limits. -/
inductive RunCut (job : Job F ε n m) (limits : Limits F) (ran ran' : NotedRun F ε σ n m) : Prop
  | same : ran = ran' → RunCut job limits ran ran'
  | iterationLimit {iterations residual} :
    job.limits.maxIter < limits.maxIter →
    ran.2 = .error (.iterationLimit iterations residual) → ran.1.2 <+: ran'.1.2 →
    RunCut job limits ran ran'
  | stepSize {k updates lipschitz} :
    job.limits.maxUpdates < limits.maxUpdates →
    ran.2 = .error (.stepSize k updates lipschitz) → ran.1.2 ≠ [] → ran.1.2 <+: ran'.1.2 →
    RunCut job limits ran ran'
  | converged {before opening solution} :
    opening.iteration = solution.summary.iterations →
    opening.residual ≤ job.limits.eps → ¬ opening.residual ≤ limits.eps →
    ran.2 = .ok solution →
    ran.1.2 = before ++ [.iteration opening, .finished solution.summary] →
    before ++ [.iteration opening] <+: ran'.1.2 →
    (∀ solution', ran'.2 = .ok solution' →
      solution.summary.iterations ≤ solution'.summary.iterations) →
    RunCut job limits ran ran'

theorem run_within (job : Job F ε n m) {limits : Limits F} (valid : limits.Valid)
    (looser : job.limits.Loosens limits) (ordered_zero : Scalar.isNaN (0 : F) = false)
    (observer : Observer F σ) {left left' iteration : Nat} (state : State F n m job.depth)
    (noted : σ × List (Event F)) (permitted : iteration + left + 1 = job.limits.maxIter)
    (permitted' : iteration + left' + 1 = limits.maxIter) :
    job.RunCut limits (job.run observer.noting left iteration state noted)
      ((job.within limits valid).run observer.noting left' iteration state noted) := by
  -- both runs make the same iterations until the first one is cut short
  fun_induction Job.run job observer.noting left iteration state noted generalizing left' with
  | case1 left iteration state noted after asked =>
    exact .same (run_of_stop asked).symm
  | case2 left iteration state noted after asked block told error =>
    rename_i failed
    have told_eq : told.2 = noted.2 ++ block.events := Observer.noted_iteration asked _
    have later := (job.within limits valid).iterate_prefix_run left' state asked
    cases job.iterate_within valid looser ordered_zero iteration state with
    | same same =>
      have longer : (job.within limits valid).run observer.noting left' iteration state noted = _ :=
        run_of_error asked ((congrArg (·.result) same).symm.trans failed)
      rw [← same] at longer
      exact .same longer.symm
    | stepSize fewer exhausted reported part =>
      cases failed.symm.trans exhausted
      refine .stepSize fewer rfl ?_ ?_
      · rw [told_eq]
        exact List.append_ne_nil_of_right_ne_nil _ reported
      · rw [told_eq]
        exact ((List.prefix_append_right_inj _).mpr part).trans later
    | converged _ _ _ _ met _ _ => cases failed.symm.trans met
  | case3 left iteration state noted after asked block told solution =>
    rename_i met
    have told_eq : told.2 = noted.2 ++ block.events := Observer.noted_iteration asked _
    have later := (job.within limits valid).iterate_prefix_run left' state asked
    cases job.iterate_within valid looser ordered_zero iteration state with
    | same same =>
      have longer : (job.within limits valid).run observer.noting left' iteration state noted = _ :=
        run_of_converged asked ((congrArg (·.result) same).symm.trans met)
      rw [← same] at longer
      exact .same longer.symm
    | stepSize _ exhausted _ _ => cases met.symm.trans exhausted
    | @converged opening _ own iterations within strict converged reported part =>
      cases met.symm.trans converged
      rw [show block.events = _ from reported] at told_eq
      refine .converged (own.trans iterations.symm) within strict rfl told_eq ?_ ?_
      · exact ((List.prefix_append_right_inj _).mpr part).trans later
      · intro solution' solved
        rw [iterations]
        exact run_iterations solved
  | case4 iteration state noted after asked block told residual next =>
    rename_i advanced
    have told_eq : told.2 = noted.2 ++ block.events := Observer.noted_iteration asked _
    cases job.iterate_within valid looser ordered_zero iteration state with
    | same same =>
      cases left' with
      | zero =>
        have longer := run_of_limit asked ((congrArg (·.result) same).symm.trans advanced)
        rw [← same] at longer
        exact .same longer.symm
      | succ left' =>
        have later := (job.within limits valid).iterate_prefix_run (left' + 1) state asked
        rw [← same, ← told_eq] at later
        exact .iterationLimit (by omega) rfl later
    | stepSize _ exhausted _ _ => cases advanced.symm.trans exhausted
    | converged _ _ _ _ met _ _ => cases advanced.symm.trans met
  | case5 iteration state noted after asked block told residual next =>
    rename_i advanced left ih
    cases job.iterate_within valid looser ordered_zero iteration state with
    | same same =>
      obtain ⟨left', rfl⟩ : ∃ more, left' = more + 1 := by
        have := looser.maxIter
        exact Nat.exists_eq_succ_of_ne_zero (by omega)
      have longer : (job.within limits valid).run observer.noting (left' + 1) iteration state
          noted = _ :=
        run_of_advanced asked ((congrArg (·.result) same).symm.trans advanced)
      rw [← same] at longer
      rw [longer]
      exact ih (by omega) (by omega)
    | stepSize _ exhausted _ _ => cases advanced.symm.trans exhausted
    | converged _ _ _ _ met _ _ => cases advanced.symm.trans met

/-- A solve under looser limits is the same, or is cut short by its own ones. -/
theorem solve_within (job : Job F ε n m) {limits : Limits F} (valid : limits.Valid)
    (looser : job.limits.Loosens limits) (ordered_zero : Scalar.isNaN (0 : F) = false)
    (observer : Observer F σ) (listener : σ) :
    job.RunCut limits (job.solve observer.noting (listener, []))
      ((job.within limits valid).solve observer.noting (listener, [])) := by
  cases started : job.start with
  | error error =>
    rw [job.solve_of_error started, (job.within limits valid).solve_of_error started]
    exact .same rfl
  | ok state =>
    rw [job.solve_of_started started, (job.within limits valid).solve_of_started started]
    have positive : 0 < job.params.maxIter := job.params_valid .maxIter
    have permitted : 0 + (job.params.maxIter - 1) + 1 = job.params.maxIter := by omega
    have positive' : 0 < limits.maxIter := valid.maxIter_pos
    have permitted' : 0 + (limits.maxIter - 1) + 1 = limits.maxIter := by omega
    exact job.run_within valid looser ordered_zero observer state _ permitted permitted'

/-- Jobs that are solved alike when their events are kept are solved alike. -/
theorem solve_congr {job' : Job F ε n m} {observer : Observer F σ} {listener : σ}
    (same : job.solve observer.noting (listener, []) =
      job'.solve observer.noting (listener, [])) :
    job.solve observer listener = job'.solve observer listener := by
  have view := job.solve_view observer.noting_refines (listener, [])
  have view' := job'.solve_view observer.noting_refines (listener, [])
  rw [← same] at view'
  exact view.trans view'.symm

/-- A solve that converges ends by reporting its last residual and its end. -/
theorem events_of_converged {observer : Observer F σ} {listener : σ} {solution : Solution F n m}
    (solved : (job.solve observer listener).2 = .ok solution) :
    ∃ before opening,
      job.events observer listener = before ++ [.iteration opening, .finished solution.summary] ∧
      opening.iteration = solution.summary.iterations := by
  obtain ⟨blocks, closing, -, signals, closes⟩ := job.solve_transcript observer listener
  obtain ⟨before, opening, same, -, iterations, -⟩ :=
    (closes.converged_iff solution.summary).mp ⟨solution, solved, rfl⟩
  refine ⟨before.filterMap Signal.event?, opening, ?_, iterations.symm⟩
  rw [job.events_eq_transcript, signals, same, List.filterMap_append]
  rfl

end Job

/-! ## Observers that stop a run -/

theorem takeWhile_append_eq_left {α : Type} {p : α → Bool} {first rest : List α}
    (inside : ∀ a ∈ first, p a = true) (outside : ∀ a ∈ rest, p a = false) :
    (first ++ rest).takeWhile p = first := by
  rw [List.takeWhile_append_of_pos inside]
  cases rest with
  | nil => exact List.append_nil first
  | cons a rest =>
    have stops : ¬ p a = true := by simp [outside a List.mem_cons_self]
    rw [List.takeWhile_cons_of_neg stops, List.append_nil]

namespace Job

variable {σ : Type} {job : Job F ε n m}

/-- No iteration interrupts a solve. -/
theorem IterationShape.not_interrupted {k : Nat} {events : List (Event F)} {error : SolveError F ε}
    (shape : job.IterationShape k events (.error error)) (stop : Nat) :
    error ≠ .interrupted stop := by
  cases shape with
  | unmeasured => exact nofun
  | failed => exact nofun
  | stepSize => exact nofun

/-- The first of two noted runs is the second one, or has been interrupted. -/
inductive Heeds {τ : Type} (ran : NotedRun F ε σ n m) (ran' : NotedRun F ε τ n m) : Prop
  | same : (∀ k, ran.2 ≠ .error (.interrupted k)) → ran.2 = ran'.2 → ran.1.2 = ran'.1.2 →
    Heeds ran ran'
  | interrupted {k} : ran.2 = .error (.interrupted k) →
    ran.1.2 = ran'.1.2.takeWhile (·.number < k) → Heeds ran ran'

omit [Scalar F] in
/-- Runs that are not interrupted are the same. -/
theorem Heeds.same_of_undisturbed {τ υ : Type}
    {ran : NotedRun F ε σ n m} {ran' : NotedRun F ε τ n m} {base : NotedRun F ε υ n m}
    (heeds : Heeds ran base) (heeds' : Heeds ran' base)
    (undisturbed : ∀ k, ran.2 ≠ .error (.interrupted k))
    (undisturbed' : ∀ k, ran'.2 ≠ .error (.interrupted k)) :
    ran.2 = ran'.2 ∧ ran.1.2 = ran'.1.2 := by
  cases heeds with
  | interrupted stopped => exact absurd stopped (undisturbed _)
  | same _ answer events =>
    cases heeds' with
    | interrupted stopped => exact absurd stopped (undisturbed' _)
    | same _ answer' events' => exact ⟨answer.trans answer'.symm, events.trans events'.symm⟩

omit [Scalar F] in
/-- Of two runs the one that is interrupted first is a part of the other one. -/
theorem Heeds.takeWhile_of_interrupted {τ υ : Type}
    {ran : NotedRun F ε σ n m} {ran' : NotedRun F ε τ n m} {base : NotedRun F ε υ n m}
    (heeds : Heeds ran base) (heeds' : Heeds ran' base) {k : Nat}
    (stopped : ran.2 = .error (.interrupted k))
    (not_before : ∀ earlier < k, ran'.2 ≠ .error (.interrupted earlier)) :
    ran.1.2 = ran'.1.2.takeWhile (·.number < k) := by
  cases heeds with
  | same undisturbed => exact absurd stopped (undisturbed k)
  | interrupted stopped_at part =>
    cases stopped_at.symm.trans stopped
    cases heeds' with
    | same _ _ events' => rw [events', part]
    | @interrupted k' stopped' part' =>
      have later : k ≤ k' := Nat.le_of_not_lt fun before => not_before k' before stopped'
      have both : ∀ event : Event F,
          (decide (event.number < k) = true ∧ decide (event.number < k') = true) ↔
            event.number < k := by
        intro event
        simp only [decide_eq_true_eq]
        omega
      rw [part, part', List.takeWhile_takeWhile]
      simp only [both]

/-- A run under an observer is the run under one that never stops it, up to where
it is interrupted. -/
theorem run_heeding (observer : Observer F σ) {left iteration : Nat}
    {state : State F n m job.depth} {noted : σ × List (Event F)}
    {noted' : Unit × List (Event F)} (same : noted.2 = noted'.2)
    (earlier : ∀ event ∈ noted.2, event.number < iteration) :
    Heeds (job.run observer.noting left iteration state noted)
      (job.run Observer.silent.noting left iteration state noted') := by
  have told_eq : ∀ {noted after : σ × List (Event F)} {iteration : Nat}
      {noted' : Unit × List (Event F)} (events : List (Event F)),
      observer.noting.wantsStop noted iteration = (false, after) → noted.2 = noted'.2 →
      (observer.noting.observeAll after events).2 =
        (Observer.silent.noting.observeAll noted' events).2 := by
    intro noted after iteration noted' events asked same
    rw [Observer.noted_iteration asked, Observer.noted_observeAll, same]
  fun_induction Job.run job observer.noting left iteration state noted generalizing noted' with
  | case1 left iteration state noted after asked =>
    obtain ⟨own, events_eq, later⟩ := job.run_extends Observer.silent left iteration state noted'
    refine .interrupted rfl ?_
    rw [events_eq, ← same, Observer.noted_of_asked asked]
    symm
    apply takeWhile_append_eq_left
    · intro event member
      exact decide_eq_true (earlier event member)
    · intro event member
      exact decide_eq_false (Nat.not_lt.mpr (later event member))
  | case2 left iteration state noted after asked block told error =>
    rename_i failed
    have shape := job.iterate_shape iteration state
    rw [failed] at shape
    rw [run_of_error rfl failed]
    refine .same ?_ rfl (told_eq _ asked same)
    intro k interrupted
    exact shape.not_interrupted k (Except.error.inj interrupted)
  | case3 left iteration state noted after asked block told solution =>
    rename_i converged
    rw [run_of_converged rfl converged]
    refine .same ?_ rfl (told_eq _ asked same)
    intro k interrupted
    cases interrupted
  | case4 iteration state noted after asked block told residual next =>
    rename_i advanced
    rw [run_of_limit rfl advanced]
    refine .same ?_ rfl (told_eq _ asked same)
    intro k interrupted
    cases interrupted
  | case5 iteration state noted after asked block told residual next =>
    rename_i advanced left ih
    rw [run_of_advanced rfl advanced]
    refine ih (told_eq _ asked same) ?_
    rw [Observer.noted_iteration asked]
    intro event member
    rcases List.mem_append.mp member with before | latest
    · exact Nat.lt_succ_of_lt (earlier event before)
    · have own := (job.iterate_shape iteration state).number event latest
      exact Nat.lt_succ_of_le (Nat.le_of_eq own)

/-- A solve under an observer is the solve under one that never stops it, up to
where it is interrupted. -/
theorem solve_heeding (job : Job F ε n m) (observer : Observer F σ) (listener : σ) :
    Heeds (job.solve observer.noting (listener, []))
      (job.solve Observer.silent.noting ((), [])) := by
  cases started : job.start with
  | error error =>
    rw [job.solve_of_error started, job.solve_of_error started]
    refine .same ?_ rfl rfl
    intro k interrupted
    rcases start_eq_error started with ⟨cause, rfl⟩ | ⟨lipschitz, -, -, rfl⟩
    · cases interrupted
    · cases interrupted
  | ok state =>
    rw [job.solve_of_started started, job.solve_of_started started]
    exact run_heeding observer rfl (List.forall_mem_nil _)

end Job

/-! ## The law for whole solves -/

namespace Request

variable {σ τ : Type} {request request' : Request F ε} {observer : Observer F σ} {listener : σ}

/-- Two requests are solved alike: with the same events, summary and buffers, and
leaving the observer in the same state. -/
structure SolvedAs (request request' : Request F ε) (observer : Observer F σ) (listener : σ) :
    Prop where
  outcome : request.solve observer listener = request'.solve observer listener
  events : request.events observer listener = request'.events observer listener

/-- A request that is refused under its own limits and under others is solved alike. -/
theorem solvedAs_of_fault {fault : SolveError F ε} {limits : Limits F}
    (found : request.fault? = some fault) (alike : (request.within limits).fault? = request.fault?)
    (observer : Observer F σ) (listener : σ) :
    request.SolvedAs (request.within limits) observer listener := by
  have found' : (request.within limits).fault? = some fault := alike.trans found
  constructor
  · rw [solve_of_fault found, solve_of_fault found']
    rfl
  · rw [events_of_fault found, events_of_fault found']

/-- A request is solved as it is under looser limits, or its solve is cut short by
one of its own limits. -/
inductive Cut (request : Request F ε) (limits : Limits F) (observer : Observer F σ)
    (listener : σ) : Prop
  | same : request.SolvedAs (request.within limits) observer listener →
    Cut request limits observer listener
  | iterationLimit {iterations residual} :
    request.limits.maxIter < limits.maxIter →
    (request.solve observer listener).result = .error (.iterationLimit iterations residual) →
    request.events observer listener <+: (request.within limits).events observer listener →
    Cut request limits observer listener
  | stepSize {k updates lipschitz} :
    request.limits.maxUpdates < limits.maxUpdates →
    (request.solve observer listener).result = .error (.stepSize k updates lipschitz) →
    request.events observer listener ≠ [] →
    request.events observer listener <+: (request.within limits).events observer listener →
    Cut request limits observer listener
  | converged {before opening} {summary : Summary F} :
    opening.iteration = summary.iterations →
    opening.residual ≤ request.limits.eps → ¬ opening.residual ≤ limits.eps →
    (request.solve observer listener).result = .ok summary →
    request.events observer listener = before ++ [.iteration opening, .finished summary] →
    before ++ [.iteration opening] <+: (request.within limits).events observer listener →
    (∀ summary', ((request.within limits).solve observer listener).result = .ok summary' →
      summary.iterations ≤ summary'.iterations) →
    Cut request limits observer listener

omit [Scalar F] in
theorem outcome_within {limits : Limits F} {n m : Nat}
    (answered : σ × Except (SolveError F ε) (Solution F n m)) :
    (request.within limits).outcome answered = request.outcome answered := by
  rcases answered with ⟨listener, _ | _⟩
  · rfl
  · rfl

theorem solve_cut {limits : Limits F} (looser : request.limits.Loosens limits)
    (alike : (request.within limits).fault? = request.fault?)
    (ordered_zero : Scalar.isNaN (0 : F) = false)
    (observer : Observer F σ) (listener : σ) : request.Cut limits observer listener := by
  cases faultless : request.fault? with
  | some fault =>
    exact .same (solvedAs_of_fault faultless alike observer listener)
  | none =>
    have faultless' : (request.within limits).fault? = none := alike.trans faultless
    have valid : limits.Valid := by
      obtain ⟨-, -, -, -, -, params_valid, eps_pos⟩ := fault?_eq_none_iff.mp faultless'
      exact ⟨params_valid .maxIter, eps_pos⟩
    have events_eq := events_eq faultless observer listener
    have events_eq' := Request.events_eq faultless' observer listener
    -- the answer to a noted solve is the answer to the solve
    have answer_eq := (request.job faultless).solve_noting observer listener
    have answer_eq' := ((request.within limits).job faultless').solve_noting observer listener
    cases (request.job faultless).solve_within valid looser ordered_zero observer listener with
    | same same =>
      refine .same ⟨?_, ?_⟩
      · rw [solve_eq_outcome faultless, solve_eq_outcome faultless', outcome_within]
        exact congrArg request.outcome (Job.solve_congr same)
      · rw [events_eq, events_eq']
        exact congrArg (·.1.2) same
    | iterationLimit fewer failed part =>
      have failed' := (solve_eq_error_iff faultless).mpr (answer_eq.symm.trans failed)
      refine .iterationLimit fewer failed' ?_
      rw [events_eq, events_eq']
      exact part
    | stepSize fewer failed reported part =>
      have failed' := (solve_eq_error_iff faultless).mpr (answer_eq.symm.trans failed)
      refine .stepSize fewer failed' ?_ ?_
      · rw [events_eq]
        exact reported
      · rw [events_eq, events_eq']
        exact part
    | @converged before opening solution iterations within strict succeeded reported part later =>
      have succeeded' := (solve_eq_ok_iff faultless).mpr
        ⟨solution, answer_eq.symm.trans succeeded, rfl⟩
      refine .converged iterations within strict succeeded' (events_eq.trans reported) ?_ ?_
      · rw [events_eq']
        exact part
      · intro summary' solved
        obtain ⟨solution', answered, rfl⟩ := (solve_eq_ok_iff faultless').mp solved
        exact later solution' (answer_eq'.trans answered)

/-- A request that is solved has reported its last residual and its end. -/
theorem events_of_ok {summary : Summary F}
    (solved : (request.solve observer listener).result = .ok summary) :
    ∃ before opening,
      request.events observer listener = before ++ [.iteration opening, .finished summary] ∧
      opening.iteration = summary.iterations := by
  obtain ⟨job, solution, accepted, answered, -, rfl⟩ := solve_eq_ok solved
  obtain ⟨faultless, rfl⟩ := accept_eq_ok accepted
  rw [events_eq faultless]
  exact Job.events_of_converged answered

/-- More iterations make no difference unless the solve fails for want of them, and
then they continue it. The request permits some iteration: with `maxIter = 0` it is refused
and there is no run to continue. -/
def ContinuedByIterations (request : Request F ε) (observer : Observer F σ) (listener : σ) :
    Prop :=
  ∀ limit, 0 < request.limits.maxIter → request.limits.maxIter ≤ limit →
    let longer := request.within { request.limits with maxIter := limit }
    ((∀ iterations residual, (request.solve observer listener).result ≠
        .error (.iterationLimit iterations residual)) →
      request.SolvedAs longer observer listener) ∧
    ∀ iterations residual, (request.solve observer listener).result =
        .error (.iterationLimit iterations residual) →
      request.events observer listener <+: longer.events observer listener

theorem continuedByIterations (request : Request F ε)
    (ordered_zero : Scalar.isNaN (0 : F) = false) (observer : Observer F σ) (listener : σ) :
    request.ContinuedByIterations observer listener := by
  intro limit positive more longer
  have looser : request.limits.Loosens { request.limits with maxIter := limit } :=
    ⟨more, fun _ _ small => small, Nat.le_refl _⟩
  have alike : longer.fault? = request.fault? :=
    fault?_within (iff_of_true (Nat.lt_of_lt_of_le positive more) positive) Iff.rfl
  cases solve_cut looser alike ordered_zero observer listener with
  | same same =>
    refine ⟨fun _ => same, ?_⟩
    intro iterations residual failed
    rw [same.events]
  | iterationLimit _ failed part =>
    exact ⟨fun unlimited => absurd failed (unlimited _ _), fun _ _ _ => part⟩
  | stepSize fewer => exact absurd fewer (Nat.lt_irrefl _)
  | converged _ within strict => exact absurd within strict

/-- A smaller tolerance makes no difference unless the solve succeeds, and then it
continues it after its last residual. -/
def ContinuedByTolerance (request : Request F ε) (observer : Observer F σ) (listener : σ) :
    Prop :=
  ∀ eps, 0 < eps → 0 < request.limits.eps → eps ≤ request.limits.eps →
    let longer := request.within { request.limits with eps }
    ((∀ summary, (request.solve observer listener).result ≠ .ok summary) →
      request.SolvedAs longer observer listener) ∧
    ∀ summary, (request.solve observer listener).result = .ok summary →
      (∃ before opening,
        request.events observer listener = before ++ [.iteration opening, .finished summary] ∧
        opening.iteration = summary.iterations ∧
        before ++ [.iteration opening] <+: longer.events observer listener) ∧
      ∀ summary', (longer.solve observer listener).result = .ok summary' →
        summary.iterations ≤ summary'.iterations

theorem continuedByTolerance [TransitiveScalar F] (request : Request F ε)
    (observer : Observer F σ) (listener : σ) :
    request.ContinuedByTolerance observer listener := by
  intro eps positive eps_pos smaller longer
  have looser : request.limits.Loosens { request.limits with eps } := by
    refine ⟨Nat.le_refl _, ?_, Nat.le_refl _⟩
    intro value ordered small
    exact TransitiveScalar.le_trans ordered (TransitiveScalar.ordered_of_pos positive)
      (TransitiveScalar.ordered_of_pos eps_pos) small smaller
  have alike : longer.fault? = request.fault? :=
    fault?_within Iff.rfl (iff_of_true positive eps_pos)
  cases solve_cut looser alike TransitiveScalar.ordered_zero observer listener with
  | same same =>
    refine ⟨fun _ => same, ?_⟩
    intro summary solved
    obtain ⟨before, opening, reported, iterations⟩ := events_of_ok solved
    refine ⟨⟨before, opening, reported, iterations, ?_⟩, ?_⟩
    · rw [← same.events, reported]
      exact (List.prefix_append_right_inj _).mpr ⟨_, rfl⟩
    · intro summary' solved'
      rw [← same.outcome, solved] at solved'
      cases solved'
      exact Nat.le_refl _
  | iterationLimit fewer => exact absurd fewer (Nat.lt_irrefl _)
  | stepSize fewer => exact absurd fewer (Nat.lt_irrefl _)
  | converged iterations _ _ solved reported part later =>
    refine ⟨fun failed => absurd solved (failed _), ?_⟩
    intro summary solved'
    cases solved.symm.trans solved'
    exact ⟨⟨_, _, reported, iterations, part⟩, later⟩

/-- More tightenings make no difference unless an iteration fails for want of them,
and then they continue it. -/
def ContinuedByUpdates (request : Request F ε) (observer : Observer F σ) (listener : σ) : Prop :=
  ∀ limit, request.limits.maxUpdates ≤ limit →
    let longer := request.within { request.limits with maxUpdates := limit }
    ((∀ k updates lipschitz, (request.solve observer listener).result =
        .error (.stepSize k updates lipschitz) → request.events observer listener = []) →
      request.SolvedAs longer observer listener) ∧
    ∀ k updates lipschitz, (request.solve observer listener).result =
        .error (.stepSize k updates lipschitz) →
      request.events observer listener <+: longer.events observer listener

theorem continuedByUpdates (request : Request F ε)
    (ordered_zero : Scalar.isNaN (0 : F) = false) (observer : Observer F σ) (listener : σ) :
    request.ContinuedByUpdates observer listener := by
  intro limit more longer
  have looser : request.limits.Loosens { request.limits with maxUpdates := limit } :=
    ⟨Nat.le_refl _, fun _ _ small => small, more⟩
  have alike : longer.fault? = request.fault? := fault?_within Iff.rfl Iff.rfl
  cases solve_cut looser alike ordered_zero observer listener with
  | same same =>
    refine ⟨fun _ => same, ?_⟩
    intro k updates lipschitz failed
    rw [same.events]
  | iterationLimit fewer => exact absurd fewer (Nat.lt_irrefl _)
  | stepSize _ failed reported part =>
    exact ⟨fun unlimited => absurd (unlimited _ _ _ failed) reported, fun _ _ _ _ => part⟩
  | converged _ within strict => exact absurd within strict

/-- Another observer makes no difference unless one of them interrupts the solve.
What is reported to the one that interrupts it first is what is reported to the
other one before that iteration. -/
def ContinuedByObservers (request : Request F ε) (observer : Observer F σ) (listener : σ) : Prop :=
  ∀ {τ : Type} (observer' : Observer F τ) (listener' : τ),
    ((∀ k, (request.solve observer listener).result ≠ .error (.interrupted k)) →
      (∀ k, (request.solve observer' listener').result ≠ .error (.interrupted k)) →
      (request.solve observer listener).result = (request.solve observer' listener').result ∧
      (request.solve observer listener).buffers = (request.solve observer' listener').buffers ∧
      request.events observer listener = request.events observer' listener') ∧
    ∀ k, (request.solve observer listener).result = .error (.interrupted k) →
      (∀ earlier < k,
        (request.solve observer' listener').result ≠ .error (.interrupted earlier)) →
      request.events observer listener =
        (request.events observer' listener').takeWhile (·.number < k)

theorem continuedByObservers (request : Request F ε) (observer : Observer F σ) (listener : σ) :
    request.ContinuedByObservers observer listener := by
  intro τ observer' listener'
  cases faultless : request.fault? with
  | some fault =>
    -- a request is refused before its observer is asked anything
    simp [solve_of_fault faultless, events_of_fault faultless]
  | none =>
    have heeds := (request.job faultless).solve_heeding observer listener
    have heeds' := (request.job faultless).solve_heeding observer' listener'
    -- the answer to a noted solve is the answer to the solve
    have answer_eq := (request.job faultless).solve_noting observer listener
    have answer_eq' := (request.job faultless).solve_noting observer' listener'
    have stops_iff : ∀ k, (request.solve observer listener).result = .error (.interrupted k) ↔ _ :=
      fun k => (solve_eq_error_iff faultless).trans (by rw [← answer_eq])
    have stops_iff' : ∀ k,
        (request.solve observer' listener').result = .error (.interrupted k) ↔ _ :=
      fun k => (solve_eq_error_iff faultless).trans (by rw [← answer_eq'])
    rw [events_eq faultless, events_eq faultless]
    constructor
    · intro undisturbed undisturbed'
      obtain ⟨answers, events⟩ := heeds.same_of_undisturbed heeds'
        (fun k => mt (stops_iff k).mpr (undisturbed k))
        (fun k => mt (stops_iff' k).mpr (undisturbed' k))
      rw [answer_eq, answer_eq'] at answers
      have alike := outcome_congr request answers
      rw [solve_eq_outcome faultless, solve_eq_outcome faultless]
      exact ⟨alike.1, alike.2, events⟩
    · intro k stopped not_before
      exact heeds.takeWhile_of_interrupted heeds' ((stops_iff k).mp stopped)
        fun earlier before => mt (stops_iff' earlier).mpr (not_before earlier before)

/-- The residual of a solve that succeeds is a number. -/
theorem ordered_residual_of_ok (ordered_zero : Scalar.isNaN (0 : F) = false)
    {summary : Summary F} (solved : (request.solve observer listener).result = .ok summary) :
    Scalar.isNaN summary.residual = false := by
  obtain ⟨job, solution, -, answered, -, rfl⟩ := solve_eq_ok solved
  obtain ⟨laps, events, state, atHat, -, -, rfl⟩ := Job.solve_eq_ok answered
  exact ordered_residual ordered_zero _ _ _ _

/-- What the limits of a request do to its solve under an observer. -/
structure OnlyCut (request : Request F ε) (observer : Observer F σ) (listener : σ) : Prop where
  ordered : ∀ summary, (request.solve observer listener).result = .ok summary →
    Scalar.isNaN summary.residual = false
  iterations : request.ContinuedByIterations observer listener
  tolerance : request.ContinuedByTolerance observer listener
  updates : request.ContinuedByUpdates observer listener
  observers : request.ContinuedByObservers observer listener

/-- **Limits only cut a solve short.** Whatever the functions of the problem answer,
a solve that is cut short by one of its limits is the beginning of the solve under a
looser limit, and a solve that is not is the same under it. As to the number of iterations
this is said of `0 < maxIter`, as a request with `maxIter = 0` is refused and not run. -/
theorem solve_onlyCut [TransitiveScalar F] (request : Request F ε) (observer : Observer F σ)
    (listener : σ) : request.OnlyCut observer listener where
  ordered _ solved := ordered_residual_of_ok TransitiveScalar.ordered_zero solved
  iterations := continuedByIterations request TransitiveScalar.ordered_zero observer listener
  tolerance := continuedByTolerance request observer listener
  updates := continuedByUpdates request TransitiveScalar.ordered_zero observer listener
  observers := continuedByObservers request observer listener

end Request

/-- The parabola is left after one iteration if no more are permitted, and nine more
continue it. -/
theorem solve_onlyCut_parabola : ∃ iterations residual,
    ((parabolaRequest 1).solve Observer.silent ()).result =
      .error (.iterationLimit iterations residual) ∧
    (parabolaRequest 1).events Observer.silent () <+:
      (parabolaRequest 10).events Observer.silent () := by
  have limited : (match ((parabolaRequest 1).solve Observer.silent ()).result with
      | .error (.iterationLimit _ _) => true
      | _ => false) = true := by
    decide +kernel
  split at limited
  · rename_i iterations residual failed
    have cut := Request.solve_onlyCut (parabolaRequest 1) Observer.silent ()
    have positive : 0 < (parabolaRequest 1).limits.maxIter := Nat.one_pos
    have more : (parabolaRequest 1).limits.maxIter ≤ 10 := by decide
    exact ⟨iterations, residual, failed,
      (cut.iterations 10 positive more).2 iterations residual failed⟩
  · cases limited

end ProximalNewton
