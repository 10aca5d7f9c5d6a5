import ProximalNewton.Proofs.ArenaSafety
import ProximalNewton.Proofs.ArrayEvaluation
import ProximalNewton.Proofs.RecentPairs
import ProximalNewton.Proofs.Success

/-!
# Solves on arrays are solves

A request for functions that give vectors can be solved as it is, or on arrays. Both solves
tell their observer the same and end alike, with the same buffers.

A program on an arena `Follows` a program that works without one when the events that it tells
are those of the other, and their results agree; compositions keep this, and so do steps on the
arena alone. What an arena shows of a state is read off its workspace (`ArrayState.Shows`): the
current iterate, the curvature pairs and the ledger. What else is in the workspace is written
over before it is read.

* `Job.follows_start` and `Job.follows_iterate`: the beginning of a solve, and one iteration.
* `Request.solve_onArrays`: a whole solve.
* `ArrayRequest.solve_panics_iff`: which access of a solve can miss. An admitted request can have a
  set whose upper bounds are fewer than its lower ones (`ArrayRequest.not_missesNoAccess`).
-/

namespace ProximalNewton

variable {F ε τ α α' β β' : Type} {n m depth : Nat}

/-! ## Failures in another type -/

namespace Traced

variable {ω κ : Type}

theorem mapError_bind (wrap : κ → ε) (first : Traced ω κ α) (next : α → Traced ω κ β) :
    (first >>= next).mapError wrap =
      first.mapError wrap >>= fun value => (next value).mapError wrap := by
  rcases first with ⟨events, cause | value⟩
  · rfl
  · rfl

theorem ofExcept_bind (first : Except ε α) (next : α → Except ε β) :
    (ofExcept (first >>= next) : Traced ω ε β) =
      ofExcept first >>= fun value => ofExcept (next value) := by
  cases first with
  | error error => rfl
  | ok value => rfl

theorem bind_assoc {α β γ : Type} (first : Traced ω κ α) (next : α → Traced ω κ β)
    (last : β → Traced ω κ γ) :
    first >>= next >>= last = first >>= fun value => next value >>= last := by
  cases ended : first.result with
  | error error => rw [bind_of_error ended, bind_of_error ended, bind_of_error rfl]
  | ok value =>
    rw [bind_of_ok ended, bind_of_ok ended]
    cases later : (next value).result with
    | error error => rw [bind_of_error rfl, bind_of_error later]
    | ok value' => rw [bind_of_ok rfl, bind_of_ok later, List.append_assoc]

end Traced

variable [Scalar F]

/-! ## Programs on arenas -/

namespace ArrayProgram

/-- The program on an arena tells the events of the other one and ends as that one does. It does
not panic. -/
inductive Follows (same : α → β → Prop) :
    ArrayProgram F ε τ α → Traced (Event F) (SolveError F ε) β → Prop
  | ok (marks : List (Mark F τ)) {value : α} {value' : β} (agree : same value value') :
    Follows same ⟨marks, .ok value⟩ ⟨marks.filterMap Mark.event?, .ok value'⟩
  | failed (marks : List (Mark F τ)) (error : SolveError F ε) :
    Follows same ⟨marks, .error (.failed error)⟩ ⟨marks.filterMap Mark.event?, .error error⟩

variable {same : α → β → Prop} {between : α' → β' → Prop}

omit [Scalar F]

theorem Follows.after {program : ArrayProgram F ε τ α} {plain : Traced (Event F) (SolveError F ε) β}
    (follows : Follows same program plain) (marks : List (Mark F τ)) :
    Follows same ⟨marks ++ program.events, program.result⟩
      ⟨marks.filterMap Mark.event? ++ plain.events, plain.result⟩ := by
  cases follows with
  | ok later agree =>
    rw [← List.filterMap_append]
    exact .ok _ agree
  | failed later error =>
    rw [← List.filterMap_append]
    exact .failed _ error

theorem Follows.bind {first : ArrayProgram F ε τ α'}
    {first' : Traced (Event F) (SolveError F ε) β'} (begins : Follows between first first')
    {next : α' → ArrayProgram F ε τ α} {next' : β' → Traced (Event F) (SolveError F ε) β}
    (rest : ∀ value value', between value value' → Follows same (next value) (next' value')) :
    Follows same (first >>= next) (first' >>= next') := by
  cases begins with
  | ok marks agree => exact (rest _ _ agree).after marks
  | failed marks error => exact .failed marks error

/-- What goes on on the arena alone. -/
theorem Follows.bind_pure {first : ArrayProgram F ε τ α'}
    {plain : Traced (Event F) (SolveError F ε) β} {between : α' → β → Prop}
    (begins : Follows between first plain) {next : α' → ArrayProgram F ε τ α}
    (rest : ∀ value value', between value value' → Follows same (next value) (pure value')) :
    Follows same (first >>= next) plain := by
  cases begins with
  | ok marks agree =>
    have follows := (rest _ _ agree).after marks
    rw [Traced.events_pure, List.append_nil] at follows
    exact follows
  | failed marks error => exact .failed marks error

theorem follows_pure {value : α} {value' : β} (agree : same value value') :
    Follows same (pure value : ArrayProgram F ε τ α) (pure value') :=
  .ok [] agree

theorem follows_fail (error : SolveError F ε) :
    Follows same (fail error : ArrayProgram F ε τ α) (Traced.fail error) :=
  .failed [] error

theorem Follows.tell {event : Event F} {next : Unit → ArrayProgram F ε τ α}
    {next' : Unit → Traced (Event F) (SolveError F ε) β}
    (rest : Follows same (next ()) (next' ())) :
    Follows same (tell event >>= next) (Traced.emit event >>= next') :=
  rest.after [.told event]

/-- A step on the arena alone. -/
theorem Follows.step {made : Checked (SolveError F ε) (Arena F τ)} {arena : Arena F τ}
    (made_eq : made = .ok arena) {next : Arena F τ → ArrayProgram F ε τ α}
    {plain : Traced (Event F) (SolveError F ε) β} (rest : Follows same (next arena) plain) :
    Follows same (step made >>= next) plain := by
  subst made_eq
  exact rest.after [.left arena]

theorem Follows.find {made : Checked (SolveError F ε) (α' × Arena F τ)} {found : α' × Arena F τ}
    (made_eq : made = .ok found) {next : α' × Arena F τ → ArrayProgram F ε τ α}
    {plain : Traced (Event F) (SolveError F ε) β} (rest : Follows same (next found) plain) :
    Follows same (find made >>= next) plain := by
  subst made_eq
  exact rest.after [.left found.2]

theorem follows_step {made : Checked (SolveError F ε) (Arena F τ)} {plain : Except ε β'}
    {between : Arena F τ → β' → Prop} (mirrors : Checked.Mirrors between made plain) :
    Follows between (step made) (Traced.ofExcept (plain.mapError .oracle)) := by
  cases mirrors with
  | ok agree => exact .ok [.left _] agree
  | failed cause => exact .failed [] (.oracle cause)

theorem follows_find {made : Checked (SolveError F ε) (α' × Arena F τ)} {plain : Except ε β'}
    {between : α' × Arena F τ → β' → Prop} (mirrors : Checked.Mirrors between made plain) :
    Follows between (find made) (Traced.ofExcept (plain.mapError .oracle)) := by
  cases mirrors with
  | ok agree => exact .ok [.left _] agree
  | failed cause => exact .failed [] (.oracle cause)

theorem Follows.told_eq {program : ArrayProgram F ε τ α}
    {plain : Traced (Event F) (SolveError F ε) β} (follows : Follows same program plain) :
    program.told = plain.events := by
  cases follows with
  | ok marks agree => rfl
  | failed marks error => rfl

theorem Follows.of_ok {program : ArrayProgram F ε τ α} {plain : Traced (Event F) (SolveError F ε) β}
    (follows : Follows same program plain) {value' : β} (ok : plain.result = .ok value') :
    ∃ value, program.result = .ok value ∧ same value value' := by
  cases follows with
  | ok marks agree =>
    cases ok
    exact ⟨_, rfl, agree⟩
  | failed marks error => cases ok

theorem Follows.of_error {program : ArrayProgram F ε τ α}
    {plain : Traced (Event F) (SolveError F ε) β} (follows : Follows same program plain)
    {error : SolveError F ε} (failed : plain.result = .error error) :
    program.result = .error (.failed error) := by
  cases follows with
  | ok marks agree => cases failed
  | failed marks error =>
    cases failed
    rfl

end ArrayProgram

/-! ## Jobs on arrays -/

/-- The request for a job on arrays, with the bounds of its sets and with what the buffers for the
slack and the constraint residual hold before. -/
def Job.onArrays (job : Job F ε n m) (C D : Bounds F) (z errZ : Vector F m) :
    ArrayRequest F ε Unit where
  numVars := n
  numConstraints := m
  routines := job.oracles.routines
  world := ()
  C := C
  D := D
  params := job.params
  buffers := CallerVectors.inBuffers ⟨job.x, z, job.y, errZ⟩
  sigma := job.sigma.toArray
  eps := job.eps

/-- What a workspace shows of the search from a state. -/
structure Workspace.Aims (workspace : Workspace F Unit n m depth) (state : State F n m depth) :
    Prop where
  current : workspace.current = state.current
  direction : workspace.direction = state.memory.applyInverse 1 state.current.r
  memory : workspace.curvature.memory = state.memory

/-- What a state on arrays shows of the state of a solve: the current iterate, the curvature pairs
and the ledger are those of its workspace. -/
inductive ArrayState.Shows : ArrayState F Unit → State F n m depth → Prop
  | of_workspace (workspace : Workspace F Unit n m depth) (step : StepSize F)
    (tightenings stalls : Nat) (lastTau : F) :
    Shows { arena := workspace.arena, step, tightenings, stalls, lastTau }
      { current := workspace.current
        step
        memory := workspace.curvature.memory
        ledger := workspace.merit.ledger
        tightenings
        stalls
        lastTau }

omit [Scalar F] in
theorem Workspace.shows (workspace : Workspace F Unit n m depth) (state : State F n m depth)
    (current : workspace.current = state.current)
    (memory : workspace.curvature.memory = state.memory)
    (ledger : workspace.merit.ledger = state.ledger) :
    ArrayState.Shows
      { arena := workspace.arena
        step := state.step
        tightenings := state.tightenings
        stalls := state.stalls
        lastTau := state.lastTau } state := by
  rcases state with ⟨_, step, _, _, tightenings, stalls, lastTau⟩
  subst current memory ledger
  exact .of_workspace workspace step tightenings stalls lastTau

/-- With the bounds of a box, the gradient step of the current iterate is projected on the box. -/
theorem Bounds.Of.stepCurrent_eq {E : Type} {C : Bounds F} {box : Box F n} (ofC : C.Of box)
    (workspace : Workspace F τ n m depth) (gamma : F) :
    (workspace.arena.stepCurrent C gamma : Checked E _) =
      .ok (Workspace.arena { workspace with
        current := workspace.current.withGamma box gamma }) := by
  rw [← ofC.box_eq]
  exact workspace.stepCurrent_eq C ofC.dim ofC.complete gamma

/-- With the bounds of a box, the gradient step of the candidate is projected on the box. -/
theorem Bounds.Of.stepCandidate_eq {E : Type} {C : Bounds F} {box : Box F n} (ofC : C.Of box)
    (workspace : Workspace F τ n m depth) (gamma : F) :
    (workspace.arena.stepCandidate C gamma : Checked E _) =
      .ok (Workspace.arena { workspace with
        candidate := workspace.candidate.withGamma box gamma }) := by
  rw [← ofC.box_eq]
  exact workspace.stepCandidate_eq C ofC.dim ofC.complete gamma

namespace Job

open ArrayProgram

variable {job : Job F ε n m} {C D : Bounds F} (ofC : C.Of job.C) (ofD : D.Of job.merit.D)
  (z errZ : Vector F m)

/-! ## Steps -/

section Steps

include ofD

theorem mirrors_evaluateCurrent (workspace : Workspace F Unit n m depth) :
    Checked.Mirrors (fun arena answer => ∃ store : MeritStore F n m, store.ledger = answer.2 ∧
        arena = Workspace.arena { workspace with
          current := { workspace.current with gradPsi := answer.1.gradPsi, psi := answer.1.psi }
          currentZ := answer.1.z
          merit := store })
      ((job.onArrays C D z errZ).evaluateCurrent workspace.arena)
      (job.merit.evaluate workspace.current.x workspace.merit.ledger) := by
  refine (Merit.mirrors_evaluate_iterate ofD workspace.currentZ workspace.merit
    workspace.current).bind_ok ?_
  intro _ answer agrees
  obtain ⟨store, recorded, rfl⟩ := agrees
  exact ⟨_, rfl, store, recorded, rfl⟩

theorem mirrors_evaluateCandidate (workspace : Workspace F Unit n m depth) :
    Checked.Mirrors (fun arena answer => ∃ store : MeritStore F n m, store.ledger = answer.2 ∧
        arena = Workspace.arena { workspace with
          candidate :=
            { workspace.candidate with gradPsi := answer.1.gradPsi, psi := answer.1.psi }
          candidateZ := answer.1.z
          merit := store })
      ((job.onArrays C D z errZ).evaluateCandidate workspace.arena)
      (job.merit.evaluate workspace.candidate.x workspace.merit.ledger) := by
  refine (Merit.mirrors_evaluate_iterate ofD workspace.candidateZ workspace.merit
    workspace.candidate).bind_ok ?_
  intro _ answer agrees
  obtain ⟨store, recorded, rfl⟩ := agrees
  exact ⟨_, rfl, store, recorded, rfl⟩

theorem mirrors_evaluateHat (workspace : Workspace F Unit n m depth) :
    Checked.Mirrors (fun found answer => ∃ store : MeritStore F n m, store.ledger = answer.2 ∧
        found = (answer.1.psi, Workspace.arena { workspace with
          zHat := answer.1.z
          gradHat := answer.1.gradPsi
          merit := store }))
      ((job.onArrays C D z errZ).evaluateHat workspace.arena)
      (job.merit.evaluate workspace.current.xHat workspace.merit.ledger) := by
  refine (Merit.mirrors_evaluate ofD workspace.current.xHat workspace.zHat workspace.gradHat
    workspace.merit).bind_ok ?_
  intro _ answer agrees
  obtain ⟨store, recorded, rfl⟩ := agrees
  exact ⟨_, rfl, store, recorded, rfl⟩

theorem mirrors_valueHat (workspace : Workspace F Unit n m depth) :
    Checked.Mirrors (fun found answer => ∃ store : MeritStore F n m, store.ledger = answer.2 ∧
        found = (answer.1.psi, Workspace.arena { workspace with
          zHat := answer.1.z
          merit := store }))
      ((job.onArrays C D z errZ).valueHat workspace.arena)
      (job.merit.value workspace.current.xHat workspace.merit.ledger) := by
  refine (Merit.mirrors_value ofD workspace.current.xHat workspace.zHat
    workspace.merit).bind_ok ?_
  intro _ answer agrees
  obtain ⟨store, recorded, rfl⟩ := agrees
  exact ⟨_, rfl, store, recorded, rfl⟩

theorem mirrors_initialLipschitz (workspace : Workspace F Unit n m depth) :
    Checked.Mirrors (fun found answer => ∃ store : MeritStore F n m, store.ledger = answer.2 ∧
        found = (answer.1, Workspace.arena { workspace with merit := store }))
      ((job.onArrays C D z errZ).initialLipschitz workspace.arena)
      (job.initialLipschitz workspace.current.x workspace.current.gradPsi
        workspace.merit.ledger) := by
  refine .of_eq (workspace.initialLipschitz_eq (job.onArrays C D z errZ)) ?_
  refine (Merit.mirrors_gradient ofD _ _ _ workspace.merit).bind ?_
  intro _ answer agrees
  obtain ⟨shifted, ledger⟩ := answer
  obtain ⟨store, recorded, _, rfl⟩ := agrees
  refine .after_ok (Checked.difference_eq _ _ _) (.ok ⟨store, recorded, Prod.ext ?_ rfl⟩)
  exact congrArg (· / _) (Checked.norm_eq _)

end Steps

/-! ## The search -/

variable {state : State F n m job.depth} {workspace : Workspace F Unit n m job.depth}
  {ledger : Ledger F m}

include ofC ofD

theorem follows_tryPoint (iteration : Nat) (tau : F) (aims : workspace.Aims state)
    (recorded : workspace.merit.ledger = ledger) :
    Follows (fun found answer => ∃ left : Workspace F Unit n m job.depth, left.Aims state ∧
        left.candidate = answer.1 ∧ left.merit.ledger = answer.2 ∧
        found = ((job.search iteration state).report tau answer.1, left.arena))
      ((job.onArrays C D z errZ).tryPoint iteration state.step tau workspace.arena)
      ((Traced.ofExcept ((job.search iteration state).trial tau ledger)).mapError .oracle) := by
  obtain ⟨current, direction, memory⟩ := aims
  subst recorded
  have point : (job.search iteration state).point tau =
      workspace.current.x - (1 - tau) * workspace.current.r - tau * workspace.direction := by
    rw [current, direction]
    rfl
  unfold ArrayRequest.tryPoint Search.trial
  dsimp only
  rw [Traced.ofExcept_bind, Traced.mapError_bind, point]
  refine .step (workspace.place_eq tau) ?_
  refine (follows_step (mirrors_evaluateCandidate ofD z errZ _)).bind ?_
  intro _ answer agrees
  obtain ⟨atPoint, ledger⟩ := answer
  obtain ⟨store, recorded, rfl⟩ := agrees
  refine .step (ofC.stepCandidate_eq _ _) (follows_pure ?_)
  let left : Workspace F Unit n m job.depth := { workspace with
    candidate := .ofPoint job.C state.step.gamma (workspace.current.x -
      (1 - tau) * workspace.current.r - tau * workspace.direction) atPoint.gradPsi atPoint.psi
    candidateZ := atPoint.z
    merit := store }
  have reported : ArrayRequest.trialReport iteration state.step left.arena tau =
      (job.search iteration state).report tau left.candidate := by
    have phi : left.arena.current.envelope state.step = (job.search iteration state).phi :=
      congrArg (Iterate.envelope · state.step) current
    have normSqR : left.arena.current.normSqR = state.current.normSqR :=
      congrArg Iterate.normSqR current
    unfold ArrayRequest.trialReport Search.report Search.threshold
    rw [phi, normSqR]
    rfl
  exact ⟨left, ⟨current, direction, memory⟩, rfl, recorded, Prod.ext reported rfl⟩

/-- Each trial follows that of the other search, and both go on with the same halved step. -/
theorem follows_backtrack (iteration halvings : Nat) (tau : F) (aims : workspace.Aims state)
    (recorded : workspace.merit.ledger = ledger) :
    Follows (fun result found => result.tau = found.tau ∧ result.accepted = found.accepted ∧
        ∃ left : Workspace F Unit n m job.depth, left.Aims state ∧
          left.candidate = found.trial ∧ left.merit.ledger = found.ledger ∧
          result.arena = left.arena)
      ((job.onArrays C D z errZ).backtrack iteration state.step halvings tau workspace.arena)
      (((job.search iteration state).backtrack halvings tau ledger).mapError .oracle) := by
  induction halvings generalizing tau workspace ledger with
  | zero =>
    unfold ArrayRequest.backtrack Search.backtrack
    rw [Traced.mapError_bind]
    refine (follows_tryPoint ofC ofD z errZ iteration tau aims recorded).bind ?_
    intro _ answer agrees
    obtain ⟨trial, ledger⟩ := answer
    obtain ⟨left, aims, candidate, recorded, rfl⟩ := agrees
    dsimp only
    split
    · rw [Traced.mapError_bind]
      exact .tell (follows_pure ⟨rfl, rfl, left, aims, candidate, recorded, rfl⟩)
    · rw [Traced.mapError_bind]
      exact .tell (follows_pure ⟨rfl, rfl, left, aims, candidate, recorded, rfl⟩)
  | succ halvings ih =>
    rw [ArrayRequest.backtrack, Search.backtrack, Traced.mapError_bind]
    refine (follows_tryPoint ofC ofD z errZ iteration tau aims recorded).bind ?_
    intro _ answer agrees
    obtain ⟨trial, ledger⟩ := answer
    obtain ⟨left, aims, candidate, recorded, rfl⟩ := agrees
    dsimp only
    split
    · rw [Traced.mapError_bind]
      exact .tell (follows_pure ⟨rfl, rfl, left, aims, candidate, recorded, rfl⟩)
    · have tauMin : (job.search iteration state).tauMin =
          (job.onArrays C D z errZ).params.search.tauMin := rfl
      rw [tauMin]
      split
      · rw [Traced.mapError_bind]
        exact .tell (follows_pure ⟨rfl, rfl, left, aims, candidate, recorded, rfl⟩)
      · rw [Traced.mapError_bind]
        exact .tell (ih _ aims recorded)

/-! ## Iterations -/

variable {array : ArrayState F Unit}

/-- Both loops test the same merit and go on from the same tightened state. -/
theorem follows_adapt (iteration updates left : Nat) (shows : array.Shows state) (psiHat : F) :
    Follows ArrayState.Shows ((job.onArrays C D z errZ).adapt iteration updates left array psiHat)
      (job.adapt iteration updates left state psiHat) := by
  induction left generalizing updates array state psiHat with
  | zero =>
    cases shows with
    | of_workspace workspace size tightenings stalls lastTau =>
      have limit : workspace.arena.current.descentLimit size =
          workspace.current.descentLimit size := rfl
      unfold ArrayRequest.adapt Job.adapt
      dsimp only
      rw [limit]
      split
      · exact follows_fail _
      · exact follows_pure (.of_workspace ..)
  | succ left ih =>
    cases shows with
    | of_workspace workspace size tightenings stalls lastTau =>
      have limit : workspace.arena.current.descentLimit size =
          workspace.current.descentLimit size := rfl
      rw [ArrayRequest.adapt, Job.adapt]
      dsimp only
      rw [limit]
      split
      · refine .step (congrArg Except.ok workspace.forget_eq) (.tell ?_)
        refine .step (ofC.stepCurrent_eq _ _) ?_
        refine (follows_find (mirrors_valueHat ofD z errZ _)).bind ?_
        intro _ answer agrees
        obtain ⟨value, _⟩ := answer
        obtain ⟨store, rfl, rfl⟩ := agrees
        exact ih _ (.of_workspace ..) _
      · exact follows_pure (.of_workspace ..)

theorem follows_advance (iteration : Nat) (shows : array.Shows state) :
    Follows (fun next result => next.Shows (job.advance state result))
      ((job.onArrays C D z errZ).advance iteration array)
      (((job.search iteration state).run state.ledger).mapError .oracle) := by
  cases shows with
  | of_workspace workspace size tightenings stalls lastTau =>
    unfold ArrayRequest.advance Search.run
    refine .step workspace.aim_eq ?_
    let state : State F n m job.depth :=
      { current := workspace.current
        step := size
        memory := workspace.curvature.memory
        ledger := workspace.merit.ledger
        tightenings
        stalls
        lastTau }
    have aims : Workspace.Aims { workspace with
        direction := (workspace.curvature.apply 1 workspace.current.r).1
        curvature := (workspace.curvature.apply 1 workspace.current.r).2 } state :=
      ⟨rfl, workspace.curvature.apply_eq 1 workspace.current.r, rfl⟩
    refine (follows_backtrack ofC ofD z errZ iteration _ 1 aims rfl).bind_pure ?_
    intro answer found agrees
    obtain ⟨_, _, _⟩ := answer
    obtain ⟨rfl, rfl, left, aims, candidate, recorded, rfl⟩ := agrees
    have learned : (left.curvature.offer (left.candidate.x - left.current.x)
        (left.candidate.r - left.current.r)).2.memory = (job.advance state found).memory := by
      rw [candidate, aims.current]
      exact congrArg (CurvatureMemory.offer · _ _) aims.memory
    refine .step left.learn_eq (.step (congrArg Except.ok (Workspace.swap_eq _)) (follows_pure ?_))
    exact Workspace.shows _ (job.advance state found) candidate learned recorded

end Job

/-- Both iterations converge, to the same solution, or both go on. -/
inductive ArrayProgress.Shows : ArrayProgress F Unit → Progress F n m depth → Prop
  | converged (solution : Solution F n m) {arena : Arena F Unit}
    (delivered : arena.buffers = solution.buffers) :
    Shows (.converged solution.summary arena) (.converged solution)
  | advanced (residual : F) {array : ArrayState F Unit} {state : State F n m depth}
    (shows : array.Shows state) : Shows (.advanced residual array) (.advanced residual state)

/-- A solve on arrays ends like the other one. -/
structure ArrayOutcome.Shows {σ : Type} (array : ArrayOutcome F ε τ σ) (outcome : Outcome F ε σ) :
    Prop where
  buffers : array.buffers = outcome.buffers
  result : array.result = outcome.result.mapError .failed
  listener : array.listener = outcome.listener

namespace Job

open ArrayProgram

variable {job : Job F ε n m} {C D : Bounds F} (ofC : C.Of job.C) (ofD : D.Of job.merit.D)
  (z errZ : Vector F m) {state : State F n m job.depth} {array : ArrayState F Unit}

include ofC ofD

/-- An iteration on arrays follows the iteration on vectors. -/
theorem follows_iterate (iteration : Nat) (shows : array.Shows state) :
    Follows ArrayProgress.Shows ((job.onArrays C D z errZ).iterate iteration array)
      (job.iterate iteration state) := by
  cases shows with
  | of_workspace workspace size tightenings stalls lastTau =>
    unfold ArrayRequest.iterate Job.iterate
    refine (follows_find (mirrors_evaluateHat ofD z errZ workspace)).bind ?_
    intro _ answer agrees
    obtain ⟨atHat, _⟩ := answer
    obtain ⟨store, rfl, rfl⟩ := agrees
    refine .find (Workspace.measure_eq _ size.gamma) (.tell ?_)
    dsimp only
    have eps : (job.onArrays C D z errZ).eps = job.eps := rfl
    rw [eps]
    split
    · let state : State F n m job.depth :=
        { current := workspace.current
          step := size
          memory := workspace.curvature.memory
          ledger := store.ledger
          tightenings
          stalls
          lastTau }
      let measured := residual size.gamma workspace.current.r atHat.gradPsi
        workspace.current.gradPsi
      refine .step (Workspace.deliver_eq _) (.tell (follows_pure ?_))
      exact .converged (job.solution iteration state measured atHat.z) rfl
    · refine (follows_adapt ofC ofD z errZ iteration 0 _ (.of_workspace ..) atHat.psi).bind ?_
      intro array state shows
      refine (follows_advance ofC ofD z errZ iteration shows).bind ?_
      intro next result shows
      exact follows_pure (.advanced _ shows)

/-- The first state on arrays is that on vectors. -/
theorem follows_start :
    Follows ArrayState.Shows (job.onArrays C D z errZ).start (Traced.ofExcept job.start) := by
  unfold ArrayRequest.start ArrayRequest.estimate Job.start
  simp only [Traced.bind_assoc]
  rw [Traced.ofExcept_bind]
  refine .step ((job.onArrays C D z errZ).allocate_eq job.depth_pos rfl) ?_
  refine .step (Workspace.takeGuess_eq _) ?_
  refine (follows_step (mirrors_evaluateCurrent ofD z errZ _)).bind ?_
  intro _ answer agrees
  obtain ⟨initial, _⟩ := answer
  obtain ⟨store, rfl, rfl⟩ := agrees
  dsimp only
  rw [Traced.ofExcept_bind]
  refine (follows_find (mirrors_initialLipschitz ofD z errZ _)).bind ?_
  intro _ answer agrees
  obtain ⟨lipschitz, _⟩ := answer
  obtain ⟨store, rfl, rfl⟩ := agrees
  dsimp only
  split
  · refine .step (ofC.stepCurrent_eq _ _) (follows_pure ?_)
    exact .of_workspace ..
  · exact follows_fail _

/-! ## Runs -/

variable {σ : Type}

/-- By induction on the iterations that are left: both runs ask the observer alike and tell it the
same. -/
theorem run_onArrays {request : Request F ε}
    (handed : request.buffers = (job.onArrays C D z errZ).buffers) (observer : Observer F σ)
    (left iteration : Nat) (shows : array.Shows state) (listener : σ) :
    ((job.onArrays C D z errZ).run observer left iteration array listener).Shows
      (request.outcome (job.run observer left iteration state listener)) := by
  fun_induction Job.run job observer left iteration state listener generalizing array with
  | case1 left iteration state listener after asked =>
    unfold ArrayRequest.run
    rw [asked]
    exact ⟨handed.symm, rfl, rfl⟩
  | case2 left iteration state listener after asked block told error =>
    rename_i failed
    have follows := follows_iterate ofC ofD z errZ iteration shows
    unfold ArrayRequest.run
    rw [asked]
    dsimp only
    rw [follows.of_error failed, follows.told_eq]
    exact ⟨handed.symm, rfl, rfl⟩
  | case3 left iteration state listener after asked block told solution =>
    rename_i converged
    have follows := follows_iterate ofC ofD z errZ iteration shows
    obtain ⟨progress, ended, agree⟩ := follows.of_ok converged
    cases agree with
    | converged _ delivered =>
      unfold ArrayRequest.run
      rw [asked]
      dsimp only
      rw [ended, follows.told_eq]
      exact ⟨delivered, rfl, rfl⟩
  | case4 iteration state listener after asked block told residual next =>
    rename_i advanced
    have follows := follows_iterate ofC ofD z errZ iteration shows
    obtain ⟨progress, ended, agree⟩ := follows.of_ok advanced
    cases agree with
    | advanced _ next_shows =>
      unfold ArrayRequest.run
      rw [asked]
      dsimp only
      rw [ended, follows.told_eq]
      exact ⟨handed.symm, rfl, rfl⟩
  | case5 iteration state listener after asked block told residual next =>
    rename_i advanced left ih
    have follows := follows_iterate ofC ofD z errZ iteration shows
    obtain ⟨progress, ended, agree⟩ := follows.of_ok advanced
    cases agree with
    | advanced _ next_shows =>
      rw [ArrayRequest.run, asked]
      dsimp only
      rw [ended, follows.told_eq]
      obtain ⟨buffers, result, listener⟩ := ih next_shows
      exact ⟨buffers, result, listener⟩

/-- The rest of a solve on arrays, once the request has been admitted. -/
theorem solve_onArrays_of_admitted {request : Request F ε}
    (handed : request.buffers = (job.onArrays C D z errZ).buffers)
    (admitted : (job.onArrays C D z errZ).form.fault? = none) (observer : Observer F σ)
    (listener : σ) :
    ((job.onArrays C D z errZ).solve observer listener).Shows
      (request.outcome (job.solve observer listener)) := by
  have follows := follows_start ofC ofD z errZ
  unfold ArrayRequest.solve
  rw [admitted]
  dsimp only
  cases started : job.start with
  | error error =>
    rw [solve_of_error job started, follows.of_error started]
    exact ⟨handed.symm, rfl, rfl⟩
  | ok state =>
    obtain ⟨array, begun, shows⟩ := follows.of_ok started
    rw [solve_of_started job started, begun]
    obtain ⟨buffers, result, listener⟩ :=
      run_onArrays ofC ofD z errZ handed observer (job.params.maxIter - 1) 0 shows listener
    exact ⟨buffers, result, listener⟩

end Job

namespace Request

variable {σ : Type}

/-- A request without fault is, on arrays, its job on arrays. -/
theorem exists_onArrays_eq {request : Request F ε} (faultless : request.fault? = none)
    (C D : Bounds F) :
    ∃ z errZ, request.onArrays C D = (request.job faultless).onArrays C D z errZ := by
  obtain ⟨-, sizes, -⟩ := conditions_of_faultless faultless
  obtain ⟨-, -, -, z, -, errZ, -⟩ := sizes_agree sizes
  exact ⟨⟨request.buffers.z, z⟩, ⟨request.buffers.errZ, errZ⟩, rfl⟩

variable {request : Request F ε} {C D : Bounds F} (ofC : C.Of request.problem.C)
  (ofD : D.Of request.problem.D)

include ofC ofD

/-- Admission looks at the boxes that the bounds make. -/
theorem fault?_form_onArrays : (request.onArrays C D).form.fault? = request.fault? := by
  obtain ⟨dimC, -, sameC⟩ := ofC
  obtain ⟨dimD, -, sameD⟩ := ofD
  rcases request with ⟨⟨numVars, numConstraints, oracles, _, _, _, _⟩, params, buffers, sigma, eps⟩
  dsimp only at dimC dimD sameC sameD
  subst dimC dimD sameC sameD
  rfl

/-- A solve on arrays tells the observer the same and ends like the solve. -/
theorem solve_onArrays (observer : Observer F σ) (listener : σ) :
    ((request.onArrays C D).solve observer listener).Shows (request.solve observer listener) := by
  have form := fault?_form_onArrays ofC ofD
  cases found : request.fault? with
  | some fault =>
    rw [solve_of_fault found]
    unfold ArrayRequest.solve
    rw [form, found]
    exact ⟨rfl, rfl, rfl⟩
  | none =>
    obtain ⟨z, errZ, same⟩ := exists_onArrays_eq found C D
    have handed : request.buffers = ((request.job found).onArrays C D z errZ).buffers :=
      congrArg ArrayRequest.buffers same
    have ofJobC : C.Of (request.job found).C := ofC.cast _
    have ofJobD : D.Of (request.job found).merit.D := ofD.cast _
    rw [found, same] at form
    rw [solve_eq_outcome found, same]
    exact Job.solve_onArrays_of_admitted ofJobC ofJobD z errZ handed form observer listener

end Request

/-! ## Accesses that miss -/

namespace ArrayRequest

variable {σ : Type}

/-- If its routines keep the sizes of what they write over, a solve misses no access but the one to
an upper bound that is missing, and panics exactly if it gets there. With all upper bounds it does
not panic, and these are there if the bounds are those of boxes. If the routines write what
functions give besides, then the solve tells its observer the same and ends alike whether it is
made on arrays or not. -/
theorem solve_panics_iff (observer : Observer F σ) (listener : σ) :
    (∀ request : ArrayRequest F ε τ, request.routines.KeepSizes →
      request.MissesOnlyBounds (request.solve observer listener) ∧
        (request.C.Complete → request.D.Complete →
          ∀ why, (request.solve observer listener).result ≠ .error (.panic why))) ∧
    ∀ (request : Request F ε) (C D : Bounds F), C.Of request.problem.C → D.Of request.problem.D →
      (request.onArrays C D).MissesOnlyBounds ((request.onArrays C D).solve observer listener) ∧
        (∀ why, ((request.onArrays C D).solve observer listener).result ≠ .error (.panic why)) ∧
        ((request.onArrays C D).solve observer listener).Shows
          (request.solve observer listener) := by
  refine ⟨fun request keeps => ?_, fun request C D ofC ofD => ?_⟩
  · have misses := missesOnlyBounds_solve keeps observer listener
    exact ⟨misses, misses.no_panic⟩
  · have keeps : (request.onArrays C D).routines.KeepSizes :=
      request.problem.oracles.routines_keepSizes
    have misses := missesOnlyBounds_solve keeps observer listener
    exact ⟨misses, misses.no_panic ofC.complete ofD.complete,
      Request.solve_onArrays ofC ofD observer listener⟩

end ArrayRequest

/-- The access that the solve panicked at. -/
def ArrayOutcome.panic? {σ : Type} (outcome : ArrayOutcome F ε τ σ) : Option Panic :=
  match outcome.result with
  | .error (.panic why) => some why
  | .error (.failed _) => none
  | .ok _ => none

omit [Scalar F] in
theorem ArrayOutcome.result_of_panic? {σ : Type} {outcome : ArrayOutcome F ε τ σ} {why : Panic}
    (panics : outcome.panic? = some why) : outcome.result = .error (.panic why) := by
  unfold panic? at panics
  split at panics
  · rename_i ended
    cases panics
    exact ended
  · cases panics
  · cases panics

namespace ArrayRequest

/-- A flat objective from `(1/2, 1/2)`. There are two lower bounds and one upper bound. -/
def lopsidedRequest : ArrayRequest Float Unit Unit where
  numVars := 2
  numConstraints := 0
  routines := Oracles.routines (n := 2) (m := 0)
    { f := fun _ => .ok 1
      gradF := fun _ => .ok (.replicate 2 0)
      g := fun _ => .ok (.replicate 0 0)
      gradG := fun _ _ => .ok (.replicate 2 0) }
  world := ()
  C := { lower := #[0, 0], upper := #[1] }
  D := { lower := #[], upper := #[] }
  params := default
  buffers := { x := #[0.5, 0.5], z := #[], y := #[], errZ := #[] }
  sigma := #[]
  eps := 1e-3

theorem lopsidedRequest_keepSizes : lopsidedRequest.routines.KeepSizes :=
  Oracles.routines_keepSizes _

/-- The gradient step of the lopsided request reads the second upper bound. -/
theorem result_lopsidedRequest :
    (lopsidedRequest.solve Observer.silent ()).result = .error (.panic (.index 1 1)) :=
  ArrayOutcome.result_of_panic? (by decide +kernel)

/-- The bounds of the parabola are those of its boxes. -/
theorem of_parabola :
    Bounds.Of ⟨#[-10], #[10]⟩ (parabolaRequest 20).problem.C ∧
      Bounds.Of ⟨#[-MachineScalar.infinity], #[1]⟩ (parabolaRequest 20).problem.D := by
  have openBelow : isNegInfinite (-MachineScalar.infinity : Float) = true := by decide +kernel
  have closedAbove : isPosInfinite (1 : Float) = false := by decide +kernel
  have side : Interval.ofBounds (-MachineScalar.infinity : Float) 1 = ⟨none, some 1⟩ := by
    unfold Interval.ofBounds
    rw [openBelow, closedAbove]
    rfl
  refine ⟨Bounds.of_interval _ _, ?_⟩
  have bounds := Bounds.of_interval (-MachineScalar.infinity : Float) 1
  rw [side] at bounds
  exact bounds

/-- The parabola with its bounds in arrays. -/
def parabolaArrays : ArrayRequest Float Unit Unit :=
  (parabolaRequest 20).onArrays ⟨#[-10], #[10]⟩ ⟨#[-MachineScalar.infinity], #[1]⟩

/-- The solve of the parabola does not panic, and leaves an arena for each of its 35 steps. The
lopsided request reads past the bounds of its feasible set. -/
theorem solve_panics_iff_parabola :
    parabolaArrays.MissesOnlyBounds (parabolaArrays.solve Observer.silent ()) ∧
      (∀ why, (parabolaArrays.solve Observer.silent ()).result ≠ .error (.panic why)) ∧
      (parabolaArrays.solve Observer.silent ()).arenas.length = 35 ∧
      lopsidedRequest.routines.KeepSizes ∧ lopsidedRequest.ReadsPast (.index 1 1) := by
  obtain ⟨onArrays, onBoxes⟩ :=
    solve_panics_iff (F := Float) (ε := Unit) (τ := Unit) Observer.silent ()
  obtain ⟨misses, no_panic, -⟩ :=
    onBoxes (parabolaRequest 20) _ _ of_parabola.1 of_parabola.2
  obtain ⟨lopsided, -⟩ := onArrays lopsidedRequest lopsidedRequest_keepSizes
  have reads : lopsidedRequest.ReadsPast (.index 1 1) :=
    (lopsided.panics_iff _).mp result_lopsidedRequest
  exact ⟨misses, no_panic, by decide +kernel, lopsidedRequest_keepSizes, reads⟩

/-- No access of the solve misses if the request is admitted and its routines keep the sizes of what
they write over. -/
def MissesNoAccess (request : ArrayRequest F ε τ) : Prop :=
  request.form.fault? = none → request.routines.KeepSizes →
    ∀ {σ : Type} (observer : Observer F σ) (listener : σ) (why : Panic),
      (request.solve observer listener).result ≠ .error (.panic why)

/-- The lopsided request is admitted, and its solve panics. -/
theorem not_missesNoAccess : ¬ ∀ request : ArrayRequest Float Unit Unit, request.MissesNoAccess := by
  intro misses
  have faultless : lopsidedRequest.form.fault? = none :=
    Option.isNone_iff_eq_none.mp (by decide +kernel)
  exact misses lopsidedRequest faultless lopsidedRequest_keepSizes Observer.silent () _
    result_lopsidedRequest

end ArrayRequest

end ProximalNewton
