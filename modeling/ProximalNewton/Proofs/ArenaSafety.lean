import ProximalNewton.Proofs.ArrayPrograms
import ProximalNewton.Proofs.Workspace

/-!
# Accesses of a solve on arrays

An admitted request has arrays of the sizes that its problem states (`ArrayRequest.Sized`), with
one exception: of a box only the lower bounds are counted, and upper bounds can be missing. If the
routines keep the size of what they write over, then each step of the solve leaves an arena that
fits when it begins with one, and the only access that can miss is the one to the first missing
upper bound. This is shown for the evaluations of the merit function first, and then for the steps
that are made of them.

The two boxes are projected on before the first iteration: the target set in the first evaluation
of the merit, the feasible set in the first gradient step. A solve that gets past both has complete
bounds, and its iterations are sound by induction on the turns that are left to their loops, its
run by induction on the iterations that are left.

* `ArrayRequest.ReadsPast`: the requests whose solve reads past the bounds of a set.
* `ArrayRequest.begins` and `ArrayRequest.sound_iterate`: the beginning of a solve, and one
  iteration.
* `ArrayRequest.missesOnlyBounds_solve`: a whole solve panics exactly then, and on no other access.
-/

namespace ProximalNewton

variable {F ε τ α β : Type} {n m depth : Nat}

/-! ## Evaluations -/

/-- The arrays that stay fixed while the merit function is evaluated have the size of the
constraint value. -/
structure ArrayMerit.Fit [Scalar F] (merit : ArrayMerit F ε τ) (m : Nat) : Prop where
  dim : merit.D.dim = m
  sigma : merit.sigma.size = m
  y : merit.y.size = m
  shift : merit.shift.size = m

theorem Written.sound_take {written : Written F ε τ} {size : Nat}
    (kept : written.out.size = size) : written.take.Sound fun taken => taken.2.size = size := by
  unfold Written.take
  cases written.outcome with
  | ok _ => exact kept
  | error _ => trivial

/-- How a step ends that calls a routine and projects on the bounds then, if an upper bound is
missing. -/
def Bounds.haltAfter (bounds : Bounds F) (outcome : Except ε Unit) : Halt (SolveError F ε) :=
  match outcome with
  | .ok () => .panic (.index bounds.upper.size bounds.upper.size)
  | .error cause => .failed (.oracle cause)

section Evaluations

variable [Scalar F] {merit : ArrayMerit F ε τ} {buffers : MeritBuffers F τ} {x z gradPsi : Array F}

namespace ArrayMerit

variable (fit : merit.Fit m) (complete : merit.D.Complete) (keeps : merit.routines.KeepSizes)
  (buffers_fit : buffers.Fit n m) (z_size : z.size = m) (gradPsi_size : gradPsi.size = n)

include fit buffers_fit z_size in
theorem sound_psi (x : Array F) : (merit.psi x z buffers).Sound fun found => found.2.Fit n m := by
  obtain ⟨g, g_eq⟩ := Checked.exists_vector buffers_fit.constraint
  obtain ⟨z, rfl⟩ := Checked.exists_vector z_size
  obtain ⟨sigma, sigma_eq⟩ := Checked.exists_vector fit.sigma
  obtain ⟨shift, shift_eq⟩ := Checked.exists_vector fit.shift
  unfold psi
  rw [← g_eq, ← sigma_eq, ← shift_eq, Checked.distanceSq_eq, Checked.ok_bind]
  rcases merit.routines.f buffers.world x with ⟨world, cause | f⟩
  · trivial
  · exact { buffers_fit with constraint := g_eq ▸ buffers_fit.constraint }

include fit complete keeps buffers_fit z_size in
theorem sound_writeSlack (x : Array F) :
    (merit.writeSlack x z buffers).Sound fun found => found.1.size = m ∧ found.2.Fit n m := by
  unfold writeSlack
  refine (Written.sound_take ((keeps.g _ _ _).trans buffers_fit.constraint)).bind ?_
  intro answer size
  obtain ⟨world, constraint⟩ := answer
  obtain ⟨g, rfl⟩ := Checked.exists_vector size
  obtain ⟨z, rfl⟩ := Checked.exists_vector z_size
  obtain ⟨shift, shift_eq⟩ := Checked.exists_vector fit.shift
  dsimp only
  rw [← shift_eq, Checked.slack_eq merit.D fit.dim complete, Checked.ok_bind]
  exact ⟨Vector.size_toArray _, { buffers_fit with constraint := size }⟩

include fit complete keeps buffers_fit z_size in
theorem sound_value (x : Array F) :
    (merit.value x z buffers).Sound fun found => found.2.1.size = m ∧ found.2.2.Fit n m := by
  unfold value
  refine (sound_writeSlack fit complete keeps buffers_fit z_size x).bind ?_
  intro answer fits
  obtain ⟨z, buffers⟩ := answer
  obtain ⟨z_size, buffers_fit⟩ := fits
  refine (sound_psi fit buffers_fit z_size x).bind ?_
  intro answer buffers_fit
  obtain ⟨psi, buffers⟩ := answer
  exact ⟨z_size, buffers_fit⟩

include keeps buffers_fit gradPsi_size in
theorem sound_writeGradient (x : Array F) :
    (merit.writeGradient x gradPsi buffers).Sound fun found =>
      found.1.size = n ∧ found.2.Fit n m := by
  unfold writeGradient
  refine (Written.sound_take ((keeps.gradF _ _ _).trans gradPsi_size)).bind ?_
  intro answer gradPsi_size
  obtain ⟨world, gradPsi⟩ := answer
  refine (Written.sound_take ((keeps.gradG _ _ _ _).trans buffers_fit.adjoint)).bind ?_
  intro answer adjoint_size
  obtain ⟨world, adjoint⟩ := answer
  obtain ⟨gradPsi, rfl⟩ := Checked.exists_vector gradPsi_size
  obtain ⟨adjoint, rfl⟩ := Checked.exists_vector adjoint_size
  dsimp only
  rw [Checked.add_eq, Checked.ok_bind]
  exact ⟨Vector.size_toArray _, { buffers_fit with adjoint := adjoint_size }⟩

include fit complete keeps buffers_fit z_size gradPsi_size in
theorem sound_gradient (x : Array F) :
    (merit.gradient x z gradPsi buffers).Sound fun found =>
      found.1.size = m ∧ found.2.1.size = n ∧ found.2.2.Fit n m := by
  unfold gradient
  refine (sound_writeSlack fit complete keeps buffers_fit z_size x).bind ?_
  intro answer fits
  obtain ⟨z, buffers⟩ := answer
  obtain ⟨z_size, buffers_fit⟩ := fits
  obtain ⟨g, g_eq⟩ := Checked.exists_vector buffers_fit.constraint
  obtain ⟨yHat, yHat_eq⟩ := Checked.exists_vector buffers_fit.multipliers
  obtain ⟨sigma, sigma_eq⟩ := Checked.exists_vector fit.sigma
  obtain ⟨y, y_eq⟩ := Checked.exists_vector fit.y
  obtain ⟨z, rfl⟩ := Checked.exists_vector z_size
  dsimp only
  rw [← g_eq, ← yHat_eq, ← sigma_eq, ← y_eq, Checked.multiplierEstimate_eq, Checked.ok_bind,
    g_eq]
  have written_fit : MeritBuffers.Fit { buffers with
      multipliers := (multiplierEstimate z g y sigma).toArray
      gradEvals := buffers.gradEvals + 1 } n m :=
    { buffers_fit with multipliers := Vector.size_toArray _ }
  refine (sound_writeGradient keeps written_fit gradPsi_size x).bind ?_
  intro answer fits
  obtain ⟨gradPsi, buffers⟩ := answer
  obtain ⟨gradPsi_size, buffers_fit⟩ := fits
  exact ⟨z_size, gradPsi_size, buffers_fit⟩

include fit complete keeps buffers_fit z_size gradPsi_size in
theorem sound_evaluate (x : Array F) :
    (merit.evaluate x z gradPsi buffers).Sound fun found =>
      found.2.1.size = m ∧ found.2.2.1.size = n ∧ found.2.2.2.Fit n m := by
  unfold evaluate
  refine (sound_gradient fit complete keeps buffers_fit z_size gradPsi_size x).bind ?_
  intro answer fits
  obtain ⟨z, gradPsi, buffers⟩ := answer
  obtain ⟨z_size, gradPsi_size, buffers_fit⟩ := fits
  refine (sound_psi fit buffers_fit z_size x).bind ?_
  intro answer buffers_fit
  obtain ⟨psi, buffers⟩ := answer
  exact ⟨z_size, gradPsi_size, buffers_fit⟩

include fit keeps buffers_fit z_size in
/-- Without all upper bounds of the target set, an evaluation ends with the constraint map, or at
the first bound that is missing. -/
theorem evaluate_incomplete (incomplete : ¬ merit.D.Complete) (x gradPsi : Array F) :
    merit.evaluate x z gradPsi buffers = .error
      (merit.D.haltAfter (merit.routines.g buffers.world x buffers.constraint).outcome) := by
  have size := (keeps.g buffers.world x buffers.constraint).trans buffers_fit.constraint
  obtain ⟨g, g_eq⟩ := Checked.exists_vector size
  obtain ⟨z, rfl⟩ := Checked.exists_vector z_size
  obtain ⟨shift, shift_eq⟩ := Checked.exists_vector fit.shift
  have missed := Checked.slack_incomplete (E := SolveError F ε) merit.D fit.dim incomplete g
    shift z
  rw [g_eq, shift_eq] at missed
  unfold evaluate gradient writeSlack Written.take
  cases (merit.routines.g buffers.world x buffers.constraint).outcome with
  | error cause => rfl
  | ok answered =>
    simp only [pure_bind, missed, Checked.error_bind]
    rfl

end ArrayMerit

theorem IterateBuffers.sound_evaluate {iterate : IterateBuffers F} (fit : merit.Fit m)
    (complete : merit.D.Complete) (keeps : merit.routines.KeepSizes) (iterate_fit : iterate.Fit n m)
    (buffers_fit : buffers.Fit n m) :
    (iterate.evaluate merit buffers).Sound fun found => found.1.Fit n m ∧ found.2.Fit n m := by
  unfold evaluate
  refine (ArrayMerit.sound_evaluate fit complete keeps buffers_fit iterate_fit.z
    iterate_fit.gradPsi _).bind ?_
  intro answer fits
  obtain ⟨psi, z, gradPsi, buffers⟩ := answer
  obtain ⟨z_size, gradPsi_size, buffers_fit⟩ := fits
  exact ⟨{ iterate_fit with z := z_size, gradPsi := gradPsi_size }, buffers_fit⟩

end Evaluations

/-! ## Steps of a solve -/

section Requests

variable [Scalar F]

/-- The arrays of the request have the sizes that its problem states, and there is to be at least
one curvature pair. Of the bounds of its sets only the lower ones are counted. -/
structure ArrayRequest.Sized (request : ArrayRequest F ε τ) : Prop where
  dimC : request.C.dim = request.numVars
  merit : request.merit.Fit request.numConstraints
  buffers : request.buffers.Fit request.numVars request.numConstraints
  depth_pos : 0 < request.params.memory.depth

/-- The arena fits the problem and the memory of the request. -/
abbrev Arena.Suits (arena : Arena F τ) (request : ArrayRequest F ε τ) : Prop :=
  arena.Fit request.numVars request.numConstraints request.params.memory.depth

/-- The request without its routines is admitted only if its arrays have these sizes. -/
theorem ArrayRequest.sized_of_faultless {request : ArrayRequest F ε τ}
    (faultless : request.form.fault? = none) : request.Sized := by
  obtain ⟨-, sizes, -, -, -, params, -⟩ := Request.conditions_of_faultless faultless
  obtain ⟨x, C, D, z, y, errZ, sigma⟩ := Request.sizes_agree sizes
  have shift : request.merit.shift.size = request.numConstraints := by
    have zipped : request.merit.shift.size = min request.buffers.y.size request.sigma.size :=
      Array.size_zipWith
    have y : request.buffers.y.size = request.numConstraints := y
    have sigma : request.sigma.size = request.numConstraints := sigma
    rw [zipped, y, sigma, Nat.min_self]
  exact ⟨C, ⟨D, sigma, y, shift⟩, ⟨x, z, y, errZ⟩, params .memoryDepth⟩

namespace Arena.Fit

variable {E : Type} {arena : Arena F τ} (fit : arena.Fit n m depth)

omit [Scalar F] in
include fit in
/-- A step is sound if it takes each workspace to a workspace. -/
theorem sound_of_workspaces (made : Arena F τ → Checked E (Arena F τ))
    (each : ∀ workspace : Workspace F τ n m depth, ∃ left : Workspace F τ n m depth,
      made workspace.arena = .ok left.arena) :
    (made arena).Sound fun left => left.Fit n m depth := by
  obtain ⟨workspace, rfl⟩ := fit.exists_workspace
  obtain ⟨left, made_eq⟩ := each workspace
  exact Checked.sound_of_eq made_eq left.fit_arena

include fit

theorem sound_stepCurrent (C : Bounds F) (fits : C.dim = n) (complete : C.Complete) (gamma : F) :
    (arena.stepCurrent C gamma : Checked E _).Sound fun left => left.Fit n m depth :=
  fit.sound_of_workspaces (Arena.stepCurrent · C gamma) fun workspace =>
    ⟨_, workspace.stepCurrent_eq C fits complete gamma⟩

theorem stepCurrent_incomplete (C : Bounds F) (fits : C.dim = n) (incomplete : ¬ C.Complete)
    (gamma : F) :
    (arena.stepCurrent C gamma : Checked E _) =
      .error (.panic (.index C.upper.size C.upper.size)) := by
  obtain ⟨workspace, rfl⟩ := fit.exists_workspace
  exact workspace.stepCurrent_incomplete C fits incomplete gamma

theorem sound_stepCandidate (C : Bounds F) (fits : C.dim = n) (complete : C.Complete) (gamma : F) :
    (arena.stepCandidate C gamma : Checked E _).Sound fun left => left.Fit n m depth :=
  fit.sound_of_workspaces (Arena.stepCandidate · C gamma) fun workspace =>
    ⟨_, workspace.stepCandidate_eq C fits complete gamma⟩

theorem sound_measure (gamma : F) :
    (arena.measure gamma : Checked E _).Sound fun found => found.2.Fit n m depth := by
  obtain ⟨workspace, rfl⟩ := fit.exists_workspace
  exact Checked.sound_of_eq (workspace.measure_eq gamma) (Workspace.fit_arena _)

omit [Scalar F] in
theorem forget : arena.forget.Fit n m depth := by
  obtain ⟨workspace, rfl⟩ := fit.exists_workspace
  rw [workspace.forget_eq]
  exact Workspace.fit_arena _

theorem sound_aim : (arena.aim : Checked E _).Sound fun left => left.Fit n m depth :=
  fit.sound_of_workspaces Arena.aim fun workspace => ⟨_, workspace.aim_eq⟩

theorem sound_place (tau : F) :
    (arena.place tau : Checked E _).Sound fun left => left.Fit n m depth :=
  fit.sound_of_workspaces (Arena.place · tau) fun workspace => ⟨_, workspace.place_eq tau⟩

theorem sound_learn : (arena.learn : Checked E _).Sound fun left => left.Fit n m depth :=
  fit.sound_of_workspaces Arena.learn fun workspace => ⟨_, workspace.learn_eq⟩

omit [Scalar F] in
theorem swap : arena.swap.Fit n m depth :=
  { fit with current := fit.candidate, candidate := fit.current }

theorem sound_deliver : (arena.deliver : Checked E _).Sound fun left => left.Fit n m depth :=
  fit.sound_of_workspaces Arena.deliver fun workspace => ⟨_, workspace.deliver_eq⟩

end Arena.Fit

namespace ArrayRequest

open ArrayProgram

variable {request : ArrayRequest F ε τ} {arena : Arena F τ}

theorem sound_allocate (sized : request.Sized) :
    request.allocate.Sound fun arena => arena.Suits request := by
  obtain ⟨caller, handed⟩ := sized.buffers.exists_vectors
  exact Checked.sound_of_eq (request.allocate_eq sized.depth_pos handed) (Workspace.fit_arena _)

omit [Scalar F] in
theorem sound_takeGuess (suits : arena.Suits request) :
    (takeGuess arena : Checked (SolveError F ε) _).Sound fun arena => arena.Suits request :=
  suits.sound_of_workspaces takeGuess fun workspace => ⟨_, workspace.takeGuess_eq⟩

/-- The first evaluation is of the initial guess, with blank arrays for the merit. -/
theorem exists_guess (sized : request.Sized) :
    ∃ allocated guess : Arena F τ, request.allocate = .ok allocated ∧
      (takeGuess allocated : Checked (SolveError F ε) _) = .ok guess ∧ guess.Suits request ∧
      guess.current.x = request.buffers.x ∧
      guess.merit = .allocate request.world request.numVars request.numConstraints := by
  obtain ⟨caller, handed⟩ := sized.buffers.exists_vectors
  refine ⟨_, _, request.allocate_eq sized.depth_pos handed, Workspace.takeGuess_eq _,
    Workspace.fit_arena _, ?_, rfl⟩
  rw [← handed]
  rfl

section Steps

variable (suits : arena.Suits request) (sized : request.Sized) (complete : request.D.Complete)
  (keeps : request.routines.KeepSizes)

include suits sized complete keeps

theorem sound_evaluateCurrent :
    (request.evaluateCurrent arena).Sound fun arena => arena.Suits request := by
  unfold evaluateCurrent
  refine (IterateBuffers.sound_evaluate sized.merit complete keeps suits.current suits.merit).bind
    ?_
  intro answer fits
  obtain ⟨current, merit⟩ := answer
  obtain ⟨current_fit, merit_fit⟩ := fits
  exact { suits with current := current_fit, merit := merit_fit }

theorem sound_evaluateCandidate :
    (request.evaluateCandidate arena).Sound fun arena => arena.Suits request := by
  unfold evaluateCandidate
  refine (IterateBuffers.sound_evaluate sized.merit complete keeps suits.candidate
    suits.merit).bind ?_
  intro answer fits
  obtain ⟨candidate, merit⟩ := answer
  obtain ⟨candidate_fit, merit_fit⟩ := fits
  exact { suits with candidate := candidate_fit, merit := merit_fit }

theorem sound_evaluateHat :
    (request.evaluateHat arena).Sound fun found => found.2.Suits request := by
  unfold evaluateHat
  refine (ArrayMerit.sound_evaluate sized.merit complete keeps suits.merit suits.zHat
    suits.gradHat _).bind ?_
  intro answer fits
  obtain ⟨psiHat, zHat, gradHat, merit⟩ := answer
  obtain ⟨zHat_size, gradHat_size, merit_fit⟩ := fits
  exact { suits with zHat := zHat_size, gradHat := gradHat_size, merit := merit_fit }

theorem sound_valueHat : (request.valueHat arena).Sound fun found => found.2.Suits request := by
  unfold valueHat
  refine (ArrayMerit.sound_value sized.merit complete keeps suits.merit suits.zHat _).bind ?_
  intro answer fits
  obtain ⟨psiHat, zHat, merit⟩ := answer
  obtain ⟨zHat_size, merit_fit⟩ := fits
  exact { suits with zHat := zHat_size, merit := merit_fit }

theorem sound_initialLipschitz :
    (request.initialLipschitz arena).Sound fun found => found.2.Suits request := by
  obtain ⟨workspace, rfl⟩ := suits.exists_workspace
  rw [workspace.initialLipschitz_eq]
  refine (ArrayMerit.sound_gradient sized.merit complete keeps suits.merit (Vector.size_toArray _)
    (Vector.size_toArray _) _).bind ?_
  intro answer fits
  obtain ⟨z, gradPsi, merit⟩ := answer
  obtain ⟨_, gradPsi_size, merit_fit⟩ := fits
  obtain ⟨gradPsi, rfl⟩ := Checked.exists_vector gradPsi_size
  dsimp only
  rw [Checked.difference_eq, Checked.ok_bind]
  exact { suits with merit := merit_fit }

end Steps

/-! ## The beginning -/

/-- The solve of the request reads an upper bound that is missing. It projects on the target set
first, with the first constraint value, and on the feasible set when the Lipschitz constant has
been estimated. -/
inductive ReadsPast (request : ArrayRequest F ε τ) : Panic → Prop
  | target (faultless : request.form.fault? = none) (incomplete : ¬ request.D.Complete)
    (answered : (request.routines.g request.world request.buffers.x
      (Array.replicate request.numConstraints 0)).outcome = .ok ()) :
    request.ReadsPast (.index request.D.upper.size request.D.upper.size)
  | feasible (faultless : request.form.fault? = none) (incomplete : ¬ request.C.Complete)
    {lipschitz : F} {arena : Arena F τ}
    (estimated : request.estimate.result = .ok (lipschitz, arena))
    (finite : Scalar.isFinite lipschitz = true) :
    request.ReadsPast (.index request.C.upper.size request.C.upper.size)

/-- The beginning of a solve leaves arenas that fit, panics only if the solve reads past the bounds
of a set, and goes on only with sets that have all bounds. -/
structure Begins (request : ArrayRequest F ε τ) : Prop where
  keeps : request.start.Keeps (fun arena => arena.Suits request)
    (fun state => state.arena.Suits request)
  reads : ∀ why, request.start.result = .error (.panic why) → request.ReadsPast why
  complete : ∀ state, request.start.result = .ok state →
    request.C.Complete ∧ request.D.Complete

variable (suits : arena.Suits request) (sized : request.Sized)
  (keeps : request.routines.KeepSizes)

include suits sized keeps in
theorem evaluateCurrent_incomplete (incomplete : ¬ request.D.Complete) :
    request.evaluateCurrent arena = .error (request.D.haltAfter
      (request.routines.g arena.merit.world arena.current.x arena.merit.constraint).outcome) := by
  have halts := ArrayMerit.evaluate_incomplete sized.merit keeps suits.merit suits.current.z
    incomplete arena.current.x arena.current.gradPsi
  unfold evaluateCurrent IterateBuffers.evaluate
  rw [halts]
  rfl

include sized keeps in
theorem sound_estimate (complete : request.D.Complete) :
    request.estimate.Sound (fun arena => arena.Suits request)
      (fun found => found.2.Suits request) := by
  unfold estimate
  refine (sound_step (sound_allocate sized)).bind fun arena suits => ?_
  refine (sound_step (sound_takeGuess suits)).bind fun arena suits => ?_
  refine (sound_step (sound_evaluateCurrent suits sized complete keeps)).bind fun arena suits => ?_
  exact sound_find (sound_initialLipschitz suits sized complete keeps)

include sized keeps in
/-- Without all upper bounds of the target set, the steps before the first evaluation leave arenas
that fit, and the evaluation ends the solve. -/
theorem estimate_incomplete (incomplete : ¬ request.D.Complete) :
    request.estimate.Keeps (fun arena => arena.Suits request) (fun _ => False) ∧
      request.estimate.result = .error (request.D.haltAfter (request.routines.g request.world
        request.buffers.x (Array.replicate request.numConstraints 0)).outcome) := by
  unfold estimate
  refine ⟨?_, ?_⟩
  · refine (sound_step (sound_allocate sized)).toKeeps.bind fun arena suits => ?_
    refine (sound_step (sound_takeGuess suits)).toKeeps.bind fun arena suits => ?_
    have halts := evaluateCurrent_incomplete suits sized keeps incomplete
    rw [step_bind_of_error halts]
    exact keeps_error _
  · obtain ⟨allocated, guess, allocate_eq, guess_eq, suits, at_guess, blank⟩ := exists_guess sized
    have halts := evaluateCurrent_incomplete suits sized keeps incomplete
    rw [at_guess, blank] at halts
    rw [result_step_bind allocate_eq, result_step_bind guess_eq, step_bind_of_error halts]
    rfl

include sized keeps in
/-- The state before the first iteration is reached without a miss if all bounds are there. -/
theorem sound_start (completeC : request.C.Complete) (completeD : request.D.Complete) :
    request.start.Sound (fun arena => arena.Suits request)
      (fun state => state.arena.Suits request) := by
  unfold start
  refine (sound_estimate sized keeps completeD).bind ?_
  intro answer suits
  obtain ⟨lipschitz, arena⟩ := answer
  dsimp only
  split
  · refine (sound_step (suits.sound_stepCurrent request.C sized.dimC completeC _)).bind ?_
    intro arena suits
    exact sound_pure suits
  · exact sound_fail _

theorem result_start_of_error {halt : Halt (SolveError F ε)}
    (halts : request.estimate.result = .error halt) : request.start.result = .error halt := by
  unfold start
  rw [Traced.bind_of_error halts]

include sized keeps in
/-- The estimate is the last thing before the first step, which needs the upper bounds of the
feasible set. -/
theorem result_start_incomplete (incomplete : ¬ request.C.Complete) {lipschitz : F}
    (estimated : request.estimate.result = .ok (lipschitz, arena)) :
    request.start.result =
      if Scalar.isFinite lipschitz then
        .error (.panic (.index request.C.upper.size request.C.upper.size))
      else .error (.failed (.stepSize 0 0 lipschitz)) := by
  have suits : arena.Suits request := by
    by_cases complete : request.D.Complete
    · exact (sound_estimate sized keeps complete).found _ estimated
    · cases (estimate_incomplete sized keeps complete).2.symm.trans estimated
  unfold start
  rw [Traced.bind_of_ok estimated]
  dsimp only
  split
  · rw [step_bind_of_error (suits.stepCurrent_incomplete request.C sized.dimC incomplete _)]
  · rfl

variable (faultless : request.form.fault? = none)

include keeps in
/-- A solve that reads past the bounds of a set panics there. -/
theorem start_of_readsPast {why : Panic} (reads : request.ReadsPast why) :
    request.start.result = .error (.panic why) := by
  cases reads with
  | target faultless incomplete answered =>
    have sized := sized_of_faultless faultless
    have halts := result_start_of_error (estimate_incomplete sized keeps incomplete).2
    rw [answered] at halts
    exact halts
  | feasible faultless incomplete estimated finite =>
    have sized := sized_of_faultless faultless
    rw [result_start_incomplete sized keeps incomplete estimated, if_pos finite]

/-- The beginning ends the solve. -/
theorem Begins.of_halt
    (start_keeps : request.start.Keeps (fun arena => arena.Suits request)
      (fun state => state.arena.Suits request))
    {halt : Halt (SolveError F ε)} (halts : request.start.result = .error halt)
    (reads : ∀ why, halt = .panic why → request.ReadsPast why) : request.Begins where
  keeps := start_keeps
  reads why panics := reads why (Except.error.inj (halts.symm.trans panics))
  complete _ started := nomatch halts.symm.trans started

include faultless keeps in
theorem begins_of_target_incomplete (incomplete : ¬ request.D.Complete) : request.Begins := by
  obtain ⟨estimate_keeps, ended⟩ :=
    estimate_incomplete (sized_of_faultless faultless) keeps incomplete
  refine .of_halt (estimate_keeps.bind fun _ never => never.elim) (result_start_of_error ended) ?_
  intro why same
  cases answered : (request.routines.g request.world request.buffers.x
    (Array.replicate request.numConstraints 0)).outcome with
  | ok answer =>
    rw [answered] at same
    cases same
    exact .target faultless incomplete answered
  | error cause =>
    rw [answered] at same
    cases same

include faultless keeps in
theorem begins_of_feasible_incomplete (complete : request.D.Complete)
    (incomplete : ¬ request.C.Complete) : request.Begins := by
  have sized := sized_of_faultless faultless
  have sound := sound_estimate sized keeps complete
  have start_keeps : request.start.Keeps (fun arena => arena.Suits request)
      (fun state => state.arena.Suits request) := by
    refine sound.toKeeps.bind ?_
    intro answer suits
    obtain ⟨lipschitz, arena⟩ := answer
    dsimp only
    split
    · rw [step_bind_of_error (suits.stepCurrent_incomplete request.C sized.dimC incomplete _)]
      exact keeps_error _
    · exact (sound_fail _).toKeeps
  cases estimated : request.estimate.result with
  | error halt =>
    refine .of_halt start_keeps (result_start_of_error estimated) ?_
    intro why same
    subst same
    exact absurd estimated (sound.no_panic why)
  | ok found =>
    have halts := result_start_incomplete sized keeps incomplete estimated
    by_cases finite : Scalar.isFinite found.1 = true
    · rw [if_pos finite] at halts
      refine .of_halt start_keeps halts ?_
      intro why same
      cases same
      exact .feasible faultless incomplete estimated finite
    · rw [if_neg finite] at halts
      exact .of_halt start_keeps halts fun _ same => nomatch same

include faultless keeps in
/-- Each way the bounds can be. -/
theorem begins : request.Begins := by
  by_cases completeD : request.D.Complete
  · by_cases completeC : request.C.Complete
    · have sound := sound_start (sized_of_faultless faultless) keeps completeC completeD
      exact ⟨sound.toKeeps, fun why panics => absurd panics (sound.no_panic why),
        fun _ _ => ⟨completeC, completeD⟩⟩
    · exact begins_of_feasible_incomplete keeps faultless completeD completeC
  · exact begins_of_target_incomplete keeps faultless completeD

/-! ## Iterations -/

/-- The arena that an iteration ends with fits. -/
def Leaves (request : ArrayRequest F ε τ) : ArrayProgress F τ → Prop
  | .converged _ arena => arena.Suits request
  | .advanced _ next => next.arena.Suits request

section Iterations

variable (completeC : request.C.Complete) (completeD : request.D.Complete)

include sized completeC completeD keeps

/-- One turn of the loop steps from an arena that fits to one that fits, and the loop goes on
from there. -/
theorem sound_adapt (iteration updates left : Nat) {state : ArrayState F τ}
    (suits : state.arena.Suits request) (psiHat : F) :
    (request.adapt iteration updates left state psiHat).Sound (fun arena => arena.Suits request)
      (fun state => state.arena.Suits request) := by
  induction left generalizing updates state psiHat with
  | zero =>
    unfold adapt
    split
    · exact sound_fail _
    · exact sound_pure suits
  | succ left ih =>
    rw [adapt]
    split
    · refine (sound_step (Checked.sound_ok suits.forget)).bind fun arena suits => ?_
      refine (sound_tell _).bind fun _ _ => ?_
      refine (sound_step (suits.sound_stepCurrent request.C sized.dimC completeC _)).bind ?_
      intro arena suits
      refine (sound_find (sound_valueHat suits sized completeD keeps)).bind ?_
      intro answer suits
      obtain ⟨psiHat, arena⟩ := answer
      exact ih (updates + 1) suits psiHat
    · exact sound_pure suits

theorem sound_tryPoint (iteration : Nat) (size : StepSize F) (tau : F)
    (suits : arena.Suits request) :
    (request.tryPoint iteration size tau arena).Sound (fun arena => arena.Suits request)
      (fun found => found.2.Suits request) := by
  unfold tryPoint
  refine (sound_step (suits.sound_place tau)).bind fun arena suits => ?_
  refine (sound_step (sound_evaluateCandidate suits sized completeD keeps)).bind ?_
  intro arena suits
  refine (sound_step (suits.sound_stepCandidate request.C sized.dimC completeC _)).bind ?_
  intro arena suits
  exact sound_pure suits

/-- A trial is made in the arrays of the candidate, which fit, and so do those of the next
trial. -/
theorem sound_backtrack (iteration : Nat) (size : StepSize F) (halvings : Nat) (tau : F)
    (suits : arena.Suits request) :
    (request.backtrack iteration size halvings tau arena).Sound
      (fun arena => arena.Suits request) (fun result => result.arena.Suits request) := by
  induction halvings generalizing tau arena with
  | zero =>
    unfold backtrack
    refine (sound_tryPoint sized keeps completeC completeD iteration size tau suits).bind ?_
    intro answer suits
    obtain ⟨report, arena⟩ := answer
    dsimp only
    split
    · exact (sound_tell _).bind fun _ _ => sound_pure suits
    · exact (sound_tell _).bind fun _ _ => sound_pure suits
  | succ left ih =>
    rw [backtrack]
    refine (sound_tryPoint sized keeps completeC completeD iteration size tau suits).bind ?_
    intro answer suits
    obtain ⟨report, arena⟩ := answer
    dsimp only
    split
    · exact (sound_tell _).bind fun _ _ => sound_pure suits
    · split
      · exact (sound_tell _).bind fun _ _ => sound_pure suits
      · exact (sound_tell _).bind fun _ _ => ih _ suits

theorem sound_advance (iteration : Nat) {state : ArrayState F τ}
    (suits : state.arena.Suits request) :
    (request.advance iteration state).Sound (fun arena => arena.Suits request)
      (fun state => state.arena.Suits request) := by
  unfold advance
  refine (sound_step suits.sound_aim).bind fun arena suits => ?_
  refine (sound_backtrack sized keeps completeC completeD iteration _ _ _ suits).bind ?_
  intro result suits
  refine (sound_step suits.sound_learn).bind fun arena suits => ?_
  refine (sound_step (Checked.sound_ok suits.swap)).bind fun arena suits => ?_
  exact sound_pure suits

/-- One iteration leaves arenas that fit and makes no access that misses. -/
theorem sound_iterate (iteration : Nat) {state : ArrayState F τ}
    (suits : state.arena.Suits request) :
    (request.iterate iteration state).Sound (fun arena => arena.Suits request)
      request.Leaves := by
  unfold iterate
  refine (sound_find (sound_evaluateHat suits sized completeD keeps)).bind ?_
  intro answer suits
  obtain ⟨psiHat, arena⟩ := answer
  refine (sound_find (suits.sound_measure _)).bind ?_
  intro answer suits
  obtain ⟨residual, arena⟩ := answer
  refine (sound_tell _).bind fun _ _ => ?_
  dsimp only
  split
  · refine (sound_step suits.sound_deliver).bind fun arena suits => ?_
    exact (sound_tell _).bind fun _ _ => sound_pure suits
  · refine (sound_adapt sized keeps completeC completeD iteration 0 _ suits psiHat).bind ?_
    intro state suits
    refine (sound_advance sized keeps completeC completeD iteration suits).bind ?_
    intro next suits
    exact sound_pure suits

end Iterations

/-! ## Runs -/

variable {σ : Type}

/-- The arenas of the outcome fit, and it is not a panic. -/
structure Safe (request : ArrayRequest F ε τ) (outcome : ArrayOutcome F ε τ σ) : Prop where
  arenas : ∀ arena ∈ outcome.arenas, arena.Suits request
  no_panic : ∀ why, outcome.result ≠ .error (.panic why)

omit [Scalar F] in
theorem safe_halted (error : SolveError F ε) (listener : σ) {arenas : List (Arena F τ)}
    (suit : ∀ arena ∈ arenas, arena.Suits request) :
    request.Safe (request.halted (.failed error) listener arenas) :=
  ⟨suit, fun _ same => nomatch same⟩

omit [Scalar F] in
theorem mem_arenas_after {outcome : ArrayOutcome F ε τ σ} {earlier : List (Arena F τ)}
    (before : ∀ arena ∈ earlier, arena.Suits request)
    (later : ∀ arena ∈ outcome.arenas, arena.Suits request) :
    ∀ arena ∈ (outcome.after earlier).arenas, arena.Suits request :=
  fun arena member => (List.mem_append.mp member).elim (before arena) (later arena)

include sized keeps in
/-- By induction on the iterations that are left: each begins with an arena that fits. -/
theorem safe_run (completeC : request.C.Complete) (completeD : request.D.Complete)
    (observer : Observer F σ) (left iteration : Nat) {state : ArrayState F τ}
    (suits : state.arena.Suits request) (listener : σ) :
    request.Safe (request.run observer left iteration state listener) := by
  fun_induction run request observer left iteration state listener with
  | case1 left iteration state listener after asked =>
    exact safe_halted _ _ fun _ member => absurd member List.not_mem_nil
  | case2 left iteration state listener after asked block told halt stopped =>
    have sound := sound_iterate sized keeps completeC completeD iteration suits
    refine ⟨sound.arenas, ?_⟩
    intro why panics
    cases panics
    exact sound.no_panic why stopped
  | case3 left iteration state listener after asked block told summary arena converged =>
    have sound := sound_iterate sized keeps completeC completeD iteration suits
    exact ⟨sound.arenas, fun _ same => nomatch same⟩
  | case4 iteration state listener after asked block told residual next advanced =>
    have sound := sound_iterate sized keeps completeC completeD iteration suits
    exact safe_halted _ _ sound.arenas
  | case5 iteration state listener after asked block told residual next advanced left ih =>
    have sound := sound_iterate sized keeps completeC completeD iteration suits
    have next_suits : next.arena.Suits request := sound.found _ advanced
    have later := ih next_suits
    exact ⟨mem_arenas_after sound.arenas later.arenas, later.no_panic⟩

/-! ## Solves -/

/-- No access of a solve misses but the one to an upper bound that is missing: it panics exactly
if it reads past the bounds of a set. The arrays that stay fixed and those of each arena have the
sizes that the problem and the settings state, and where a slot of the curvature memory is, can be
computed without going below zero and lies among the slots. -/
structure MissesOnlyBounds (request : ArrayRequest F ε τ) (outcome : ArrayOutcome F ε τ σ) :
    Prop where
  panics_iff : ∀ why, outcome.result = .error (.panic why) ↔ request.ReadsPast why
  fixed : request.form.fault? = none → request.Sized
  arenas : ∀ arena ∈ outcome.arenas, arena.Suits request
  slots : ∀ arena ∈ outcome.arenas, ∀ k, ∃ i < request.params.memory.depth,
    (arena.curvature.slot k : Checked (SolveError F ε) Nat) = .ok i

/-- The slots are in range in an arena that fits. -/
theorem MissesOnlyBounds.of_arenas {outcome : ArrayOutcome F ε τ σ}
    (panics_iff : ∀ why, outcome.result = .error (.panic why) ↔ request.ReadsPast why)
    (arenas : ∀ arena ∈ outcome.arenas, arena.Suits request) :
    request.MissesOnlyBounds outcome where
  panics_iff := panics_iff
  fixed := sized_of_faultless
  arenas := arenas
  slots arena member k := by
    obtain ⟨workspace, rfl⟩ := (arenas arena member).exists_workspace
    exact ⟨_, workspace.curvature.memory.pairs.slot_lt k, workspace.curvature.slot_slots k⟩

/-- With all upper bounds there is no panic. -/
theorem MissesOnlyBounds.no_panic {outcome : ArrayOutcome F ε τ σ}
    (misses : request.MissesOnlyBounds outcome) (completeC : request.C.Complete)
    (completeD : request.D.Complete) (why : Panic) : outcome.result ≠ .error (.panic why) := by
  intro panics
  cases (misses.panics_iff why).mp panics with
  | target _ incomplete _ => exact incomplete completeD
  | feasible _ incomplete _ _ => exact incomplete completeC

include keeps in
/-- Whatever is asked to be solved: a request whose arrays have other sizes is refused before
anything is allocated, and a solve that gets past its beginning has all bounds. -/
theorem missesOnlyBounds_solve (observer : Observer F σ) (listener : σ) :
    request.MissesOnlyBounds (request.solve observer listener) := by
  unfold solve
  split
  · rename_i fault found
    refine .of_arenas ?_ fun _ member => absurd member List.not_mem_nil
    intro why
    refine ⟨(fun same => nomatch same), ?_⟩
    intro reads
    cases reads with
    | target faultless _ _ => cases faultless.symm.trans found
    | feasible faultless _ _ _ => cases faultless.symm.trans found
  · rename_i faultless
    have begins := begins keeps faultless
    dsimp only
    split
    · rename_i halt stopped
      refine .of_arenas ?_ begins.keeps.arenas
      intro why
      refine ⟨?_, ?_⟩
      · intro panics
        cases panics
        exact begins.reads why stopped
      · intro reads
        cases stopped.symm.trans (start_of_readsPast keeps reads)
        rfl
    · rename_i state started
      obtain ⟨completeC, completeD⟩ := begins.complete state started
      have sized := sized_of_faultless faultless
      have safe := safe_run sized keeps completeC completeD observer (request.params.maxIter - 1) 0
        (begins.keeps.found state started) listener
      refine .of_arenas ?_ (mem_arenas_after begins.keeps.arenas safe.arenas)
      intro why
      refine ⟨fun panics => absurd panics (safe.no_panic why), ?_⟩
      intro reads
      cases started.symm.trans (start_of_readsPast keeps reads)

end ArrayRequest

end Requests

end ProximalNewton
