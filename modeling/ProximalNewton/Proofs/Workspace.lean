import ProximalNewton.ArrayRun
import ProximalNewton.MeritStore
import ProximalNewton.Iterate
import ProximalNewton.Search
import ProximalNewton.Proofs.CurvatureSlots

/-!
# Arenas that fit

The arrays of an arena fit a problem of `n` variables and `m` constraints and a memory of `depth`
pairs when each of them has its size and the head and the number of live pairs are in range
(`Arena.Fit`). Such an arena is made of vectors: `Workspace.arena` takes a `Workspace` apart, and
`Arena.Fit.exists_workspace` puts it together again.

On the arena of a workspace each step that calls no routine succeeds, whatever is in the vectors
that it writes over: `Workspace.stepCurrent_eq` and its neighbours say which workspace it leaves. A
step that projects needs all upper bounds of the box, and panics without them
(`Workspace.stepCurrent_incomplete`).
-/

namespace ProximalNewton

variable {F τ E : Type} {n m depth : Nat}

/-! ## Arrays that fit -/

structure IterateBuffers.Fit (iterate : IterateBuffers F) (n m : Nat) : Prop where
  x : iterate.x.size = n
  xHat : iterate.xHat.size = n
  r : iterate.r.size = n
  z : iterate.z.size = m
  gradPsi : iterate.gradPsi.size = n

structure MeritBuffers.Fit (merit : MeritBuffers F τ) (n m : Nat) : Prop where
  constraint : merit.constraint.size = m
  adjoint : merit.adjoint.size = n
  multipliers : merit.multipliers.size = m

structure Buffers.Fit (buffers : Buffers F) (n m : Nat) : Prop where
  x : buffers.x.size = n
  z : buffers.z.size = m
  y : buffers.y.size = m
  errZ : buffers.errZ.size = m

/-- Every array of the arena has the size of what it is for. -/
structure Arena.Fit (arena : Arena F τ) (n m depth : Nat) : Prop where
  current : arena.current.Fit n m
  candidate : arena.candidate.Fit n m
  zHat : arena.zHat.size = m
  gradHat : arena.gradHat.size = n
  fixedPoint : arena.fixedPoint.size = n
  direction : arena.direction.size = n
  s : arena.s.size = n
  y : arena.y.size = n
  curvature : arena.curvature.Fit n depth
  merit : arena.merit.Fit n m
  buffers : arena.buffers.Fit n m

/-! ## Vectors in arrays -/

/-- An iterate and the slack at its point, in arrays. -/
def Iterate.inBuffers (iterate : Iterate F n) (z : Vector F m) : IterateBuffers F where
  x := iterate.x.toArray
  xHat := iterate.xHat.toArray
  r := iterate.r.toArray
  z := z.toArray
  gradPsi := iterate.gradPsi.toArray
  psi := iterate.psi
  gradDotR := iterate.gradDotR
  normSqR := iterate.normSqR

/-- The store of a merit function, in arrays. -/
def MeritStore.inBuffers (store : MeritStore F n m) (world : τ) : MeritBuffers F τ where
  world := world
  constraint := store.constraint.toArray
  adjoint := store.adjoint.toArray
  multipliers := store.multipliers.toArray
  fEvals := store.fEvals
  gradEvals := store.gradEvals

/-- The vectors of the caller. -/
structure CallerVectors (F : Type) (n m : Nat) where
  x : Vector F n
  z : Vector F m
  y : Vector F m
  errZ : Vector F m

def CallerVectors.inBuffers (caller : CallerVectors F n m) : Buffers F where
  x := caller.x.toArray
  z := caller.z.toArray
  y := caller.y.toArray
  errZ := caller.errZ.toArray

/-- The working memory of a solve, with every size in its type. -/
structure Workspace (F τ : Type) (n m depth : Nat) where
  current : Iterate F n
  currentZ : Vector F m
  candidate : Iterate F n
  candidateZ : Vector F m
  zHat : Vector F m
  gradHat : Vector F n
  fixedPoint : Vector F n
  direction : Vector F n
  s : Vector F n
  y : Vector F n
  curvature : CurvatureStore F n depth
  merit : MeritStore F n m
  world : τ
  caller : CallerVectors F n m

/-- The arrays of a workspace. -/
def Workspace.arena (workspace : Workspace F τ n m depth) : Arena F τ where
  current := workspace.current.inBuffers workspace.currentZ
  candidate := workspace.candidate.inBuffers workspace.candidateZ
  zHat := workspace.zHat.toArray
  gradHat := workspace.gradHat.toArray
  fixedPoint := workspace.fixedPoint.toArray
  direction := workspace.direction.toArray
  s := workspace.s.toArray
  y := workspace.y.toArray
  curvature := workspace.curvature.slots
  merit := workspace.merit.inBuffers workspace.world
  buffers := workspace.caller.inBuffers

/-! ## Fitting arrays are those of vectors -/

theorem Iterate.fit_inBuffers (iterate : Iterate F n) (z : Vector F m) :
    (iterate.inBuffers z).Fit n m :=
  ⟨iterate.x.size_toArray, iterate.xHat.size_toArray, iterate.r.size_toArray, z.size_toArray,
    iterate.gradPsi.size_toArray⟩

theorem IterateBuffers.Fit.exists_iterate {buffers : IterateBuffers F} (fit : buffers.Fit n m) :
    ∃ (iterate : Iterate F n) (z : Vector F m), iterate.inBuffers z = buffers :=
  ⟨{ x := ⟨buffers.x, fit.x⟩
     gradPsi := ⟨buffers.gradPsi, fit.gradPsi⟩
     psi := buffers.psi
     xHat := ⟨buffers.xHat, fit.xHat⟩
     r := ⟨buffers.r, fit.r⟩
     gradDotR := buffers.gradDotR
     normSqR := buffers.normSqR }, ⟨buffers.z, fit.z⟩, rfl⟩

theorem MeritStore.fit_inBuffers (store : MeritStore F n m) (world : τ) :
    (store.inBuffers world).Fit n m :=
  ⟨store.constraint.size_toArray, store.adjoint.size_toArray, store.multipliers.size_toArray⟩

theorem MeritBuffers.Fit.exists_store {buffers : MeritBuffers F τ} (fit : buffers.Fit n m) :
    ∃ store : MeritStore F n m, store.inBuffers buffers.world = buffers :=
  ⟨{ constraint := ⟨buffers.constraint, fit.constraint⟩
     adjoint := ⟨buffers.adjoint, fit.adjoint⟩
     multipliers := ⟨buffers.multipliers, fit.multipliers⟩
     fEvals := buffers.fEvals
     gradEvals := buffers.gradEvals }, rfl⟩

theorem CallerVectors.fit_inBuffers (caller : CallerVectors F n m) : caller.inBuffers.Fit n m :=
  ⟨caller.x.size_toArray, caller.z.size_toArray, caller.y.size_toArray, caller.errZ.size_toArray⟩

theorem Buffers.Fit.exists_vectors {buffers : Buffers F} (fit : buffers.Fit n m) :
    ∃ caller : CallerVectors F n m, caller.inBuffers = buffers :=
  ⟨⟨⟨buffers.x, fit.x⟩, ⟨buffers.z, fit.z⟩, ⟨buffers.y, fit.y⟩, ⟨buffers.errZ, fit.errZ⟩⟩, rfl⟩

theorem Workspace.fit_arena (workspace : Workspace F τ n m depth) :
    workspace.arena.Fit n m depth where
  current := workspace.current.fit_inBuffers workspace.currentZ
  candidate := workspace.candidate.fit_inBuffers workspace.candidateZ
  zHat := workspace.zHat.size_toArray
  gradHat := workspace.gradHat.size_toArray
  fixedPoint := workspace.fixedPoint.size_toArray
  direction := workspace.direction.size_toArray
  s := workspace.s.size_toArray
  y := workspace.y.size_toArray
  curvature := workspace.curvature.slots_fit
  merit := workspace.merit.fit_inBuffers workspace.world
  buffers := workspace.caller.fit_inBuffers

theorem Arena.Fit.exists_workspace {arena : Arena F τ} (fit : arena.Fit n m depth) :
    ∃ workspace : Workspace F τ n m depth, workspace.arena = arena := by
  obtain ⟨current, currentZ, same_current⟩ := fit.current.exists_iterate
  obtain ⟨candidate, candidateZ, same_candidate⟩ := fit.candidate.exists_iterate
  obtain ⟨curvature, same_curvature⟩ := fit.curvature.exists_store
  obtain ⟨merit, same_merit⟩ := fit.merit.exists_store
  obtain ⟨caller, same_caller⟩ := fit.buffers.exists_vectors
  refine ⟨{
    current, currentZ, candidate, candidateZ
    zHat := ⟨arena.zHat, fit.zHat⟩
    gradHat := ⟨arena.gradHat, fit.gradHat⟩
    fixedPoint := ⟨arena.fixedPoint, fit.fixedPoint⟩
    direction := ⟨arena.direction, fit.direction⟩
    s := ⟨arena.s, fit.s⟩
    y := ⟨arena.y, fit.y⟩
    curvature, merit
    world := arena.merit.world
    caller }, ?_⟩
  unfold Workspace.arena
  dsimp only
  rw [same_current, same_candidate, same_curvature, same_merit, same_caller]

/-! ## Allocation -/

variable [Scalar F]

def Iterate.blank : Iterate F n where
  x := Vector.replicate n 0
  xHat := Vector.replicate n 0
  r := Vector.replicate n 0
  gradPsi := Vector.replicate n 0
  psi := 0
  gradDotR := 0
  normSqR := 0

/-- The workspace of a solve that has not begun. -/
def Workspace.blank (curvatureTol : F) (positive : 0 < depth) (world : τ)
    (caller : CallerVectors F n m) : Workspace F τ n m depth where
  current := .blank
  currentZ := Vector.replicate m 0
  candidate := .blank
  candidateZ := Vector.replicate m 0
  zHat := Vector.replicate m 0
  gradHat := Vector.replicate n 0
  fixedPoint := Vector.replicate n 0
  direction := Vector.replicate n 0
  s := Vector.replicate n 0
  y := Vector.replicate n 0
  curvature := .empty curvatureTol positive
  merit := .blank
  world := world
  caller := caller

theorem ArrayRequest.allocate_eq {ε : Type} (request : ArrayRequest F ε τ)
    (positive : 0 < request.params.memory.depth)
    {caller : CallerVectors F request.numVars request.numConstraints}
    (handed : caller.inBuffers = request.buffers) :
    request.allocate =
      .ok (Workspace.blank request.params.memory.curvatureTol positive request.world
        caller).arena := by
  unfold allocate Workspace.arena
  rw [CurvatureStore.allocate_slots _ positive, Checked.ok_bind, ← handed]
  rfl

/-! ## Steps on a workspace -/

theorem Iterate.gradientStep_eq (iterate : Iterate F n) (z : Vector F m) (C : Bounds F)
    (fits : C.dim = n) (complete : C.Complete) (gamma : F) :
    ((iterate.inBuffers z).gradientStep C gamma : Checked E _) =
      .ok ((iterate.withGamma (C.box.cast fits) gamma).inBuffers z) := by
  unfold IterateBuffers.gradientStep inBuffers
  dsimp only
  rw [Checked.step_eq, Checked.ok_bind, Checked.project_eq C fits complete, Checked.ok_bind,
    Checked.difference_eq, Checked.ok_bind, Checked.dot_eq, Checked.ok_bind, Checked.normSq_eq]
  rfl

theorem Iterate.gradientStep_incomplete (iterate : Iterate F n) (z : Vector F m) (C : Bounds F)
    (fits : C.dim = n) (incomplete : ¬ C.Complete) (gamma : F) :
    ((iterate.inBuffers z).gradientStep C gamma : Checked E _) =
      .error (.panic (.index C.upper.size C.upper.size)) := by
  unfold IterateBuffers.gradientStep inBuffers
  dsimp only
  rw [Checked.step_eq, Checked.ok_bind, Checked.project_incomplete C fits incomplete,
    Checked.error_bind]

namespace Workspace

variable (workspace : Workspace F τ n m depth)

theorem stepCurrent_eq (C : Bounds F) (fits : C.dim = n) (complete : C.Complete) (gamma : F) :
    (workspace.arena.stepCurrent C gamma : Checked E _) =
      .ok (arena { workspace with
        current := workspace.current.withGamma (C.box.cast fits) gamma }) := by
  unfold Arena.stepCurrent arena
  rw [workspace.current.gradientStep_eq workspace.currentZ C fits complete]
  rfl

theorem stepCurrent_incomplete (C : Bounds F) (fits : C.dim = n) (incomplete : ¬ C.Complete)
    (gamma : F) :
    (workspace.arena.stepCurrent C gamma : Checked E _) =
      .error (.panic (.index C.upper.size C.upper.size)) := by
  unfold Arena.stepCurrent arena
  rw [workspace.current.gradientStep_incomplete workspace.currentZ C fits incomplete]
  rfl

theorem stepCandidate_eq (C : Bounds F) (fits : C.dim = n) (complete : C.Complete) (gamma : F) :
    (workspace.arena.stepCandidate C gamma : Checked E _) =
      .ok (arena { workspace with
        candidate := workspace.candidate.withGamma (C.box.cast fits) gamma }) := by
  unfold Arena.stepCandidate arena
  rw [workspace.candidate.gradientStep_eq workspace.candidateZ C fits complete]
  rfl

theorem measure_eq (gamma : F) :
    (workspace.arena.measure gamma : Checked E _) =
      .ok (residual gamma workspace.current.r workspace.gradHat workspace.current.gradPsi,
        arena { workspace with
          fixedPoint := residualVector gamma workspace.current.r workspace.gradHat
            workspace.current.gradPsi }) := by
  unfold Arena.measure arena Iterate.inBuffers
  dsimp only
  rw [Checked.difference_eq, Checked.ok_bind, Checked.accumulate_eq, Checked.ok_bind,
    Checked.maxNorm_eq]
  rfl

omit [Scalar F] in
theorem forget_eq :
    workspace.arena.forget = arena { workspace with curvature := workspace.curvature.clear } :=
  rfl

theorem aim_eq :
    (workspace.arena.aim : Checked E _) =
      .ok (arena { workspace with
        direction := (workspace.curvature.apply 1 workspace.current.r).1
        curvature := (workspace.curvature.apply 1 workspace.current.r).2 }) := by
  have applied := workspace.curvature.apply_slots (E := E) 1 workspace.current.r
    workspace.direction
  refine (congrArg (· >>= _) applied).trans ?_
  rfl

theorem place_eq (tau : F) :
    (workspace.arena.place tau : Checked E _) =
      .ok (arena { workspace with
        candidate := { workspace.candidate with
          x := workspace.current.x - (1 - tau) * workspace.current.r -
            tau * workspace.direction } }) := by
  unfold Arena.place arena Iterate.inBuffers
  dsimp only
  rw [Checked.between_eq]
  rfl

theorem learn_eq :
    let s := workspace.candidate.x - workspace.current.x
    let y := workspace.candidate.r - workspace.current.r
    (workspace.arena.learn : Checked E _) =
      .ok (arena { workspace with s, y, curvature := (workspace.curvature.offer s y).2 }) := by
  intro s y
  have offered := workspace.curvature.offer_slots (E := E) s y
  unfold Arena.learn arena Iterate.inBuffers
  dsimp only
  rw [Checked.difference_eq, Checked.ok_bind, Checked.difference_eq, Checked.ok_bind]
  refine (congrArg (· >>= _) offered).trans ?_
  rfl

omit [Scalar F] in
theorem swap_eq :
    workspace.arena.swap = arena { workspace with
      current := workspace.candidate
      currentZ := workspace.candidateZ
      candidate := workspace.current
      candidateZ := workspace.currentZ } :=
  rfl

theorem deliver_eq :
    (workspace.arena.deliver : Checked E _) =
      .ok (arena { workspace with
        caller := {
          x := workspace.current.xHat
          z := workspace.zHat
          y := workspace.merit.multipliers
          errZ := workspace.merit.constraint - workspace.zHat } }) := by
  unfold Arena.deliver arena Iterate.inBuffers CallerVectors.inBuffers MeritStore.inBuffers
  dsimp only
  rw [Checked.copy_eq, Checked.ok_bind, Checked.copy_eq, Checked.ok_bind, Checked.copy_eq,
    Checked.ok_bind, Checked.minus_eq]
  rfl

/-! ## Steps at the beginning -/

variable {ε : Type}

omit [Scalar F] in
theorem takeGuess_eq :
    (ArrayRequest.takeGuess workspace.arena : Checked (SolveError F ε) _) =
      .ok (arena { workspace with
        current := { workspace.current with x := workspace.caller.x } }) := by
  unfold ArrayRequest.takeGuess arena Iterate.inBuffers CallerVectors.inBuffers
  dsimp only
  rw [Checked.copy_eq]
  rfl

/-- All but the merit gradient at the shifted point and the difference of the gradients is done
without a routine. -/
theorem initialLipschitz_eq (request : ArrayRequest F ε τ)
    (workspace : Workspace F τ request.numVars request.numConstraints depth) :
    let h := perturbation request.params.estimate workspace.current.x
    request.initialLipschitz workspace.arena = (do
      let (_, gradPsi, merit) ← request.merit.gradient (workspace.current.x + h).toArray
        (Vector.replicate request.numConstraints 0).toArray
        (Vector.replicate request.numVars 0).toArray workspace.arena.merit
      let change ← Checked.difference (workspace.current.x + h).toArray gradPsi
        workspace.current.gradPsi.toArray
      return (Checked.norm change / norm h, { workspace.arena with merit })) := by
  intro h
  let zeros : Vector F request.numVars := Vector.replicate request.numVars 0
  have zeros_eq : Array.replicate workspace.arena.current.x.size (0 : F) = zeros.toArray :=
    congrArg (Array.replicate · 0) workspace.current.x.size_toArray
  have perturbed := Checked.perturbation_eq (E := SolveError F ε) request.params.estimate
    workspace.current.x zeros
  have shifted := Checked.plus_eq (E := SolveError F ε) zeros workspace.current.x h
  unfold ArrayRequest.initialLipschitz
  dsimp only
  rw [zeros_eq]
  refine (congrArg (· >>= _) perturbed).trans ?_
  rw [Checked.ok_bind]
  refine (congrArg (· >>= _) shifted).trans ?_
  rw [Checked.ok_bind, Checked.norm_eq]
  rfl

end Workspace

end ProximalNewton
