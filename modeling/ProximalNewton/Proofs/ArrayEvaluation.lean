import ProximalNewton.Proofs.Workspace

/-!
# Evaluations on arrays are evaluations

Functions that give vectors can be called as routines that write these over arrays
(`Oracles.routines`). A computation on arrays `Mirrors` one on vectors when it gives the arrays of
what that one gives, and fails when and as that one fails; compositions keep this
(`Checked.Mirrors.bind`).

* `Oracles.routines_keepSizes`: the routines keep the size of what they write over.
* `Merit.mirrors_gradient`, `Merit.mirrors_evaluate` and `Merit.mirrors_value`: the evaluations of
  the merit function on arrays mirror those on vectors, whatever was in the arrays, and what they
  leave in the buffers is what the ledger records. The bounds in arrays are those of the target set
  (`Bounds.Of`).
-/

namespace ProximalNewton

variable {F ε α α' β β' : Type} {n m : Nat}

/-! ## Computations on arrays and on vectors -/

/-- The computation on arrays gives what the other one gives, or fails as that one does. It does
not panic. -/
inductive Checked.Mirrors (same : α → β → Prop) :
    Checked (SolveError F ε) α → Except ε β → Prop
  | ok {value : α} {value' : β} (agree : same value value') : Mirrors same (.ok value) (.ok value')
  | failed (cause : ε) : Mirrors same (.error (.failed (.oracle cause))) (.error cause)

namespace Checked

variable {same : α → β → Prop} {between : α' → β' → Prop}

theorem Mirrors.bind {first : Checked (SolveError F ε) α'} {first' : Except ε β'}
    (begins : Mirrors between first first') {next : α' → Checked (SolveError F ε) α}
    {next' : β' → Except ε β}
    (rest : ∀ value value', between value value' → Mirrors same (next value) (next' value')) :
    Mirrors same (first >>= next) (first' >>= next') := by
  cases begins with
  | ok agree => exact rest _ _ agree
  | failed cause => exact .failed cause

theorem Mirrors.of_eq {made made' : Checked (SolveError F ε) α} (made_eq : made = made')
    {plain : Except ε β} (mirrors : Mirrors same made' plain) : Mirrors same made plain := by
  subst made_eq
  exact mirrors

/-- What comes before on arrays alone. -/
theorem Mirrors.after_ok {first : Checked (SolveError F ε) α'} {value : α'}
    (made : first = .ok value) {next : α' → Checked (SolveError F ε) α} {plain : Except ε β}
    (rest : Mirrors same (next value) plain) : Mirrors same (first >>= next) plain :=
  .of_eq (congrArg (· >>= next) made) rest

/-- What comes afterwards on arrays alone. -/
theorem Mirrors.bind_ok {first : Checked (SolveError F ε) α'} {plain : Except ε β}
    {between : α' → β → Prop} (begins : Mirrors between first plain)
    {next : α' → Checked (SolveError F ε) α}
    (rest : ∀ value value', between value value' → ∃ last, next value = .ok last ∧
      same last value') :
    Mirrors same (first >>= next) plain := by
  cases begins with
  | ok agree =>
    obtain ⟨last, next_eq, agrees⟩ := rest _ _ agree
    rw [ok_bind, next_eq]
    exact .ok agrees
  | failed cause => exact .failed cause

end Checked

/-! ## Routines that write what functions give -/

section Routines

variable [Zero F] (oracles : Oracles F ε n m) (x : Vector F n)

omit [Zero F] in
@[simp]
theorem sized?_toArray (v : Vector F n) : sized? n v.toArray = some v :=
  dif_pos v.size_toArray

theorem routines_f : oracles.routines.f () x.toArray = ((), oracles.f x) := by
  simp [Oracles.routines]

theorem routines_gradF (out : Vector F n) :
    oracles.routines.gradF () x.toArray out.toArray = .ofAnswer (oracles.gradF x) out.toArray := by
  simp [Oracles.routines]

theorem routines_g (out : Vector F m) :
    oracles.routines.g () x.toArray out.toArray = .ofAnswer (oracles.g x) out.toArray := by
  simp [Oracles.routines]

theorem routines_gradG (y : Vector F m) (out : Vector F n) :
    oracles.routines.gradG () x.toArray y.toArray out.toArray =
      .ofAnswer (oracles.gradG x y) out.toArray := by
  simp [Oracles.routines]

omit [Zero F] in
/-- An array that passes for a vector has its size. -/
theorem size_of_sized? {array : Array F} {v : Vector F n} (sized : sized? n array = some v) :
    array.size = n := by
  unfold sized? at sized
  split at sized
  · assumption
  · cases sized

omit [Zero F] in
theorem Written.size_ofAnswer (answer : Except ε (Vector F n)) {out : Array F}
    (size : out.size = n) : (Written.ofAnswer answer out).out.size = out.size := by
  cases answer with
  | ok value => exact value.size_toArray.trans size.symm
  | error cause => rfl

/-- Routines that write what functions give keep the size of what they write over. -/
theorem Oracles.routines_keepSizes : oracles.routines.KeepSizes := by
  refine ⟨fun _ x out => ?_, fun _ x out => ?_, fun _ x y out => ?_⟩
  all_goals
    unfold routines
    dsimp only
    split
    · rename_i sized
      exact Written.size_ofAnswer _ (size_of_sized? sized)
    · rfl

omit [Zero F] in
theorem Written.mirrors_take (answer : Except ε (Vector F n)) (out : Array F) :
    Checked.Mirrors (fun taken v => taken = ((), v.toArray)) (Written.ofAnswer answer out).take
      answer := by
  cases answer with
  | ok value => exact .ok rfl
  | error cause => exact .failed cause

end Routines

variable [Scalar F]

/-! ## Bounds of a box -/

/-- The bounds are those of the box: none of them is missing, and this is the box that they
make. -/
structure Bounds.Of (bounds : Bounds F) (box : Box F n) : Prop where
  dim : bounds.dim = n
  complete : bounds.Complete
  box_eq : bounds.box.cast dim = box

theorem Bounds.Of.cast {n' : Nat} {bounds : Bounds F} {box : Box F n} (of_box : bounds.Of box)
    (same : n = n') : bounds.Of (box.cast same) := by
  subst same
  exact of_box

/-- The ends of a box in two arrays. -/
theorem Bounds.of_ofBounds (lower upper : Vector F n) :
    Of ⟨lower.toArray, upper.toArray⟩ (.ofBounds lower upper) := by
  have dim : Bounds.dim ⟨lower.toArray, upper.toArray⟩ = n := lower.size_toArray
  have complete : Bounds.Complete ⟨lower.toArray, upper.toArray⟩ := by
    unfold Bounds.Complete
    rw [dim]
    exact Nat.le_of_eq upper.size_toArray.symm
  refine ⟨dim, complete, congrArg Box.mk ?_⟩
  ext i inside
  have below : i < lower.toArray.size := lower.size_toArray.symm ▸ inside
  have above : i < upper.toArray.size := upper.size_toArray.symm ▸ inside
  rw [Vector.getElem_cast, getElem_sides_box _ (dim.symm ▸ inside), side_of_lt _ below above]
  simp

/-- The ends of an interval. -/
theorem Bounds.of_interval (low high : F) :
    Of ⟨#[low], #[high]⟩ (⟨#v[.ofBounds low high]⟩ : Box F 1) := by
  have bounds := of_ofBounds #v[low] #v[high]
  have box : Box.ofBounds #v[low] #v[high] = ⟨#v[.ofBounds low high]⟩ := by simp [Box.ofBounds]
  rw [box] at bounds
  exact bounds

/-! ## Evaluations -/

/-- A merit function on arrays, with the bounds of its target set. -/
def Merit.onArrays (merit : Merit F ε n m) (D : Bounds F) : ArrayMerit F ε Unit where
  routines := merit.oracles.routines
  D := D
  sigma := merit.sigma.toArray
  y := merit.y.toArray

namespace Merit

variable {merit : Merit F ε n m} {D : Bounds F} (ofD : D.Of merit.D) (x : Vector F n)
  (z : Vector F m) (gradPsi : Vector F n) (store : MeritStore F n m)

theorem shift_onArrays : (merit.onArrays D).shift = merit.shift.toArray := by
  unfold ArrayMerit.shift shift onArrays
  rw [Vector.toArray_zipWith]

include ofD in
theorem mirrors_writeSlack :
    Checked.Mirrors (fun found g => found = ((merit.slackOf g).toArray,
        MeritStore.inBuffers { store with constraint := g } ()))
      ((merit.onArrays D).writeSlack x.toArray z.toArray (store.inBuffers ()))
      (merit.oracles.g x) := by
  have written := Written.mirrors_take (merit.oracles.g x) store.constraint.toArray
  rw [← routines_g] at written
  refine written.bind_ok ?_
  intro _ g found
  subst found
  have slack_eq := Checked.slack_eq (E := SolveError F ε) D ofD.dim ofD.complete g merit.shift z
  rw [← shift_onArrays, ofD.box_eq] at slack_eq
  exact ⟨_, congrArg (· >>= _) slack_eq, rfl⟩

theorem mirrors_psi (g : Vector F m) (constraint : store.constraint = g) :
    Checked.Mirrors (fun found psi => found = (psi,
        MeritStore.inBuffers { store with fEvals := store.fEvals + 1 } ()))
      ((merit.onArrays D).psi x.toArray (merit.slackOf g).toArray (store.inBuffers ()))
      (merit.psi x g) := by
  subst constraint
  have distance := Checked.distanceSq_eq (E := SolveError F ε) store.constraint merit.shift
    (merit.slackOf store.constraint) merit.sigma
  unfold ArrayMerit.psi psi meritValue
  rw [shift_onArrays]
  refine .after_ok distance ?_
  have called : (merit.onArrays D).routines.f (store.inBuffers ()).world x.toArray =
      ((), merit.oracles.f x) := routines_f merit.oracles x
  rw [called]
  cases merit.oracles.f x with
  | ok f => exact .ok rfl
  | error cause => exact .failed cause

theorem mirrors_writeGradient (yHat : Vector F m) (multipliers : store.multipliers = yHat) :
    Checked.Mirrors (fun found grad => found = (grad.total.toArray,
        MeritStore.inBuffers { store with adjoint := grad.adjoint } ()))
      ((merit.onArrays D).writeGradient x.toArray gradPsi.toArray (store.inBuffers ()))
      (meritGradient merit.oracles x yHat) := by
  subst multipliers
  have gradF := Written.mirrors_take (merit.oracles.gradF x) gradPsi.toArray
  have gradG := Written.mirrors_take (merit.oracles.gradG x store.multipliers)
    store.adjoint.toArray
  rw [← routines_gradF] at gradF
  rw [← routines_gradG] at gradG
  refine gradF.bind ?_
  intro _ grad found
  subst found
  refine gradG.bind ?_
  intro _ adjoint found
  subst found
  dsimp only
  rw [Checked.add_eq, Checked.ok_bind]
  exact .ok rfl

include ofD in
theorem mirrors_gradient :
    Checked.Mirrors (fun found answer => ∃ left : MeritStore F n m, left.ledger = answer.2 ∧
        answer.1.z = merit.slackOf left.constraint ∧
        found = (answer.1.z.toArray, answer.1.gradPsi.toArray, left.inBuffers ()))
      ((merit.onArrays D).gradient x.toArray z.toArray gradPsi.toArray (store.inBuffers ()))
      (merit.gradient x store.ledger) := by
  unfold ArrayMerit.gradient gradient
  refine (mirrors_writeSlack ofD x z store).bind ?_
  intro _ g found
  subst found
  have multipliers := Checked.multiplierEstimate_eq (E := SolveError F ε) (merit.slackOf g) g
    merit.y merit.sigma store.multipliers
  dsimp only
  refine .after_ok multipliers ?_
  refine (mirrors_writeGradient x gradPsi { store with
    constraint := g
    multipliers := merit.multipliersOf g
    gradEvals := store.gradEvals + 1 } _ rfl).bind ?_
  intro _ grad found
  subst found
  exact .ok ⟨_, rfl, rfl, rfl⟩

include ofD in
theorem mirrors_evaluate :
    Checked.Mirrors (fun found answer => ∃ left : MeritStore F n m, left.ledger = answer.2 ∧
        found = (answer.1.psi, answer.1.z.toArray, answer.1.gradPsi.toArray, left.inBuffers ()))
      ((merit.onArrays D).evaluate x.toArray z.toArray gradPsi.toArray (store.inBuffers ()))
      (merit.evaluate x store.ledger) := by
  unfold ArrayMerit.evaluate evaluate
  refine (mirrors_gradient ofD x z gradPsi store).bind ?_
  intro _ answer agrees
  obtain ⟨⟨_, gradPsi⟩, _⟩ := answer
  obtain ⟨left, rfl, rfl, rfl⟩ := agrees
  refine (mirrors_psi x left left.constraint rfl).bind ?_
  intro _ psi found
  subst found
  exact .ok ⟨_, rfl, rfl⟩

include ofD in
theorem mirrors_value :
    Checked.Mirrors (fun found answer => ∃ left : MeritStore F n m, left.ledger = answer.2 ∧
        found = (answer.1.psi, answer.1.z.toArray, left.inBuffers ()))
      ((merit.onArrays D).value x.toArray z.toArray (store.inBuffers ()))
      (merit.value x store.ledger) := by
  unfold ArrayMerit.value value
  refine (mirrors_writeSlack ofD x z store).bind ?_
  intro _ g found
  subst found
  refine (mirrors_psi x { store with constraint := g } g rfl).bind ?_
  intro _ psi found
  subst found
  exact .ok ⟨_, rfl, rfl⟩

include ofD in
theorem mirrors_evaluate_iterate (iterate : Iterate F n) :
    Checked.Mirrors (fun found answer => ∃ left : MeritStore F n m, left.ledger = answer.2 ∧
        found = (Iterate.inBuffers
          { iterate with gradPsi := answer.1.gradPsi, psi := answer.1.psi } answer.1.z,
          left.inBuffers ()))
      ((iterate.inBuffers z).evaluate (merit.onArrays D) (store.inBuffers ()))
      (merit.evaluate iterate.x store.ledger) := by
  refine (mirrors_evaluate ofD iterate.x z iterate.gradPsi store).bind_ok ?_
  intro _ answer agrees
  obtain ⟨left, recorded, rfl⟩ := agrees
  exact ⟨_, rfl, left, recorded, rfl⟩

end Merit

end ProximalNewton
