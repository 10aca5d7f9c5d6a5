import ProximalNewton.Proofs.HalvedSteps
import ProximalNewton.Proofs.Transcript
import ProximalNewton.Proofs.ArrayPrograms

/-!
# What a search promises

A search has no counter: it halves its step until a trial is acceptable or another halving
would fall below `tauMin`. Its contract is stated without reference to the loop.

* `Search.EvaluatedAt`: a trial is the point at its step with everything that is computed
  from this point, and so is determined by the step (`Search.EvaluatedAt.unique`).
* `Search.StopsAt`: the first trial that is not rejected, or after which the step cannot be
  halved. There is exactly one, whatever the functions of the problem give.
* `Search.run_contract`: the search makes this trial its last one, and reports all of them.

All trials start from the same current point and direction. In an arena, where a search writes its
trials over each other, this is a result (`ArrayRequest.keeps_aim_backtrack`).
-/

namespace ProximalNewton

variable {F ε : Type} [Scalar F] {n m : Nat}

namespace Search

/-! ## Trials -/

/-- The trial is the point `x - (1 - τ)r - τd` at step `τ`, with all that is computed from this
point. -/
structure EvaluatedAt (search : Search F ε n m) (tau : F) (trial : Iterate F n) : Prop where
  x : trial.x =
    search.current.x - (1 - tau) * search.current.r - tau * search.direction
  merit : ∃ g grad, search.merit.oracles.g trial.x = .ok g ∧
    meritGradient search.merit.oracles trial.x (search.merit.multipliersOf g) = .ok grad ∧
    search.merit.psi trial.x g = .ok trial.psi ∧ trial.gradPsi = grad.total
  xHat : trial.xHat = search.C.project (trial.x - search.step.gamma * trial.gradPsi)
  r : trial.r = trial.x - trial.xHat
  gradDotR : trial.gradDotR = dot trial.gradPsi trial.r
  normSqR : trial.normSqR = normSq trial.r

/-- The functions of the problem do not give a merit and its gradient at step `τ`. -/
def FailsAt (search : Search F ε n m) (tau : F) (error : ε) : Prop :=
  ∀ ledger, search.trial tau ledger = .error error

variable {search : Search F ε n m} {tau : F} {trial trial' : Iterate F n}
  {ledger ledger' : Ledger F m} {error : ε}

theorem evaluatedAt_of_trial (tried : search.trial tau ledger = .ok (trial, ledger')) :
    search.EvaluatedAt tau trial := by
  obtain ⟨evaluation, after, evaluated, answer⟩ := trial_eq_ok.mp tried
  obtain ⟨g, grad, psi, at_x, slope, value, made⟩ := Merit.evaluate_eq_ok.mp evaluated
  cases answer
  cases made
  exact ⟨rfl, ⟨g, grad, at_x, slope, value, rfl⟩, rfl, rfl, rfl, rfl⟩

/-- A trial is determined by its step. -/
theorem EvaluatedAt.unique (left : search.EvaluatedAt tau trial)
    (right : search.EvaluatedAt tau trial') : trial = trial' := by
  obtain ⟨x, ⟨g, grad, at_x, slope, value, gradPsi⟩, xHat, r, gradDotR, normSqR⟩ := left
  obtain ⟨x', ⟨g', grad', at_x', slope', value', gradPsi'⟩, xHat', r', gradDotR', normSqR'⟩ := right
  cases trial
  cases trial'
  dsimp only at *
  subst x x'
  cases at_x.symm.trans at_x'
  cases slope.symm.trans slope'
  cases value.symm.trans value'
  subst gradPsi gradPsi'
  subst xHat xHat'
  subst r r'
  subst gradDotR gradDotR' normSqR normSqR'
  rfl

/-- A trial that can be evaluated is made, whatever the ledger holds. -/
theorem trial_of_evaluatedAt (evaluated : search.EvaluatedAt tau trial) (ledger : Ledger F m) :
    ∃ after, search.trial tau ledger = .ok (trial, after) := by
  obtain ⟨g, grad, at_x, slope, value, -⟩ := evaluated.merit
  rw [evaluated.x] at at_x slope value
  have answered : search.merit.evaluate (search.point tau) ledger = .ok _ :=
    Merit.evaluate_eq_ok.mpr ⟨g, grad, _, at_x, slope, value, rfl⟩
  have tried := trial_eq_ok.mpr ⟨_, _, answered, rfl⟩
  rw [evaluated.unique (evaluatedAt_of_trial tried)]
  exact ⟨_, tried⟩

/-- The ledger that a trial is handed affects only the one that it hands on. -/
theorem map_fst_trial (search : Search F ε n m) (tau : F) (ledger ledger' : Ledger F m) :
    (search.trial tau ledger).map Prod.fst = (search.trial tau ledger').map Prod.fst := by
  unfold trial Merit.evaluate Merit.gradient
  dsimp only
  cases search.merit.oracles.g (search.point tau) with
  | error error => rfl
  | ok g =>
    dsimp only [bind, Except.bind, pure, Except.pure]
    cases meritGradient search.merit.oracles (search.point tau) (search.merit.multipliersOf g) with
    | error error => rfl
    | ok grad =>
      dsimp only
      cases search.merit.psi (search.point tau) g with
      | error error => rfl
      | ok psi => rfl

theorem failsAt_of_trial (failed : search.trial tau ledger = .error error) :
    search.FailsAt tau error := by
  intro before
  have same := search.map_fst_trial tau before ledger
  rw [failed] at same
  cases tried : search.trial tau before with
  | error error' =>
    rw [tried] at same
    exact congrArg Except.error (Except.error.inj same)
  | ok answer =>
    rw [tried] at same
    cases same

/-! ## The trial that a search stops at -/

/-- The trial after `k` halvings is not acceptable. -/
def Rejects (search : Search F ε n m) (k : Nat) : Prop :=
  ∃ trial, search.EvaluatedAt (halved k) trial ∧ ¬ trial.envelope search.step ≤ search.threshold

/-- The trials before the one after `k` halvings are rejected, and permit another halving.
This one is not rejected, or does not permit another halving. -/
structure StopsAt (search : Search F ε n m) (k : Nat) : Prop where
  permitted : Permits search.tauMin k
  rejected : ∀ j < k, search.Rejects j
  stops : search.Rejects k → halved (k + 1) < search.tauMin

/-- A search stops at one trial only. -/
theorem StopsAt.unique {k l : Nat} (left : search.StopsAt k) (right : search.StopsAt l) :
    k = l := by
  rcases lt_trichotomy k l with below | same | above
  · exact absurd (left.stops (right.rejected k below)) (right.permitted k below)
  · exact same
  · exact absurd (right.stops (left.rejected l above)) (left.permitted l above)

/-! ## What is reported -/

/-- The reports of the first trials, which are all rejected and permit another halving. -/
structure Retries (search : Search F ε n m) (retries : List (TrialReport F)) : Prop where
  permitted : Permits search.tauMin retries.length
  rejected : ∀ (j : Nat) (inside : j < retries.length), ∃ trial,
    search.EvaluatedAt (halved j) trial ∧ retries[j] = search.report (halved j) trial ∧
      ¬ trial.envelope search.step ≤ search.threshold

/-- How a search ends with the trial after `k` halvings, and what it reports of it. The
trial is accepted exactly when it is acceptable, and otherwise another halving would fall
below `tauMin`. -/
def Ends (search : Search F ε n m) (k : Nat) (last : List (Event F)) :
    Except ε (SearchResult F n m) → Prop
  | .ok result =>
    result.tau = halved k ∧ search.EvaluatedAt (halved k) result.trial ∧
      last = [verdict result.accepted (search.report (halved k) result.trial)] ∧
      (result.accepted = true ↔ result.trial.envelope search.step ≤ search.threshold) ∧
      (result.accepted = false ↔ ¬ result.trial.envelope search.step ≤ search.threshold ∧
        halved (k + 1) < search.tauMin)
  | .error error => search.FailsAt (halved k) error ∧ last = []

variable {retries : List (TrialReport F)}

theorem retries_nil (search : Search F ε n m) : search.Retries [] :=
  ⟨permits_zero _, fun _ inside => absurd inside (Nat.not_lt_zero _)⟩

/-- Another trial that is rejected. -/
theorem Retries.append (held : search.Retries retries)
    (evaluated : search.EvaluatedAt (halved retries.length) trial)
    (rejected : ¬ trial.envelope search.step ≤ search.threshold)
    (permitted : ¬ halved (retries.length + 1) < search.tauMin) :
    search.Retries (retries ++ [search.report (halved retries.length) trial]) := by
  refine ⟨?_, ?_⟩
  · rw [List.length_append, List.length_singleton]
    exact held.permitted.succ permitted
  · intro j inside
    rw [List.length_append, List.length_singleton] at inside
    rcases Nat.lt_succ_iff_lt_or_eq.mp inside with earlier | rfl
    · rw [List.getElem_append_left earlier]
      exact held.rejected j earlier
    · refine ⟨trial, evaluated, ?_, rejected⟩
      simp

/-- A search that ends as described stops where it should. -/
theorem stopsAt_of_ends {last : List (Event F)} {result : Except ε (SearchResult F n m)}
    (held : search.Retries retries) (ends : search.Ends retries.length last result) :
    search.StopsAt retries.length := by
  refine ⟨held.permitted, ?_, ?_⟩
  · intro j inside
    obtain ⟨trial, evaluated, -, rejected⟩ := held.rejected j inside
    exact ⟨trial, evaluated, rejected⟩
  · rintro ⟨trial, evaluated, rejected⟩
    cases result with
    | ok result =>
      obtain ⟨-, last_evaluated, -, accepted, stalled⟩ := ends
      cases last_evaluated.unique evaluated
      exact (stalled.mp (Bool.eq_false_iff.mpr fun known => rejected (accepted.mp known))).2
    | error error =>
      obtain ⟨after, tried⟩ := trial_of_evaluatedAt evaluated Ledger.blank
      cases tried.symm.trans (ends.1 Ledger.blank)

/-! ## The loop -/

/-- One trial, after others that were rejected: the loop ends with it, or it is rejected and
the loop goes on. The halvings that were made and those that are left add up to what brings
the step below `tauMin`, so that one is left if it is permitted. -/
theorem backtrack_cases (positive : 0 < search.tauMin) (held : search.Retries retries) {left : Nat}
    (budget : retries.length + left = Scalar.halvings search.tauMin) (ledger : Ledger F m) :
    (∃ last, search.Ends retries.length last
        (search.backtrack left (halved retries.length) ledger).result ∧
      (search.backtrack left (halved retries.length) ledger).events = last) ∨
    ∃ rest report ledger', left = rest + 1 ∧ search.Retries (retries ++ [report]) ∧
      search.backtrack left (halved retries.length) ledger =
        ⟨.rejected report :: (search.backtrack rest (halved (retries.length + 1)) ledger').events,
          (search.backtrack rest (halved (retries.length + 1)) ledger').result⟩ := by
  cases tried : search.trial (halved retries.length) ledger with
  | error error =>
    rw [backtrack_of_error tried]
    exact Or.inl ⟨[], ⟨failsAt_of_trial tried, rfl⟩, rfl⟩
  | ok answer =>
    rcases answer with ⟨trial, ledger'⟩
    have evaluated := evaluatedAt_of_trial tried
    by_cases acceptable : trial.envelope search.step ≤ search.threshold
    · rw [backtrack_of_acceptable tried acceptable]
      refine Or.inl ⟨_, ⟨rfl, evaluated, rfl, ?_, ?_⟩, rfl⟩
      · simp [acceptable]
      · simp [acceptable]
    · by_cases exhausted : halved (retries.length + 1) < search.tauMin
      · rw [backtrack_of_exhausted tried acceptable (Or.inr exhausted)]
        refine Or.inl ⟨_, ⟨rfl, evaluated, rfl, ?_, ?_⟩, rfl⟩
        · simp [acceptable]
        · simp [acceptable, exhausted]
      · cases left with
        | zero =>
          have final : halved (Scalar.halvings search.tauMin + 1) < search.tauMin :=
            Scalar.halving_lt search.tauMin positive
          rw [← budget] at final
          exact absurd final exhausted
        | succ rest =>
          refine Or.inr ⟨rest, _, ledger', rfl, held.append evaluated acceptable exhausted, ?_⟩
          exact backtrack_of_rejected tried acceptable exhausted rest

/-- The loop goes on until it ends as it should. -/
theorem backtrack_ends (positive : 0 < search.tauMin) (held : search.Retries retries) {left : Nat}
    (budget : retries.length + left = Scalar.halvings search.tauMin) (ledger : Ledger F m) :
    ∃ all last, search.Retries all ∧
      search.Ends all.length last (search.backtrack left (halved retries.length) ledger).result ∧
      retries.map .rejected ++ (search.backtrack left (halved retries.length) ledger).events =
        all.map .rejected ++ last := by
  induction left generalizing retries ledger with
  | zero =>
    rcases backtrack_cases positive held budget ledger with ⟨last, ends, rfl⟩ | ⟨_, _, _, none, _⟩
    · exact ⟨retries, _, held, ends, rfl⟩
    · cases none
  | succ left ih =>
    rcases backtrack_cases positive held budget ledger with
      ⟨last, ends, rfl⟩ | ⟨_, report, ledger', ⟨⟩, longer, goes_on⟩
    · exact ⟨retries, _, held, ends, rfl⟩
    · rw [goes_on]
      have length_eq : (retries ++ [report]).length = retries.length + 1 := by simp
      have rest := ih longer (by omega) ledger'
      rw [length_eq] at rest
      obtain ⟨all, last, all_held, ends, events⟩ := rest
      refine ⟨all, last, all_held, ends, ?_⟩
      rw [← events]
      simp

/-- **The contract of a search.** There is one trial that the search stops at. Those before
it are reported as rejected, with their steps in order, the envelope at the current point
and the threshold, and its own report tells whether it is accepted. The search ends with
it, fully evaluated, or with the error of the problem there. In exact arithmetic and in a
machine format every step tried is a power of two and at least `tauMin`, and there are at
most `1 + ⌊log₂ (1 / tauMin)⌋` trials. While a search of these steps is made in an arena, and when
it has ended, the arena has the current iterate and the direction that it had before. -/
theorem run_contract (search : Search F ε n m) (ledger : Ledger F m)
    (positive : 0 < search.tauMin) (below_one : search.tauMin < 1) :
    ∃ k retries last, search.StopsAt k ∧ (∀ l, search.StopsAt l → l = k) ∧
      retries.length = k ∧ search.Retries retries ∧
      search.Ends k last (search.run ledger).result ∧
      (search.run ledger).events = retries.map .rejected ++ last ∧
      (∀ {τ : Type} (request : ArrayRequest F ε τ) (arena : Arena F τ),
        (request.backtrack search.iteration search.step (Scalar.halvings search.tauMin) 1
          arena).Keeps arena.SameAim fun result => arena.SameAim result.arena) ∧
      ∀ [MeasuredScalar F], ∃ v : ℝ, 0 < v ∧ MeasuredScalar.Worth search.tauMin v ∧
        k + 1 ≤ 1 + ⌊Real.logb 2 (1 / v)⌋₊ ∧
        ∀ j ≤ k, MeasuredScalar.Worth (halved j : F) (1 / 2 ^ j) ∧
          search.tauMin ≤ halved j := by
  obtain ⟨retries, last, held, ends, events⟩ :=
    search.backtrack_ends positive search.retries_nil (Nat.zero_add _) ledger
  have stops := stopsAt_of_ends held ends
  refine ⟨retries.length, retries, last, stops, fun l other => other.unique stops, rfl, held, ends,
    events, ?_, ?_⟩
  · intro τ request arena
    exact request.keeps_aim_backtrack search.iteration search.step _ 1 (.refl arena)
  · intro measured
    exact held.permitted.measured positive below_one

/-- A search for a merit that is not a number anywhere. -/
def undefinedSearch : Search Float Unit 1 0 where
  merit :=
    { oracles :=
        { f := fun _ => .ok (0.0 / 0.0)
          gradF := fun _ => .ok (.replicate 1 1)
          g := fun _ => .ok (.replicate 0 0)
          gradG := fun _ _ => .ok (.replicate 1 0) }
      D := .whole 0
      sigma := .replicate 0 0
      y := .replicate 0 0 }
  C := .whole 1
  step := .ofLipschitz 1
  tauMin := 0.25
  iteration := 0
  current := .ofPoint (.whole 1) 0.95 (.replicate 1 0) (.replicate 1 1) 0
  direction := .replicate 1 1

/-- The steps `1`, `1/2` and `1/4` are tried, and the search stalls. -/
theorem run_contract_undefined : 0 < undefinedSearch.tauMin ∧ undefinedSearch.tauMin < 1 ∧
    (undefinedSearch.run Ledger.blank).events.length = 3 ∧
    ∃ retries last, undefinedSearch.StopsAt retries.length ∧ undefinedSearch.Retries retries ∧
      undefinedSearch.Ends retries.length last (undefinedSearch.run Ledger.blank).result ∧
      (undefinedSearch.run Ledger.blank).events = retries.map .rejected ++ last ∧
      ∃ v : ℝ, MeasuredScalar.Worth undefinedSearch.tauMin v ∧
        retries.length + 1 ≤ 1 + ⌊Real.logb 2 (1 / v)⌋₊ := by
  have positive : 0 < undefinedSearch.tauMin := by decide +kernel
  have below_one : undefinedSearch.tauMin < 1 := by decide +kernel
  have three : (undefinedSearch.run Ledger.blank).events.length = 3 := by decide +kernel
  obtain ⟨_, retries, last, stops, -, rfl, held, ends, events, -, measured⟩ :=
    undefinedSearch.run_contract Ledger.blank positive below_one
  obtain ⟨v, -, worth, bounded, -⟩ := measured
  exact ⟨positive, below_one, three, retries, last, stops, held, ends, events, v, worth, bounded⟩

end Search

end ProximalNewton
