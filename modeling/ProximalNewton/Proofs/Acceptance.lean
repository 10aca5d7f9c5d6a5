import Mathlib.Tactic.Linarith
import ProximalNewton.Proofs.ProximalModel
import ProximalNewton.Proofs.Searches
import ProximalNewton.Proofs.SmoothMerit
import ProximalNewton.Proofs.StepSizes

/-!
# The proximal step is acceptable

Before it searches, an iteration tightens the step size until the merit at the projected
point `x̂` is within its limit. Over exact arithmetic this limit is the threshold of the
search with a margin (`StepSize.Balanced.descentLimit_eq`), so that the search begins with
a proximal step whose merit is acceptable (`Job.Reaches.merit_le`).

While no curvature pair is held the quasi-Newton direction is the proximal step, and every
trial is made at `x̂` (`Job.Reaches.point_eq_xHat`). The envelope of a trial is at most its
merit there, as `x̂` lies in `C`.
-/

namespace ProximalNewton

variable {ε : Type} {n m : Nat}

/-! ## Searches along the proximal step -/

/-- Without pairs the inverse estimate is the identity. -/
theorem CurvatureMemory.applyInverse_of_empty {depth : Nat} {memory : CurvatureMemory ℝ n depth}
    (empty : memory.size = 0) (v : Vector ℝ n) : memory.applyInverse 1 v = v := by
  rw [applyInverse_eq, toList_of_empty empty]
  show v.map (· * 1) = v
  ext i inside
  rw [Vector.getElem_map, mul_one]

/-- A change of the point over which the residual stays is not remembered. -/
theorem CurvatureMemory.offer_of_still {depth : Nat} (memory : CurvatureMemory ℝ n depth)
    (s : Vector ℝ n) : memory.offer s (.replicate n 0) = memory := by
  have flat : ∀ v : Vector ℝ n, dot v (.replicate n 0) = 0 := by
    intro v
    simp [dot_eq_sum]
  have still : norm (.replicate n 0 : Vector ℝ n) = 0 := by
    show Real.sqrt (dot _ _) = 0
    rw [flat, Real.sqrt_zero]
  have refused : ¬ memory.Admits s (.replicate n 0) := by
    intro admitted
    refine admitted.2 ?_
    rw [flat, still, mul_zero]
  exact if_neg refused

namespace Search

variable {search : Search ℝ ε n m}

/-- When both steps are the proximal one, so is every step between them. -/
theorem point_eq_xHat (direction : search.direction = search.current.r)
    (proximal : search.current.r = search.current.x - search.current.xHat) (tau : ℝ) :
    search.point tau = search.current.xHat := by
  unfold point
  rw [direction, proximal]
  ext i inside
  simp only [Vector.getElem_sub, Vector.getElem_hmul]
  ring

/-- At a point of `C` the envelope of a trial is at most its merit. -/
theorem envelope_le_psi (positive : 0 < search.step.gamma) {tau : ℝ} {ledger ledger' : Ledger ℝ m}
    {trial : Iterate ℝ n} (inside : search.C.Contains (search.point tau))
    (tried : search.trial tau ledger = .ok (trial, ledger')) :
    trial.envelope search.step ≤ trial.psi := by
  obtain ⟨evaluation, after, -, answer⟩ := trial_eq_ok.mp tried
  cases answer
  set trial := Iterate.ofPoint search.C search.step.gamma (search.point tau) evaluation.gradPsi
    evaluation.psi
  have below :
      trial.envelope search.step ≤ trial.psi - normSq trial.r / (2 * search.step.gamma) := by
    have grows := trial.envelope_add_le_proximalModel positive inside
    rw [show search.point tau = trial.x from rfl, trial.proximalModel_self] at grows
    exact le_sub_iff_add_le.mpr grows
  have length : 0 ≤ normSq trial.r / (2 * search.step.gamma) :=
    div_nonneg (normSq_nonneg _) (by linarith)
  linarith

end Search

namespace Job

variable {job : Job ℝ ε n m} {laps : List (Lap ℝ n m job.depth)} {events : List (Event ℝ)}
  {attempt : Attempt ℝ n m job.depth}

/-- When a search begins, the merit at `x̂` is at most its threshold, up to a margin. -/
theorem Reaches.merit_le (reached : job.Reaches laps events (.searching attempt)) :
    ∃ psiHat, job.valueAt attempt.state.current.xHat = .ok psiHat ∧
      psiHat ≤ (job.search laps.length attempt.state).threshold +
        1e-6 * |attempt.state.current.psi| := by
  have balanced : attempt.state.step.Balanced := reached.balanced
  cases reached with
  | search adapting descends =>
    have bounded := not_lt.mp descends
    unfold Iterate.descentLimit at bounded
    rw [balanced.descentLimit_eq] at bounded
    exact ⟨_, adapting.valueAt_xHat, bounded⟩

/-- Without pairs every trial of a search is made at `x̂`. -/
theorem Reaches.point_eq_xHat (reached : job.Reaches laps events (.searching attempt))
    (empty : attempt.state.memory.size = 0) (k : Nat) (tau : ℝ) :
    (job.search k attempt.state).point tau = attempt.state.current.xHat := by
  have direction : (job.search k attempt.state).direction = attempt.state.current.r :=
    CurvatureMemory.applyInverse_of_empty empty _
  exact Search.point_eq_xHat direction (projected_of_iterateAt reached.current_coherent).2 tau

/-- No pair of the points since the last tightening has been admitted. -/
def Unlearned (job : Job ℝ ε n m) (laps : List (Lap ℝ n m job.depth))
    (attempt : Attempt ℝ n m job.depth) : Prop :=
  ∃ pairs,
    job.changes attempt.state.step.gamma ((Point.searching attempt).stretch laps) = .ok pairs ∧
    ∀ pair ∈ pairs, ¬ job.Admits pair

/-- The memory is empty when no pair of the points since the last tightening has been
admitted. -/
theorem Reaches.memory_empty_iff_unlearned
    (reached : job.Reaches laps events (.searching attempt)) :
    attempt.state.memory.size = 0 ↔ job.Unlearned laps attempt := by
  obtain ⟨pairs, changed, remembered⟩ := reached.remembers
  have kept_nil_iff : attempt.state.memory.size = 0 ↔ job.kept pairs = [] := by
    rw [← remembered, ← List.length_eq_zero_iff, RingBuffer.length_toList]
    exact Iff.rfl
  have kept_iff : job.kept pairs = [] ↔ ∀ pair ∈ pairs, ¬ job.Admits pair := by
    simp [kept, job.depth_pos.ne']
  rw [kept_nil_iff, kept_iff]
  constructor
  · intro refused
    exact ⟨pairs, changed, refused⟩
  · intro unlearned
    obtain ⟨others, changed_others, refused⟩ := unlearned
    cases changed.symm.trans changed_others
    exact refused

/-- Since the last tightening there are no two points yet. -/
theorem unlearned_of_first (first : laps = [] ∨ attempt.updates ≠ 0) :
    job.Unlearned laps attempt := by
  have alone : (Point.searching attempt).stretch laps = [attempt.state.current.x] := by
    rcases first with rfl | tightened
    · simp [Point.stretch, Lap.stretch, Point.state]
    · simp [Point.stretch, Point.state, Point.updates, tightened]
  refine ⟨[], ?_, List.forall_mem_nil _⟩
  rw [alone]
  rfl

/-- A search begins without pairs in the first iteration, in every iteration that has
tightened the step size, and when no pair has been admitted since, but not otherwise. -/
theorem Reaches.memory_empty_iff (reached : job.Reaches laps events (.searching attempt)) :
    attempt.state.memory.size = 0 ↔
      laps = [] ∨ TightenedIn events laps.length ∨ job.Unlearned laps attempt := by
  rw [reached.memory_empty_iff_unlearned]
  constructor
  · intro unlearned
    exact Or.inr (Or.inr unlearned)
  · rintro (first | tightened | unlearned)
    · exact unlearned_of_first (Or.inl first)
    · exact unlearned_of_first (Or.inr (reached.tightenedIn_iff.mp tightened))
    · exact unlearned

/-! ## Trials without pairs -/

variable {point : Point ℝ n m job.depth}

/-- Without pairs the envelope of every trial is that of `x̂`, and at most the merit there. -/
theorem Reaches.tries_at_xHat (reached : job.Reaches laps events (.searching attempt))
    (empty : attempt.state.memory.size = 0) {report : TrialReport ℝ}
    (tries : (job.search laps.length attempt.state).Tries report) :
    ∃ trial, job.iterateAt attempt.state.step.gamma attempt.state.current.xHat = .ok trial ∧
      report.phiTrial = trial.envelope attempt.state.step ∧ report.phiTrial ≤ trial.psi := by
  obtain ⟨tau, ledger, trial, ledger', tried, rfl⟩ := tries
  have at_xHat := reached.point_eq_xHat empty laps.length tau
  have projected := (projected_of_iterateAt reached.current_coherent).1
  simp only [Point.state] at projected
  have inside : job.C.Contains ((job.search laps.length attempt.state).point tau) := by
    rw [at_xHat, projected]
    exact Box.contains_project job.C_valid _
  have trial_x : trial.x = attempt.state.current.xHat := by
    obtain ⟨evaluation, after, -, answer⟩ := Search.trial_eq_ok.mp tried
    cases answer
    exact at_xHat
  have fresh := iterateAt_trial tried
  rw [trial_x] at fresh
  exact ⟨trial, fresh, rfl, Search.envelope_le_psi reached.gamma_pos inside tried⟩

/-- **The proximal step is acceptable.** When a search begins, the merit at `x̂` is at most
the threshold of the search, up to a margin. The memory is empty in the first iteration,
after a tightening, and as long as no pair has been admitted since. Every trial is then made
at `x̂`, so that in whatever a solve reports of such a search the trials have one and the same
envelope, which is at most the threshold, up to the margin. -/
theorem proximal_step_acceptable (job : Job ℝ ε n m) :
    (∀ laps events attempt, job.Reaches laps events (.searching attempt) →
      job.valueAt attempt.state.current.x = .ok attempt.state.current.psi ∧
      (∃ psiHat, job.valueAt attempt.state.current.xHat = .ok psiHat ∧
        psiHat ≤ (job.search laps.length attempt.state).threshold +
          1e-6 * |attempt.state.current.psi|) ∧
      (attempt.state.memory.size = 0 ↔
        laps = [] ∨ TightenedIn events laps.length ∨ job.Unlearned laps attempt) ∧
      (attempt.state.memory.size = 0 →
        ∀ tau, (job.search laps.length attempt.state).point tau = attempt.state.current.xHat)) ∧
    ∀ {σ : Type} (observer : Observer ℝ σ) (listener : σ) (report : TrialReport ℝ),
      TrialIn (job.events observer listener) report →
      ∃ laps before after attempt, job.events observer listener = before ++ after ∧
        laps.length = report.iteration ∧ job.Reaches laps before (.searching attempt) ∧
        report.threshold = (job.search laps.length attempt.state).threshold ∧
        (report.iteration = 0 ∨ TightenedIn (job.events observer listener) report.iteration →
          attempt.state.memory.size = 0) ∧
        (attempt.state.memory.size = 0 →
          report.phiTrial ≤ report.threshold + 1e-6 * |attempt.state.current.psi| ∧
          ∀ other, TrialIn (job.events observer listener) other →
            other.iteration = report.iteration → other.phiTrial = report.phiTrial) := by
  constructor
  · intro laps events attempt reached
    exact ⟨(valueAt_of_iterateAt reached.current_coherent).1, reached.merit_le,
      reached.memory_empty_iff, fun empty => reached.point_eq_xHat empty laps.length⟩
  · intro σ observer listener report reported
    obtain ⟨laps, point, reached⟩ := job.reaches_of_trialIn reported
    obtain ⟨attempt, found, tries⟩ := reached.trial_of reported
    obtain ⟨earlier, before, after, number, searching, split, -⟩ := reached.began found
    rw [← number] at tries
    refine ⟨earlier, before, after, attempt, split, number, searching, tries.threshold_eq, ?empties,
      ?agree⟩
    case empties =>
      intro first
      rw [searching.memory_empty_iff_unlearned]
      refine unlearned_of_first (first.imp ?_ (reached.tightenedIn_search_iff found).mp)
      intro zero
      exact List.length_eq_zero_iff.mp (number.trans zero)
    case agree =>
      intro empty
      obtain ⟨trial, fresh, envelope, below⟩ := searching.tries_at_xHat empty tries
      obtain ⟨psiHat, value, bounded⟩ := searching.merit_le
      cases value.symm.trans (valueAt_of_iterateAt fresh).1
      refine ⟨?_, ?_⟩
      · rw [tries.threshold_eq]
        exact below.trans bounded
      · intro other reported_other same
        obtain ⟨attempt', found', tries'⟩ := reached.trial_of reported_other
        rw [same] at found' tries'
        cases found.symm.trans found'
        rw [← number] at tries'
        obtain ⟨trial', fresh', envelope', -⟩ := searching.tries_at_xHat empty tries'
        cases fresh.symm.trans fresh'
        rw [envelope, envelope']

end Job

/-! ## Down a slope -/

/-- The iterate at a point of the slope. -/
noncomputable def slideIterate (gamma : ℝ) (x : Vector ℝ 1) : Iterate ℝ 1 :=
  .ofPoint slideJob.C gamma x (.replicate 1 1) (x.get 0)

section SlideIterate

variable (gamma : ℝ) (x : Vector ℝ 1)

theorem slideIterate_xHat : (slideIterate gamma x).xHat = x - .replicate 1 gamma := by
  show (Box.whole 1).project (x - gamma * Vector.replicate 1 (1 : ℝ)) = _
  rw [Box.project_whole]
  ext i inside
  simp

theorem slideIterate_r : (slideIterate gamma x).r = .replicate 1 gamma := by
  show x - (slideIterate gamma x).xHat = _
  rw [slideIterate_xHat]
  ext i inside
  simp

theorem slideIterate_products :
    (slideIterate gamma x).gradDotR = gamma ∧ (slideIterate gamma x).normSqR = gamma * gamma := by
  have gradDotR : (slideIterate gamma x).gradDotR =
    dot (.replicate 1 1) (slideIterate gamma x).r := rfl
  have normSqR : (slideIterate gamma x).normSqR = normSq (slideIterate gamma x).r := rfl
  rw [gradDotR, normSqR, slideIterate_r]
  unfold normSq
  simp [dot_of_single]

theorem slideIterate_envelope (step : StepSize ℝ) :
    (slideIterate step.gamma x).envelope step = x.get 0 - step.gamma / 2 := by
  obtain ⟨gradDotR, normSqR⟩ := slideIterate_products step.gamma x
  unfold Iterate.envelope StepSize.envelope
  rw [gradDotR, normSqR, show (slideIterate step.gamma x).psi = x.get 0 from rfl]
  field_simp
  ring

end SlideIterate

/-- A state on the slope, without curvature pairs. -/
structure State.Slides (state : State ℝ 1 0 slideJob.depth) : Prop where
  balanced : state.step.Balanced
  current : state.current = slideIterate state.step.gamma state.current.x
  unlearned : state.memory.size = 0

theorem slideJob_start : ∃ state, slideJob.start = .ok state ∧ state.Slides := by
  obtain ⟨state, started⟩ : ∃ state, slideJob.start = .ok state := ⟨_, rfl⟩
  have balanced : state.step.Balanced := (Job.Reaches.start started).balanced
  obtain ⟨initial, ledger, lipschitz, ledger', evaluated, -, -, rfl⟩ := Job.start_eq_ok started
  obtain ⟨z, ledger'', again⟩ := slideJob_evaluate slideJob.x Ledger.blank
  cases again.symm.trans evaluated
  exact ⟨_, started, balanced, rfl, rfl⟩

namespace State.Slides

variable {state : State ℝ 1 0 slideJob.depth} (slides : state.Slides)

include slides

theorem xHat_get : state.current.xHat.get 0 = state.current.x.get 0 - state.step.gamma := by
  rw [slides.current, slideIterate_xHat]
  show (_ - Vector.replicate 1 state.step.gamma)[0] = _
  rw [Vector.getElem_sub, Vector.getElem_replicate]
  rfl

/-- The residual is one. -/
theorem unmet {atHat : Evaluation ℝ 1 0} (slope : atHat.gradPsi = .replicate 1 1) :
    ¬ state.residual atHat ≤ slideJob.eps := by
  have component : (residualVector state.step.gamma state.current.r atHat.gradPsi
      state.current.gradPsi)[0] = 1 := by
    rw [slope, slides.current, slideIterate_r,
      show (slideIterate state.step.gamma _).gradPsi = .replicate 1 1 from rfl]
    simp [residualVector, slides.balanced.gamma_pos.ne']
  intro met
  rcases (maxNorm_le_iff slideJob.eps_pos.le _).mp met 0 Nat.one_pos with none | within
  · cases none
  · rw [component] at within
    have small : |(1 : ℝ)| ≤ 0.5 := within
    norm_num at small

/-- The limit for the merit after a step is the merit less about half the length of the step. -/
theorem descentLimit_eq : state.current.descentLimit state.step =
    state.current.x.get 0 - 0.525 * state.step.gamma + 1e-6 * |state.current.x.get 0| := by
  obtain ⟨gradDotR, normSqR⟩ := slideIterate_products state.step.gamma state.current.x
  have limit : state.current.descentLimit state.step = state.step.descentLimit
      (state.current.x.get 0) state.step.gamma (state.step.gamma * state.step.gamma) := by
    rw [slides.current]
    unfold Iterate.descentLimit
    rw [gradDotR, normSqR]
    rfl
  have curved : 0.5 * state.step.lipschitz * (state.step.gamma * state.step.gamma) =
      0.475 * state.step.gamma := by
    calc
      _ = 0.5 * state.step.gamma * (state.step.gamma * state.step.lipschitz) := by ring
      _ = 0.475 * state.step.gamma := by
        rw [slides.balanced.product]
        ring
  have margin : (1e-6 : ℝ) * Scalar.abs (state.current.x.get 0) =
      1e-6 * |state.current.x.get 0| := rfl
  rw [limit]
  unfold StepSize.descentLimit
  rw [curved, margin]
  ring

/-- The merit falls by the length of the step, which the limit permits. -/
theorem descends : ¬ state.current.descentLimit state.step < state.current.xHat.get 0 := by
  have positive := slides.balanced.gamma_pos
  have margin : 0 ≤ 1e-6 * |state.current.x.get 0| := mul_nonneg (by norm_num) (abs_nonneg _)
  rw [slides.xHat_get, slides.descentLimit_eq]
  linarith

theorem point_eq (k : Nat) : (slideJob.search k state).point 1 = state.current.xHat := by
  refine Search.point_eq_xHat ?direction ?proximal 1
  case direction => exact CurvatureMemory.applyInverse_of_empty slides.unlearned _
  case proximal =>
    show state.current.r = state.current.x - state.current.xHat
    rw [slides.current]
    rfl

/-- The first trial is made at `x̂`, and lowers the envelope by the length of the step. -/
theorem accepted (k : Nat) :
    (slideIterate state.step.gamma state.current.xHat).envelope state.step ≤
      (slideJob.search k state).threshold := by
  obtain ⟨-, normSqR⟩ := slideIterate_products state.step.gamma state.current.x
  have threshold_eq : (slideJob.search k state).threshold = state.current.x.get 0 -
      state.step.gamma / 2 - state.step.requiredDecrease (state.step.gamma * state.step.gamma) := by
    show state.current.envelope state.step - state.step.requiredDecrease state.current.normSqR = _
    rw [slides.current, slideIterate_envelope, normSqR]
    rfl
  have positive := slides.balanced.gamma_pos
  have required : state.step.requiredDecrease (state.step.gamma * state.step.gamma) =
      state.step.sigma :=
    mul_div_cancel_right₀ _ (mul_pos positive positive).ne'
  rw [slideIterate_envelope, slides.xHat_get, threshold_eq, required, slides.balanced.sigma_eq,
    slides.balanced.product]
  linarith

end State.Slides

/-- On the slope every iteration goes on with its first trial. -/
theorem slideJob_iterate {state : State ℝ 1 0 slideJob.depth} (slides : state.Slides) (k : Nat) :
    ∃ opening trial residual next,
      slideJob.iterate k state =
        ⟨[.iteration opening, .accepted trial], .ok (.advanced residual next)⟩ ∧
      trial.iteration = k ∧ next.Slides := by
  obtain ⟨z, ledger, evaluated⟩ := slideJob_evaluate state.current.xHat state.ledger
  obtain ⟨z', ledger', again⟩ := slideJob_evaluate state.current.xHat ledger
  have tried : (slideJob.search k state).trial 1 ledger =
      .ok (slideIterate state.step.gamma state.current.xHat, ledger') := by
    rw [← slides.point_eq k] at again ⊢
    exact Search.trial_eq_ok.mpr ⟨_, _, again, rfl⟩
  refine ⟨_, _, _, _, Job.iterate_of_accepted evaluated (slides.unmet rfl) slides.descends tried
    (slides.accepted k), rfl, slides.balanced, rfl, ?_⟩
  have still : (slideIterate state.step.gamma state.current.xHat).r - state.current.r =
      .replicate 1 0 := by
    rw [slides.current, slideIterate_r, slideIterate_r]
    ext i inside
    simp
  show (state.memory.offer _ ((slideIterate state.step.gamma state.current.xHat).r -
    state.current.r)).size = 0
  rw [still, CurvatureMemory.offer_of_still, slides.unlearned]

/-- The slope is followed for two iterations. -/
theorem slideJob_events : ∃ opening trial opening' trial',
    slideJob.events Observer.silent () =
      [.iteration opening, .accepted trial, .iteration opening', .accepted trial'] ∧
    trial.iteration = 0 ∧ trial'.iteration = 1 := by
  obtain ⟨state, started, slides⟩ := slideJob_start
  obtain ⟨opening, trial, residual, next, first, number, slides'⟩ := slideJob_iterate slides 0
  obtain ⟨opening', trial', residual', last, second, number', -⟩ := slideJob_iterate slides' 1
  have solved : slideJob.solve Observer.silent.noting ((), []) =
      (((), [.iteration opening, .accepted trial, .iteration opening', .accepted trial']),
        .error (.iterationLimit 2 residual')) := by
    rw [Job.solve_of_started _ started]
    show slideJob.run _ 1 0 state _ = _
    rw [Job.run_of_advanced rfl (congrArg Traced.result first),
      Job.run_of_limit rfl (congrArg Traced.result second), first, second]
    rfl
  exact ⟨opening, trial, opening', trial', congrArg (·.1.2) solved, number, number'⟩

/-- The first search on the slope begins without pairs. -/
theorem proximal_step_acceptable_slide : ∃ laps events attempt psiHat report,
    slideJob.Reaches laps events (.searching attempt) ∧ attempt.state.memory.size = 0 ∧
    slideJob.valueAt attempt.state.current.xHat = .ok psiHat ∧
    psiHat ≤ (slideJob.search laps.length attempt.state).threshold +
      1e-6 * |attempt.state.current.psi| ∧
    TrialIn (slideJob.events Observer.silent ()) report ∧ report.iteration = laps.length ∧
    report.phiTrial ≤ report.threshold + 1e-6 * |attempt.state.current.psi| := by
  obtain ⟨opening, trial, opening', trial', reported, number, -⟩ := slideJob_events
  have tried : TrialIn (slideJob.events Observer.silent ()) trial := by
    rw [reported]
    exact ⟨.accepted trial, by simp, rfl⟩
  obtain ⟨searches, trials⟩ := Job.proximal_step_acceptable slideJob
  obtain ⟨laps, before, after, attempt, -, own, reached, -, first, bounded⟩ :=
    trials Observer.silent () trial tried
  have empty := first (Or.inl number)
  obtain ⟨-, ⟨psiHat, value, within⟩, -, -⟩ := searches laps before attempt reached
  exact ⟨laps, before, attempt, psiHat, trial, reached, empty, value, within, tried, own.symm,
    (bounded empty).1⟩

end ProximalNewton
