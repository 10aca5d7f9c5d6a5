import Mathlib.Tactic.Linarith
import ProximalNewton.Proofs.Acceptance
import ProximalNewton.Proofs.CurvatureHistory
import ProximalNewton.Proofs.ProximalModel
import ProximalNewton.Proofs.StepSizes

/-!
# Shorter proximal steps

When the merit after the proximal step of an iterate is above its limit, the step size is
halved and the iterate is computed again at its point. Over exact arithmetic this has one
effect wherever the point lies and whichever sides of `C` hold the step back before or
after: no component of the step gets longer, none gets shorter in proportion to the step
size, and the envelope does not fall (`Iterate.Shortened`).

A component of the shorter step lies between the one of the longer step and the part of it
that the step sizes are in proportion to (`Interval.sub_clamp_between`). The envelope is a
minimum of the proximal model, and the model grows as the step size gets smaller.

In a run every step size of an iteration is a halved one of the step size that it began
with (`Job.Reaches.began_ready`), so two points of one iteration compare in the same way.
-/

namespace ProximalNewton

variable {ε : Type} {n m : Nat}

/-- Of two numbers of which one lies between the other and a part of it, it is the smaller
one, but not smaller than the part. -/
theorem abs_le_of_between {gamma gamma' a b : ℝ} (positive : 0 < gamma')
    (shorter : gamma' ≤ gamma) (between : (gamma' * a - gamma * b) * (a - b) ≤ 0) :
    |b| ≤ |a| ∧ |a| / gamma ≤ |b| / gamma' := by
  have longer_positive : 0 < gamma := positive.trans_le shorter
  have product_le : a * b ≤ |a| * |b| := (le_abs_self _).trans_eq (abs_mul a b)
  have weighted := mul_le_mul_of_nonneg_left product_le (add_pos longer_positive positive).le
  have magnitudes : (gamma' * |a| - gamma * |b|) * (|a| - |b|) ≤ 0 := by
    have squares : (gamma' * a - gamma * b) * (a - b) =
        gamma' * |a| ^ 2 + gamma * |b| ^ 2 - (gamma + gamma') * (a * b) := by
      rw [sq_abs, sq_abs]
      ring
    linarith
  have scaled : gamma' * |b| ≤ gamma * |b| := mul_le_mul_of_nonneg_right shorter (abs_nonneg b)
  constructor
  · by_contra larger
    have difference : |a| - |b| < 0 := sub_neg.mpr (not_le.mp larger)
    have part : gamma' * |a| < gamma' * |b| := mul_lt_mul_of_pos_left (not_le.mp larger) positive
    exact absurd magnitudes (mul_pos_of_neg_of_neg (by linarith) difference).not_ge
  · rw [div_le_div_iff₀ longer_positive positive]
    by_contra smaller
    have part : gamma * |b| < gamma' * |a| := by linarith
    have difference : |b| < |a| := lt_of_mul_lt_mul_left (scaled.trans_lt part) positive.le
    exact absurd magnitudes (mul_pos (sub_pos.mpr part) (sub_pos.mpr difference)).not_ge

/-! ## Iterates at one point -/

/-- What an iterate and its step size become when the step size is made smaller. -/
structure Iterate.Shortened (iterate : Iterate ℝ n) (step : StepSize ℝ) (iterate' : Iterate ℝ n)
    (step' : StepSize ℝ) : Prop where
  /-- No component of the step has become longer. -/
  component_le : ∀ (i : Nat) (inside : i < n), |iterate'.r[i]| ≤ |iterate.r[i]|
  /-- No component of the step has become shorter in proportion to the step size. -/
  ratio_le : ∀ (i : Nat) (inside : i < n),
    |iterate.r[i]| / step.gamma ≤ |iterate'.r[i]| / step'.gamma
  norm_le : norm iterate'.r ≤ norm iterate.r
  envelope_le : iterate.envelope step ≤ iterate'.envelope step'

namespace Iterate

variable {C : Box ℝ n} {step step' : StepSize ℝ}

/-- A shorter step does not lower the envelope. -/
theorem envelope_le_of_shorter (valid : C.Valid) (positive : 0 < step'.gamma)
    (shorter : step'.gamma ≤ step.gamma) (iterate : Iterate ℝ n) :
    (iterate.withGamma C step.gamma).envelope step ≤
      (iterate.withGamma C step'.gamma).envelope step' := by
  set reached := (iterate.withGamma C step'.gamma).xHat
  have inside : C.Contains reached := Box.contains_project valid _
  have penalty : 0.5 / step.gamma * normSq (reached - iterate.x) ≤
      0.5 / step'.gamma * normSq (reached - iterate.x) :=
    mul_le_mul_of_nonneg_right (div_le_div_of_nonneg_left (by norm_num) positive shorter)
      (normSq_nonneg _)
  calc (iterate.withGamma C step.gamma).envelope step
      ≤ iterate.proximalModel step.gamma reached :=
        iterate.envelope_le_proximalModel (positive.trans_le shorter) inside
    _ ≤ iterate.proximalModel step'.gamma reached := by
      unfold proximalModel
      exact add_le_add_right penalty _
    _ = (iterate.withGamma C step'.gamma).envelope step' :=
      (iterate.envelope_withGamma C step').symm

theorem shortened_of_shorter (valid : C.Valid) (positive : 0 < step'.gamma)
    (shorter : step'.gamma ≤ step.gamma) (iterate : Iterate ℝ n) :
    (iterate.withGamma C step.gamma).Shortened step (iterate.withGamma C step'.gamma) step' := by
  have r_eq : ∀ (gamma : ℝ) (i : Nat) (inside : i < n), (iterate.withGamma C gamma).r[i] =
      iterate.x[i] - C.sides[i].clamp (iterate.x[i] - gamma * iterate.gradPsi[i]) := by
    intro gamma i inside
    show (iterate.x - C.project (iterate.x - gamma * iterate.gradPsi))[i] = _
    rw [Vector.getElem_sub, Box.getElem_project, Vector.getElem_sub, Vector.getElem_hmul]
  have compared : ∀ (i : Nat) (inside : i < n),
      |(iterate.withGamma C step'.gamma).r[i]| ≤ |(iterate.withGamma C step.gamma).r[i]| ∧
        |(iterate.withGamma C step.gamma).r[i]| / step.gamma ≤
          |(iterate.withGamma C step'.gamma).r[i]| / step'.gamma := by
    intro i inside
    rw [r_eq, r_eq]
    exact abs_le_of_between positive shorter
      (Interval.sub_clamp_between (valid i inside) positive shorter _ _)
  refine ⟨fun i inside => (compared i inside).1, fun i inside => (compared i inside).2, ?norm_le,
    iterate.envelope_le_of_shorter valid positive shorter⟩
  case norm_le => exact norm_le_norm fun i inside => (compared i inside).1

end Iterate

/-! ## Iterates of one iteration -/

namespace Job

variable {job : Job ℝ ε n m} {laps : List (Lap ℝ n m job.depth)} {events events' : List (Event ℝ)}
  {point : Point ℝ n m job.depth}

/-- The state that an iteration begins with is determined by the iterations before. -/
theorem Reaches.ready_unique {state state' : State ℝ n m job.depth}
    (reached : job.Reaches laps events (.ready state))
    (reached' : job.Reaches laps events' (.ready state')) : state = state' := by
  cases reached with
  | start started =>
    cases reached' with
    | start started' => exact Except.ok.inj (started.symm.trans started')
  | advance _ =>
    cases reached' with
    | advance _ => rfl

/-- The current iterate is the one made at its point for the step size in force. -/
theorem Reaches.current_eq_withGamma (reached : job.Reaches laps events point) :
    point.state.current = point.state.current.withGamma job.C point.state.step.gamma := by
  have fresh := reached.current_coherent
  exact Except.ok.inj (fresh.symm.trans (iterateAt_withGamma point.state.step.gamma fresh))

/-- An iteration began with the step size that its own comes from by its tightenings, and
with the point that its iterate is made at. -/
theorem Reaches.began_ready (reached : job.Reaches laps events point) :
    ∃ events first, job.Reaches laps events (.ready first) ∧
      point.state.step = StepSize.halved^[point.updates] first.step ∧
      point.state.current = first.current.withGamma job.C point.state.step.gamma := by
  induction reached with
  | start started =>
    exact ⟨_, _, .start started, rfl, (Reaches.start started).current_eq_withGamma⟩
  | measure _ _ ih => exact ih
  | converge _ _ ih => exact ih
  | enter _ _ ih => exact ih
  | @tighten _ _ attempt _ _ _ _ ih =>
    obtain ⟨before, first, began, step_eq, current_eq⟩ := ih
    have step_eq : attempt.state.step = StepSize.halved^[attempt.updates] first.step := step_eq
    have current_eq : attempt.state.current =
      first.current.withGamma job.C attempt.state.step.gamma := current_eq
    refine ⟨before, first, began, ?step, ?current⟩
    case step =>
      show attempt.state.step.halved = StepSize.halved^[attempt.updates + 1] first.step
      rw [Function.iterate_succ_apply', ← step_eq]
    case current =>
      show attempt.state.current.withGamma job.C attempt.state.step.halved.gamma = _
      rw [current_eq]
      rfl
  | revalue _ _ ih => exact ih
  | search _ _ ih => exact ih
  | begin _ ih => exact ih
  | reject _ _ _ _ ih => exact ih
  | accept _ _ _ ih => exact ih
  | stall _ _ _ _ ih => exact ih
  | advance searched _ =>
    exact ⟨_, _, .advance searched, rfl, (Reaches.advance searched).current_eq_withGamma⟩

end Job

/-- **Tightening the step size shortens the proximal step and does not lower the envelope.**
A step size that is tightened `k` times is divided by `2ᵏ`. Computing an iterate again for it
makes no component of the proximal step longer, and none shorter in proportion to the step
size. In a run this compares any two points of one iteration, of which the second comes after
as many tightenings or more. -/
theorem tightening_shortens :
    (∀ {n : Nat} {C : Box ℝ n}, C.Valid → ∀ (x gradPsi : Vector ℝ n) (psi : ℝ)
      (step : StepSize ℝ), 0 < step.gamma → ∀ k,
      let before := Iterate.ofPoint C step.gamma x gradPsi psi
      let tightened := StepSize.halved^[k] step
      tightened.gamma = step.gamma / 2 ^ k ∧
        before.Shortened step (before.withGamma C tightened.gamma) tightened) ∧
    ∀ {ε : Type} {n m : Nat} (job : Job ℝ ε n m) laps events events' point point',
      job.Reaches laps events point → job.Reaches laps events' point' →
      point.updates ≤ point'.updates →
      point'.state.step.gamma = point.state.step.gamma / 2 ^ (point'.updates - point.updates) ∧
        point.state.current.Shortened point.state.step point'.state.current
          point'.state.step := by
  refine ⟨?_, ?_⟩
  · intro n C valid x gradPsi psi step positive k before tightened
    obtain ⟨positive', shorter⟩ := StepSize.gamma_iterate_halved_mem positive k
    exact ⟨step.gamma_iterate_halved k, before.shortened_of_shorter valid positive' shorter⟩
  · intro ε n m job laps events events' point point' reached reached' later
    obtain ⟨before, first, began, step_eq, current_eq⟩ := reached.began_ready
    obtain ⟨before', first', began', step_eq', current_eq'⟩ := reached'.began_ready
    cases began.ready_unique began'
    have tightened : point'.state.step =
        StepSize.halved^[point'.updates - point.updates] point.state.step := by
      rw [step_eq', step_eq, ← Function.iterate_add_apply, Nat.sub_add_cancel later]
    obtain ⟨positive', shorter⟩ := StepSize.gamma_iterate_halved_mem reached.gamma_pos
      (point'.updates - point.updates)
    rw [← tightened] at positive' shorter
    rw [current_eq, current_eq']
    refine ⟨?_, first.current.shortened_of_shorter job.C_valid positive' shorter⟩
    rw [tightened, StepSize.gamma_iterate_halved]

/-! ## A step over a kink -/

/-- The magnitude of a number, from zero, with the slope that it has on the right. -/
noncomputable def kinkJob : Job ℝ Unit 1 0 :=
  { slideJob with
    oracles := { slideJob.oracles with f := fun x => .ok |x.get ⟨0, Nat.one_pos⟩| }
    numVars_pos := Nat.one_pos }

theorem kinkJob_evaluate (x : Vector ℝ 1) (ledger : Ledger ℝ 0) : ∃ z ledger',
    kinkJob.merit.evaluate x ledger =
      .ok ({ z, psi := |x.get 0|, gradPsi := .replicate 1 1 }, ledger') :=
  Merit.evaluate_of_unconstrained rfl rfl rfl (fun _ => rfl) ledger

theorem kinkJob_start : ∃ state, kinkJob.start = .ok state ∧ state.Slides ∧
    state.current.x.get 0 = 0 := by
  obtain ⟨state, started⟩ : ∃ state, kinkJob.start = .ok state := ⟨_, rfl⟩
  have balanced : state.step.Balanced := (Job.Reaches.start started).balanced
  obtain ⟨initial, ledger, lipschitz, ledger', evaluated, -, -, rfl⟩ := Job.start_eq_ok started
  obtain ⟨z, ledger'', again⟩ := kinkJob_evaluate kinkJob.x Ledger.blank
  cases again.symm.trans evaluated
  have origin : kinkJob.x.get 0 = 0 := rfl
  refine ⟨_, started, ⟨balanced, ?current, rfl⟩, origin⟩
  case current =>
    show Iterate.ofPoint _ _ _ _ |kinkJob.x.get 0| = Iterate.ofPoint _ _ _ _ (kinkJob.x.get 0)
    rw [origin, abs_zero]
    rfl

/-- The first step goes down on the slope and up on the other side, and is taken back. -/
theorem kinkJob_tightens : ∃ events events' state attempt left,
    kinkJob.Reaches [] events (.ready state) ∧
      kinkJob.Reaches [] events' (.tightened attempt left) ∧ attempt.updates = 1 := by
  obtain ⟨state, started, slides, origin⟩ := kinkJob_start
  obtain ⟨z, ledger, evaluated⟩ := kinkJob_evaluate state.current.xHat state.ledger
  have exceeds : state.current.descentLimit state.step < |state.current.xHat.get 0| := by
    have positive := slides.balanced.gamma_pos
    have limit := slides.descentLimit_eq
    have magnitude := abs_nonneg (state.current.xHat.get 0)
    rw [origin, abs_zero] at limit
    linarith
  have ready := Job.Reaches.start started
  have adapting := (ready.measure evaluated).enter (slides.unmet rfl)
  exact ⟨_, _, state, _, _, ready, Job.Reaches.tighten adapting exceeds, rfl⟩

/-- A step from outside the quadrant is halved, and the step over the kink. -/
theorem tightening_shortens_kink :
    (let step := StepSize.ofLipschitz (0.19 : ℝ)
      let before := Iterate.ofPoint quadrant step.gamma #v[-1, 2] #v[1, -1] 0
      quadrant.Valid ∧ 0 < step.gamma ∧ step.halved.gamma = step.gamma / 2 ^ 1 ∧
        before.Shortened step (before.withGamma quadrant step.halved.gamma) step.halved) ∧
    ∃ events events' state attempt left,
      kinkJob.Reaches [] events (.ready state) ∧
        kinkJob.Reaches [] events' (.tightened attempt left) ∧ attempt.updates = 1 ∧
        attempt.state.step.gamma = state.step.gamma / 2 ^ attempt.updates ∧
        state.current.Shortened state.step attempt.state.current attempt.state.step := by
  obtain ⟨events, events', state, attempt, left, ready, tightened, once⟩ := kinkJob_tightens
  have positive : 0 < (StepSize.ofLipschitz (0.19 : ℝ)).gamma := by
    show (0 : ℝ) < 0.95 / 0.19
    norm_num
  exact ⟨⟨quadrant_valid, positive, tightening_shortens.1 quadrant_valid _ _ _ _ positive 1⟩,
    events, events', state, attempt, left, ready, tightened, once,
    tightening_shortens.2 kinkJob _ _ _ _ _ ready tightened (Nat.zero_le _)⟩

end ProximalNewton
