import Mathlib.Data.Sign.Basic
import ProximalNewton.Proofs.Stationarity

/-!
# Signs of multipliers

Two parts of the library go by the sides of `D`: the multiplier estimate, which is above zero
only where the slack is held by an upper end and below zero only where it is held by a lower
one, and the clipping of multipliers between solves, which wipes out a sign whose side is
open. Over exact arithmetic they agree. The multipliers that an evaluation or a solve gives
are normal to `D` (`Box.NormalAt`), and clipping normal multipliers does nothing but limit
their magnitude (`Box.NormalAt.clips`).
-/

namespace ProximalNewton

variable {ε : Type} {n m : Nat}

/-! ## Clipping one multiplier -/

namespace Interval

variable {side : Interval ℝ} {bound multiplier : ℝ}

/-- The sign of the multiplier belongs to a side that has an end. -/
def Supports (side : Interval ℝ) (multiplier : ℝ) : Prop :=
  (side.upper = none → multiplier ≤ 0) ∧ (side.lower = none → 0 ≤ multiplier)

/-- Clipping a real number, with the ends that its sides impose. -/
theorem clipMultiplier_eq (side : Interval ℝ) (bound multiplier : ℝ) :
    side.clipMultiplier bound multiplier =
      min (max multiplier (if side.lower.isNone then 0 else -bound))
        (if side.upper.isNone then 0 else bound) := by
  unfold clipMultiplier
  rw [minNum_eq_min, maxNum_eq_max]

/-- Clipping does nothing but limit the magnitude of a multiplier of supported sign. -/
theorem clipMultiplier_of_supports (nonneg : 0 ≤ bound) (supported : side.Supports multiplier) :
    side.clipMultiplier bound multiplier = max (-bound) (min multiplier bound) := by
  have from_above : min multiplier (if side.upper.isNone then 0 else bound) =
      min multiplier bound := by
    split
    · have below := supported.1 (Option.isNone_iff_eq_none.mp ‹_›)
      rw [min_eq_left below, min_eq_left (below.trans nonneg)]
    · rfl
  have from_below : max (if side.lower.isNone then 0 else -bound) (min multiplier bound) =
      max (-bound) (min multiplier bound) := by
    split
    · have above := le_min (supported.2 (Option.isNone_iff_eq_none.mp ‹_›)) nonneg
      rw [max_eq_right above, max_eq_right ((neg_nonpos.mpr nonneg).trans above)]
    · rfl
  have ends : (if side.lower.isNone then 0 else -bound) ≤
      if side.upper.isNone then 0 else bound := by
    split_ifs <;> linarith
  rw [clipMultiplier_eq, min_max_distrib_right, min_eq_left ends, max_comm, from_above, from_below]

/-- A clipped multiplier is of supported sign and limited magnitude. -/
theorem supports_clipMultiplier (nonneg : 0 ≤ bound) (side : Interval ℝ) (multiplier : ℝ) :
    side.Supports (side.clipMultiplier bound multiplier) ∧
      |side.clipMultiplier bound multiplier| ≤ bound := by
  rw [clipMultiplier_eq]
  refine ⟨⟨?_, ?_⟩, ?_⟩
  · intro upper_open
    rw [upper_open]
    exact min_le_right _ _
  · intro lower_open
    rw [lower_open]
    refine le_min (le_max_right _ _) ?_
    split_ifs
    · exact le_rfl
    · exact nonneg
  · rw [abs_le]
    refine ⟨le_min (le_max_of_le_right ?_) ?_, min_le_of_right_le ?_⟩
    · split_ifs <;> linarith
    · split_ifs <;> linarith
    · split_ifs <;> linarith

/-- A multiplier within the bound is its own clipping. -/
theorem clipMultiplier_of_abs_le (supported : side.Supports multiplier)
    (within : |multiplier| ≤ bound) : side.clipMultiplier bound multiplier = multiplier := by
  obtain ⟨above, below⟩ := abs_le.mp within
  rw [clipMultiplier_of_supports ((abs_nonneg _).trans within) supported, min_eq_left below,
    max_eq_right above]

theorem sign_clipMultiplier (positive : 0 < bound) (supported : side.Supports multiplier) :
    SignType.sign (side.clipMultiplier bound multiplier) = SignType.sign multiplier := by
  rw [clipMultiplier_of_supports positive.le supported]
  rcases lt_trichotomy multiplier 0 with below | zero | above
  · have low : max (-bound) (min multiplier bound) < 0 :=
      max_lt (neg_neg_of_pos positive) (min_lt_of_left_lt below)
    rw [sign_neg below, sign_neg low]
  · rw [zero, min_eq_left positive.le, max_eq_right (neg_nonpos.mpr positive.le)]
  · have high : 0 < max (-bound) (min multiplier bound) :=
      lt_max_of_lt_right (lt_min above positive)
    rw [sign_pos above, sign_pos high]

end Interval

/-! ## Normal multipliers -/

/-- The multipliers are normal to the box at a point: above zero only where it is at an
upper end, below zero only where it is at a lower end. -/
structure Box.NormalAt (D : Box ℝ m) (z y : Vector ℝ m) : Prop where
  upper_of_pos : ∀ (j : Nat) (inside : j < m), 0 < y[j] → D.sides[j].upper = some z[j]
  lower_of_neg : ∀ (j : Nat) (inside : j < m), y[j] < 0 → D.sides[j].lower = some z[j]

/-- Clipping the multipliers limits their magnitudes and does nothing else to them. -/
structure Box.OnlyLimits (D : Box ℝ m) (bound : ℝ) (y : Vector ℝ m) : Prop where
  limited : ∀ (j : Nat) (inside : j < m),
    (D.clipMultipliers bound y)[j] = max (-bound) (min y[j] bound)
  sign : 0 < bound → ∀ (j : Nat) (inside : j < m),
    SignType.sign (D.clipMultipliers bound y)[j] = SignType.sign y[j]
  unchanged : (∀ (j : Nat) (inside : j < m), |y[j]| ≤ bound) → D.clipMultipliers bound y = y
  idempotent : D.clipMultipliers bound (D.clipMultipliers bound y) = D.clipMultipliers bound y

namespace Box

variable {D : Box ℝ m} {bound : ℝ} {z y : Vector ℝ m}

theorem getElem_clipMultipliers (D : Box ℝ m) (bound : ℝ) (y : Vector ℝ m) {j : Nat}
    (inside : j < m) :
    (D.clipMultipliers bound y)[j] = D.sides[j].clipMultiplier bound y[j] := by
  unfold clipMultipliers
  rw [Vector.getElem_zipWith]

theorem NormalAt.supports (normal : D.NormalAt z y) {j : Nat} (inside : j < m) :
    D.sides[j].Supports y[j] := by
  constructor
  · intro upper_open
    by_contra positive
    cases upper_open.symm.trans (normal.upper_of_pos j inside (not_le.mp positive))
  · intro lower_open
    by_contra negative
    cases lower_open.symm.trans (normal.lower_of_neg j inside (not_le.mp negative))

/-- Clipping does nothing but limit the magnitudes of normal multipliers. -/
theorem NormalAt.clips (normal : D.NormalAt z y) (nonneg : 0 ≤ bound) :
    D.OnlyLimits bound y where
  limited j inside := by
    rw [getElem_clipMultipliers]
    exact Interval.clipMultiplier_of_supports nonneg (normal.supports inside)
  sign positive j inside := by
    rw [getElem_clipMultipliers]
    exact Interval.sign_clipMultiplier positive (normal.supports inside)
  unchanged within := by
    ext j inside
    rw [getElem_clipMultipliers]
    exact Interval.clipMultiplier_of_abs_le (normal.supports inside) (within j inside)
  idempotent := by
    ext j inside
    rw [getElem_clipMultipliers, getElem_clipMultipliers]
    obtain ⟨supported, within⟩ := D.sides[j].supports_clipMultiplier nonneg y[j]
    exact Interval.clipMultiplier_of_abs_le supported within

end Box

/-! ## Evaluations and solves -/

/-- The multiplier estimate is normal to `D` at the slack. -/
theorem Merit.normalAt {merit : Merit ℝ ε n m} (weights : ∀ weight ∈ merit.sigma, 0 < weight)
    (g : Vector ℝ m) : merit.D.NormalAt (merit.slackOf g) (merit.multipliersOf g) where
  upper_of_pos _ inside positive :=
    upper_of_multiplier_pos (weights _ (Vector.getElem_mem inside)) positive
  lower_of_neg _ inside negative :=
    lower_of_multiplier_neg (weights _ (Vector.getElem_mem inside)) negative

/-- The multipliers of a solution are normal to `D` at its slack. -/
theorem Job.Reaches.normalAt {job : Job ℝ ε n m} {laps : List (Lap ℝ n m job.depth)}
    {events : List (Event ℝ)} {state : State ℝ n m job.depth} {atHat : Evaluation ℝ n m}
    (reached : job.Reaches laps events (.measured state atHat)) :
    job.D.NormalAt atHat.z state.ledger.multipliers := by
  obtain ⟨g, -, -, -, slack_eq, multipliers_eq, -⟩ := reached.solution_evaluated
  have weights : ∀ weight ∈ job.merit.sigma, 0 < weight := fun weight member =>
    (job.sigma_pos weight member).1
  rw [slack_eq, multipliers_eq]
  exact Merit.normalAt weights g

/-- **One sign convention.** Multiplier estimates, and the multipliers that a successful
solve returns, are normal to `D` at the slack that comes with them, and clipping them does
nothing but limit their magnitudes. -/
theorem multiplier_signs :
    (∀ {n m : Nat} (merit : Merit ℝ ε n m), (∀ weight ∈ merit.sigma, 0 < weight) → ∀ g,
      merit.D.NormalAt (merit.slackOf g) (merit.multipliersOf g) ∧
        ∀ bound, 0 ≤ bound → merit.D.OnlyLimits bound (merit.multipliersOf g)) ∧
    ∀ {σ : Type} (request : Request ℝ ε) (observer : Observer ℝ σ) (listener : σ)
      (summary : Summary ℝ), (request.solve observer listener).result = .ok summary →
      ∃ (sameD : request.problem.dimD = request.problem.numConstraints)
        (z y : Vector ℝ request.problem.numConstraints),
        (request.solve observer listener).buffers.z = z.toArray ∧
        (request.solve observer listener).buffers.y = y.toArray ∧
        (request.problem.D.cast sameD).NormalAt z y ∧
        ∀ bound, 0 ≤ bound → (request.problem.D.cast sameD).OnlyLimits bound y := by
  constructor
  · intro n m merit weights g
    have normal := Merit.normalAt weights g
    exact ⟨normal, fun bound nonneg => normal.clips nonneg⟩
  · intro σ request observer listener summary solved
    obtain ⟨job, solution, accepted, answered, buffers, -⟩ := Request.solve_eq_ok solved
    obtain ⟨laps, events, state, atHat, reached, -, rfl⟩ := Job.solve_eq_ok answered
    have normal := reached.normalAt
    obtain ⟨faultless, rfl⟩ := Request.accept_eq_ok accepted
    have agree := Request.sizes_agree (Request.conditions_of_faultless faultless).2.1
    refine ⟨agree.2.2.1, atHat.z, state.ledger.multipliers, ?_, ?_, normal,
      fun bound nonneg => normal.clips nonneg⟩
    · rw [buffers]
      rfl
    · rw [buffers]
      rfl

/-- The request is solved although its constraint is violated, and its multiplier is normal
to the halfline. -/
theorem multiplier_signs_slope : ∃ summary,
    (slopeRequest.solve Observer.silent ()).result = .ok summary ∧
    ∃ z y : Vector ℝ 1,
      (slopeRequest.solve Observer.silent ()).buffers.z = z.toArray ∧
      (slopeRequest.solve Observer.silent ()).buffers.y = y.toArray ∧
      slopeProblem.D.NormalAt z y ∧ ∀ bound, 0 ≤ bound → slopeProblem.D.OnlyLimits bound y := by
  obtain ⟨solution, answered⟩ := slopeJob_solved
  have solved := Request.solve_of_faultless slopeRequest_faultless answered
  obtain ⟨sameD, z, y, at_z, at_y, normal, clips⟩ :=
    multiplier_signs.2 slopeRequest Observer.silent () _ solved
  exact ⟨solution.summary, solved, z, y, at_z, at_y, normal, clips⟩

end ProximalNewton
