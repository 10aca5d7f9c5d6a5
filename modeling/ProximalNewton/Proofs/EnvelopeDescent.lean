import Mathlib.Order.Interval.Finset.Fin
import ProximalNewton.Proofs.Acceptance

/-!
# Descent of the envelope

An iteration that leaves the step size as it is searches from the envelope that the search
before it ended with, whatever the arithmetic: the last trial was made for the same step
size and is handed on as it is (`Job.Reaches.phi_eq_phiTrial`).

Over exact arithmetic an accepted trial lowers the envelope by `σ‖r‖² / γ²` at least. Along
iterations that neither tighten the step size nor stall these amounts add up
(`Job.Reaches.descent`).
-/

namespace ProximalNewton

variable {ε : Type} {n m : Nat}

/-- The envelope that the search of an iteration begins with. -/
def Attempt.phi {F : Type} [Scalar F] {depth : Nat} (attempt : Attempt F n m depth) : F :=
  attempt.state.current.envelope attempt.state.step

/-- After the iteration `first`, none up to `last` tightens the step size, and none before
`last` stalls. -/
structure Undisturbed {F : Type} (events : List (Event F)) (first last : Nat) : Prop where
  untightened : ∀ k, first < k → k ≤ last → ¬ TightenedIn events k
  unstalled : ∀ k, first ≤ k → k < last → ¬ StalledIn events k

theorem Undisturbed.mono {F : Type} {events : List (Event F)} {first last k : Nat}
    (undisturbed : Undisturbed events first last) (within : k ≤ last) :
    Undisturbed events first k :=
  ⟨fun j above below => undisturbed.untightened j above (below.trans within),
    fun j above below => undisturbed.unstalled j above (below.trans_le within)⟩

/-- What the searches from `first` to `last` of a run say of one another, and the events of
them: the step size stays, every trial is reported with the envelope that its search begins
with, no threshold exceeds it, and it falls by `σ‖r‖² / γ²` at least from each search to the
next. -/
structure Descent {depth : Nat} (events : List (Event ℝ)) (searches : List (Attempt ℝ n m depth))
    (first last : Fin searches.length) : Prop where
  step : ∀ k, first ≤ k → k ≤ last → searches[k].state.step = searches[first].state.step
  reports : ∀ k, first ≤ k → k ≤ last → ∀ report, TrialIn events report → report.iteration = k →
    report.phi = searches[k].phi ∧ report.threshold ≤ report.phi
  drop : searches[first].state.step.sigma / searches[first].state.step.gamma ^ 2 *
      ∑ k ∈ Finset.Ico first last, normSq searches[k].state.current.r ≤
    searches[first].phi - searches[last].phi

namespace Job

/-! ## From one search to the next -/

section Carried

variable {F : Type} [Scalar F] {job : Job F ε n m} {laps : List (Lap F n m job.depth)}
  {events : List (Event F)} {point : Point F n m job.depth}

/-- Without a tightening a search begins with the envelope of the last trial before it. -/
theorem Reaches.phi_eq_phiTrial (reached : job.Reaches laps events point)
    {report closing : TrialReport F} (reported : TrialIn events report)
    (closed : ClosingIn events closing) (follows : closing.iteration + 1 = report.iteration)
    (untightened : ¬ TightenedIn events report.iteration) : report.phi = closing.phiTrial := by
  obtain ⟨attempt, found, tries⟩ := reached.trial_of reported
  obtain ⟨lap, ended, last⟩ := reached.closing_of closed
  rw [← follows] at found untightened
  obtain ⟨step_eq, current_eq⟩ := reached.resumed ended found untightened
  rw [tries.phi_eq, last]
  show attempt.state.current.envelope attempt.state.step =
    lap.result.trial.envelope lap.state.step
  rw [step_eq, current_eq]

/-- A search that is not the first follows one that is closed. -/
theorem Reaches.closed_before (reached : job.Reaches laps events point) {report : TrialReport F}
    (reported : TrialIn events report) (later : 0 < report.iteration) :
    ∃ closing, ClosingIn events closing ∧ closing.iteration + 1 = report.iteration := by
  obtain ⟨attempt, found, -⟩ := reached.trial_of reported
  obtain ⟨inside, -⟩ := List.getElem?_eq_some_iff.mp found
  have previous : report.iteration - 1 < (point.searches laps).length := by omega
  obtain ⟨lap, ended, -⟩ := Point.ended_of_followed (by omega)
    (List.getElem?_eq_getElem previous)
  refine ⟨job.lastTrial (report.iteration - 1) lap, (reached.settled ended).closing, ?_⟩
  show report.iteration - 1 + 1 = report.iteration
  omega

end Carried

/-! ## Along undisturbed iterations -/

variable {job : Job ℝ ε n m} {laps : List (Lap ℝ n m job.depth)} {events : List (Event ℝ)}
  {point : Point ℝ n m job.depth} {attempt next : Attempt ℝ n m job.depth} {k : Nat}

/-- An accepted trial lowers the envelope for the next search. -/
theorem Reaches.descent_step (reached : job.Reaches laps events point)
    (found : (point.searches laps)[k]? = some attempt)
    (found_next : (point.searches laps)[k + 1]? = some next)
    (untightened : ¬ TightenedIn events (k + 1)) (unstalled : ¬ StalledIn events k) :
    next.state.step = attempt.state.step ∧
      attempt.state.step.sigma / attempt.state.step.gamma ^ 2 * normSq attempt.state.current.r ≤
        attempt.phi - next.phi := by
  obtain ⟨followed, -⟩ := List.getElem?_eq_some_iff.mp found_next
  obtain ⟨lap, ended, rfl⟩ := Point.ended_of_followed followed found
  obtain ⟨step_eq, current_eq⟩ := reached.resumed ended found_next untightened
  obtain ⟨earlier, before, after, -, searching, -⟩ := reached.began found
  have length : lap.state.current.normSqR = normSq lap.state.current.r :=
    (products_of_iterateAt searching.current_coherent).2
  have accepted : next.phi ≤ lap.phi -
      lap.state.step.sigma * lap.state.current.normSqR /
        (lap.state.step.gamma * lap.state.step.gamma) := by
    have below := (reached.settled ended).accepted unstalled
    unfold Attempt.phi
    rw [step_eq, current_eq]
    exact below
  refine ⟨step_eq, ?_⟩
  rw [length, mul_div_right_comm, ← pow_two] at accepted
  linarith

/-- The descent adds up along undisturbed iterations. -/
theorem Reaches.descent_sum (reached : job.Reaches laps events point)
    {search : Nat → Attempt ℝ n m job.depth} {first last : Nat} (ordered : first ≤ last)
    (found : ∀ k ≤ last, (point.searches laps)[k]? = some (search k))
    (undisturbed : Undisturbed events first last) :
    (search last).state.step = (search first).state.step ∧
      (search first).state.step.sigma / (search first).state.step.gamma ^ 2 *
          ∑ k ∈ Finset.Ico first last, normSq (search k).state.current.r ≤
        (search first).phi - (search last).phi := by
  induction last, ordered using Nat.le_induction with
  | base => simp
  | succ last ordered ih =>
    obtain ⟨same, dropped⟩ := ih (fun k within => found k (Nat.le_succ_of_le within))
      (undisturbed.mono (Nat.le_succ last))
    obtain ⟨same_next, drops⟩ := reached.descent_step (found last (Nat.le_succ last))
      (found (last + 1) le_rfl) (undisturbed.untightened _ (Nat.lt_succ_of_le ordered) le_rfl)
      (undisturbed.unstalled _ ordered (Nat.lt_succ_self last))
    rw [same] at drops
    refine ⟨same_next.trans same, ?_⟩
    rw [Finset.sum_Ico_succ_top ordered, mul_add]
    linarith

/-- A search reports the envelope that it begins with, and its threshold is below it. -/
theorem Reaches.phi_of_trial (reached : job.Reaches laps events point)
    (found : (point.searches laps)[k]? = some attempt) {report : TrialReport ℝ}
    (reported : TrialIn events report) (own : report.iteration = k) :
    report.phi = attempt.phi ∧ report.threshold ≤ report.phi := by
  obtain ⟨attempt', found', tries⟩ := reached.trial_of reported
  rw [own] at found'
  cases found.symm.trans found'
  obtain ⟨earlier, before, after, -, searching, -⟩ := reached.began found
  have length : attempt.state.current.normSqR = normSq attempt.state.current.r :=
    (products_of_iterateAt searching.current_coherent).2
  have balanced : attempt.state.step.Balanced := searching.balanced
  have required := balanced.requiredDecrease_nonneg (normSq_nonneg attempt.state.current.r)
  refine ⟨tries.phi_eq, ?_⟩
  rw [tries.phi_eq, tries.threshold_eq]
  rw [← length] at required
  exact sub_le_self _ required

/-- The envelope descends along undisturbed iterations of a run. -/
theorem Reaches.descent (reached : job.Reaches laps events point)
    {first last : Fin (point.searches laps).length} (ordered : first ≤ last)
    (undisturbed : Undisturbed events first last) :
    Descent events (point.searches laps) first last := by
  -- the sum over numbers of iterations needs a search also where there is none
  let search (k : Nat) : Attempt ℝ n m job.depth :=
    (point.searches laps)[k]?.getD (point.searches laps)[first]
  have search_eq : ∀ k : Fin (point.searches laps).length,
      search k = (point.searches laps)[k] := by
    intro k
    simp [search]
  have found : ∀ j : Fin (point.searches laps).length, ∀ k ≤ (j : Nat),
      (point.searches laps)[k]? = some (search k) := by
    intro j k within
    have inside : k < (point.searches laps).length := within.trans_lt j.isLt
    simp [search, inside]
  constructor
  case step =>
    intro k above below
    have same := (reached.descent_sum above (found k) (undisturbed.mono below)).1
    rw [search_eq, search_eq] at same
    exact same
  case reports =>
    intro k above below report reported own
    exact reached.phi_of_trial (List.getElem?_eq_getElem k.isLt) reported own
  case drop =>
    have dropped := (reached.descent_sum ordered (found last) undisturbed).2
    rw [← Fin.map_valEmbedding_Ico, Finset.sum_map] at dropped
    simp only [Fin.valEmbedding_apply, search_eq] at dropped
    exact dropped

end Job

/-- **Descent of the envelope along a run.** Whatever the arithmetic, every trial of a
search before which the step size was not tightened is reported with the envelope of the
last trial of the search before it. Over exact arithmetic, along searches that the step size
is not tightened between and of which none but the last stalls, the step size is the same,
no threshold exceeds the envelope, and the envelope falls by `σ / γ²` times the sum of the
squared lengths of the steps `r` at least. -/
theorem envelope_descends :
    (∀ {F ε σ : Type} [Scalar F] {n m : Nat} (job : Job F ε n m) (observer : Observer F σ)
      (listener : σ) (report : TrialReport F),
      TrialIn (job.events observer listener) report → 0 < report.iteration →
      ¬ TightenedIn (job.events observer listener) report.iteration →
      (∃ closing, ClosingIn (job.events observer listener) closing ∧
        closing.iteration + 1 = report.iteration) ∧
      ∀ closing, ClosingIn (job.events observer listener) closing →
        closing.iteration + 1 = report.iteration → report.phi = closing.phiTrial) ∧
    ∀ {ε σ : Type} {n m : Nat} (job : Job ℝ ε n m) (observer : Observer ℝ σ) (listener : σ),
      job.events observer listener = [] ∨
      ∃ laps point, job.Reaches laps (job.events observer listener) point ∧
        job.Ends laps point (job.solve observer listener).2 ∧
        ∀ first last : Fin (point.searches laps).length, first < last →
          Undisturbed (job.events observer listener) first last →
          Descent (job.events observer listener) (point.searches laps) first last := by
  constructor
  · intro F ε σ _ n m job observer listener report reported later untightened
    obtain ⟨laps, point, reached⟩ := job.reaches_of_trialIn reported
    exact ⟨reached.closed_before reported later,
      fun closing closed follows => reached.phi_eq_phiTrial reported closed follows untightened⟩
  · intro ε σ n m job observer listener
    rcases job.solve_ends observer listener with ⟨error, -, none, -⟩ | ⟨laps, point, reached, ends⟩
    · exact Or.inl none
    · exact Or.inr ⟨laps, point, reached, ends,
        fun first last ordered undisturbed => reached.descent ordered.le undisturbed⟩

/-- Down the slope the second search begins with the envelope that the first one ended with,
and the envelope descends from the one to the other. -/
theorem envelope_descends_slide :
    (∃ report closing, TrialIn (slideJob.events Observer.silent ()) report ∧
      ClosingIn (slideJob.events Observer.silent ()) closing ∧
      closing.iteration + 1 = report.iteration ∧ report.phi = closing.phiTrial) ∧
    ∃ laps point, slideJob.Reaches laps (slideJob.events Observer.silent ()) point ∧
      ∃ first last : Fin (point.searches laps).length, first < last ∧
        Undisturbed (slideJob.events Observer.silent ()) first last ∧
        Descent (slideJob.events Observer.silent ()) (point.searches laps) first last := by
  obtain ⟨opening, trial, opening', trial', reported, number, number'⟩ := slideJob_events
  obtain ⟨carried, descent⟩ := envelope_descends
  have tried : TrialIn (slideJob.events Observer.silent ()) trial' := by
    rw [reported]
    exact ⟨.accepted trial', by simp, rfl⟩
  have closed : ClosingIn (slideJob.events Observer.silent ()) trial := by
    rw [reported]
    exact ⟨.accepted trial, by simp, rfl⟩
  have untightened : ∀ k, ¬ TightenedIn (slideJob.events Observer.silent ()) k := by
    intro k
    simp [reported, TightenedIn]
  have unstalled : ∀ k, ¬ StalledIn (slideJob.events Observer.silent ()) k := by
    intro k
    simp [reported, StalledIn]
  have follows : trial.iteration + 1 = trial'.iteration := by
    rw [number, number']
  refine ⟨⟨trial', trial, tried, closed, follows, ?_⟩, ?_⟩
  · exact (carried slideJob _ () trial' tried (by omega) (untightened _)).2 trial closed follows
  · rcases descent slideJob Observer.silent () with none | ⟨laps, point, reached, -, descends⟩
    · rw [reported] at none
      cases none
    · obtain ⟨attempt, found, -⟩ := reached.trial_of tried
      rw [number'] at found
      obtain ⟨two, -⟩ := List.getElem?_eq_some_iff.mp found
      have ordered : (⟨0, Nat.zero_lt_of_lt two⟩ : Fin _) < ⟨1, two⟩ := Nat.one_pos
      have undisturbed : Undisturbed (slideJob.events Observer.silent ()) 0 1 :=
        ⟨fun k _ _ => untightened k, fun k _ _ => unstalled k⟩
      exact ⟨laps, point, reached, _, _, ordered, undisturbed, descends _ _ ordered undisturbed⟩

end ProximalNewton
