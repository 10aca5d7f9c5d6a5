import ProximalNewton.Run

/-!
# The course of a run

`Job.run` answers with the end of a whole run, so no statement about it can name
a state in the middle. Here a run is cut at its points of control. A `Point` is
the state there with what is still to be done, and `Job.Reaches` says that a job
gets to a point after the iterations `laps`, latest first, having reported
`events`. Every rule is one branch of `Job.start`, `Job.iterate`, `Job.adapt` or
`Search.backtrack`.

* `Job.solve_ends`: under every observer, a solve stops at a point that it
  reaches with exactly the events it has reported, and its answer is the one
  that `Job.Ends` gives for that point.
* `Job.Reaches.state_invariant`: what holds of the first state and survives a
  tightening, an evaluation and the step to the next iteration, holds wherever a
  run gets.
-/

namespace ProximalNewton

/-! ## Judging traced computations -/

namespace Traced

variable {ω ε ε' α β : Type}

/-- A traced computation returns only with events and a value that satisfy
`returns`, and fails only with events and an error that satisfy `fails`. -/
def Ensures (traced : Traced ω ε α) (returns : List ω → α → Prop)
    (fails : List ω → ε → Prop) : Prop :=
  match traced.result with
  | .ok value => returns traced.events value
  | .error error => fails traced.events error

variable {returns : List ω → α → Prop} {fails : List ω → ε → Prop}

theorem Ensures.of_ok {traced : Traced ω ε α} (holds : traced.Ensures returns fails) {value : α}
    (ok : traced.result = .ok value) : returns traced.events value := by
  unfold Ensures at holds
  rw [ok] at holds
  exact holds

theorem Ensures.of_error {traced : Traced ω ε α} (holds : traced.Ensures returns fails) {error : ε}
    (failed : traced.result = .error error) : fails traced.events error := by
  unfold Ensures at holds
  rw [failed] at holds
  exact holds

theorem ensures_pure {value : α} (holds : returns [] value) :
    (pure value : Traced ω ε α).Ensures returns fails :=
  holds

theorem ensures_fail {error : ε} (holds : fails [] error) :
    (fail error : Traced ω ε α).Ensures returns fails :=
  holds

theorem ensures_emit_bind {event : ω} {next : Unit → Traced ω ε α}
    (rest : (next ()).Ensures (fun after => returns (event :: after))
      (fun after => fails (event :: after))) :
    (emit event >>= next).Ensures returns fails := by
  rw [emit_bind]
  exact rest

theorem ensures_ofExcept_bind {result : Except ε β} {next : β → Traced ω ε α}
    (failed : ∀ error, result = .error error → fails [] error)
    (rest : ∀ value, result = .ok value → (next value).Ensures returns fails) :
    (ofExcept result >>= next).Ensures returns fails := by
  cases result with
  | error error => exact failed error rfl
  | ok value => exact rest value rfl

theorem ensures_ofExcept_mapError_bind {wrap : ε' → ε} {result : Except ε' β}
    {next : β → Traced ω ε α}
    (failed : ∀ error, result = .error error → fails [] (wrap error))
    (rest : ∀ value, result = .ok value → (next value).Ensures returns fails) :
    (ofExcept (result.mapError wrap) >>= next).Ensures returns fails := by
  cases result with
  | error error => exact failed error rfl
  | ok value => exact rest value rfl

theorem ensures_bind {first : Traced ω ε β} {next : β → Traced ω ε α}
    (holds : first.Ensures
      (fun before value => (next value).Ensures (fun after => returns (before ++ after))
        (fun after => fails (before ++ after)))
      fails) :
    (first >>= next).Ensures returns fails := by
  cases result : first.result with
  | ok value =>
    rw [bind_of_ok result]
    exact holds.of_ok result
  | error error =>
    rw [bind_of_error result]
    exact holds.of_error result

theorem ensures_mapError {wrap : ε' → ε} {traced : Traced ω ε' α}
    (holds : traced.Ensures returns fun events error => fails events (wrap error)) :
    (traced.mapError wrap).Ensures returns fails := by
  rcases traced with ⟨events, _ | value⟩
  · exact holds
  · exact holds

theorem Ensures.mono {traced : Traced ω ε α} {returns' : List ω → α → Prop}
    {fails' : List ω → ε → Prop} (holds : traced.Ensures returns fails)
    (ok : ∀ events value, returns events value → returns' events value)
    (failed : ∀ events error, fails events error → fails' events error) :
    traced.Ensures returns' fails' := by
  unfold Ensures
  split
  · exact ok _ _ (holds.of_ok ‹_›)
  · exact failed _ _ (holds.of_error ‹_›)

end Traced

/-! ## Lists that grow at their end -/

/-- A list that is extended by one element is divided at this element or before it. -/
theorem eq_append_cons_of_append_singleton {α : Type} {list before after : List α} {last a : α}
    (divided : list ++ [last] = before ++ a :: after) :
    (list = before ∧ last = a) ∨ ∃ rest, list = before ++ a :: rest := by
  rcases List.eq_nil_or_concat after with rfl | ⟨rest, final, rfl⟩
  · obtain ⟨same, same_last⟩ := List.append_inj' divided rfl
    exact Or.inl ⟨same, List.singleton_inj.mp same_last⟩
  · rw [List.concat_eq_append, ← List.cons_append, ← List.append_assoc] at divided
    exact Or.inr ⟨rest, (List.append_inj' divided rfl).1⟩

/-- An entry of a list that is extended by one element is an earlier entry or this one. -/
theorem getElem?_concat_eq_some_iff {α : Type} {list : List α} {last entry : α} {k : Nat} :
    (list ++ [last])[k]? = some entry ↔
      list[k]? = some entry ∨ k = list.length ∧ entry = last := by
  grind

/-! ## Points of control -/

/-- An iteration under way: how often it has tightened the step size, the
residual that it reported, and its present state. -/
structure Attempt (F : Type) (n m depth : Nat) where
  updates : Nat
  residual : F
  state : State F n m depth

/-- A completed iteration. Its `state` is the one that its search began in. -/
structure Lap (F : Type) (n m depth : Nat) extends Attempt F n m depth where
  result : SearchResult F n m

/-- A point of control of a run. -/
inductive Point (F : Type) (n m depth : Nat) where
  /-- Before an iteration. -/
  | ready (state : State F n m depth)
  /-- The merit at `x̂` is known and the residual is reported. -/
  | measured (state : State F n m depth) (atHat : Evaluation F n m)
  /-- The descent condition is to be tested; `left` tightenings are permitted. -/
  | adapting (attempt : Attempt F n m depth) (left : Nat) (psiHat : F)
  /-- The step size has been tightened, and the tightening is reported. -/
  | tightened (attempt : Attempt F n m depth) (left : Nat)
  /-- The search is to begin. -/
  | searching (attempt : Attempt F n m depth)
  /-- The step `tau` is to be tried; `left` more halvings are counted. -/
  | trying (attempt : Attempt F n m depth) (left : Nat) (tau : F) (ledger : Ledger F m)
  /-- The search has ended. -/
  | searched (attempt : Attempt F n m depth) (result : SearchResult F n m)
  /-- The residual met the tolerance. -/
  | converged (state : State F n m depth) (solution : Solution F n m)

namespace Point

variable {F : Type} {n m depth : Nat}

/-- The state at a point. -/
def state : Point F n m depth → State F n m depth
  | ready state => state
  | measured state _ => state
  | adapting attempt .. => attempt.state
  | tightened attempt _ => attempt.state
  | searching attempt => attempt.state
  | trying attempt .. => attempt.state
  | searched attempt _ => attempt.state
  | converged state _ => state

end Point

variable {F ε : Type} [Scalar F] {n m : Nat}

/-- The residual that an iteration measures in a state, given the merit at `x̂`. -/
def State.residual {depth : Nat} (state : State F n m depth) (atHat : Evaluation F n m) : F :=
  ProximalNewton.residual state.step.gamma state.current.r atHat.gradPsi state.current.gradPsi

namespace Job

/-- An attempt whose step size has been tightened once more. -/
def tightenAttempt (job : Job F ε n m) (attempt : Attempt F n m job.depth) :
    Attempt F n m job.depth :=
  { attempt with updates := attempt.updates + 1, state := job.tighten attempt.state }

/-- The job gets to a point after the iterations `laps`, latest first, having
reported the events. -/
inductive Reaches (job : Job F ε n m) :
    List (Lap F n m job.depth) → List (Event F) → Point F n m job.depth → Prop
  | start {state : State F n m job.depth} :
    job.start = .ok state → Reaches job [] [] (.ready state)
  | measure {laps events state atHat ledger} :
    Reaches job laps events (.ready state) →
    job.merit.evaluate state.current.xHat state.ledger = .ok (atHat, ledger) →
    Reaches job laps
      (events ++ [.iteration (job.report laps.length { state with ledger }
        (State.residual { state with ledger } atHat))])
      (.measured { state with ledger } atHat)
  | converge {laps events state atHat} :
    Reaches job laps events (.measured state atHat) →
    state.residual atHat ≤ job.eps →
    Reaches job laps
      (events ++ [.finished
        (job.solution laps.length state (state.residual atHat) atHat.z).summary])
      (.converged state (job.solution laps.length state (state.residual atHat) atHat.z))
  | enter {laps events state atHat} :
    Reaches job laps events (.measured state atHat) →
    ¬ state.residual atHat ≤ job.eps →
    Reaches job laps events
      (.adapting ⟨0, state.residual atHat, state⟩ job.params.estimate.maxUpdates atHat.psi)
  | tighten {laps events attempt left psiHat} :
    Reaches job laps events (.adapting attempt (left + 1) psiHat) →
    attempt.state.current.descentLimit attempt.state.step < psiHat →
    Reaches job laps
      (events ++ [.tightened
        { iteration := laps.length, update := attempt.updates + 1
          step := (job.tighten attempt.state).step }])
      (.tightened (job.tightenAttempt attempt) left)
  | revalue {laps events left value ledger} {attempt : Attempt F n m job.depth} :
    Reaches job laps events (.tightened attempt left) →
    job.merit.value attempt.state.current.xHat attempt.state.ledger = .ok (value, ledger) →
    Reaches job laps events
      (.adapting { attempt with state := { attempt.state with ledger } } left value.psi)
  | search {laps events attempt left psiHat} :
    Reaches job laps events (.adapting attempt left psiHat) →
    ¬ attempt.state.current.descentLimit attempt.state.step < psiHat →
    Reaches job laps events (.searching attempt)
  | begin {laps events attempt} :
    Reaches job laps events (.searching attempt) →
    Reaches job laps events
      (.trying attempt (Scalar.halvings job.params.search.tauMin) 1 attempt.state.ledger)
  | reject {laps events attempt left tau ledger trial ledger'} :
    Reaches job laps events (.trying attempt (left + 1) tau ledger) →
    (job.search laps.length attempt.state).trial tau ledger = .ok (trial, ledger') →
    ¬ trial.envelope attempt.state.step ≤ (job.search laps.length attempt.state).threshold →
    ¬ tau * 0.5 < job.params.search.tauMin →
    Reaches job laps
      (events ++ [.rejected ((job.search laps.length attempt.state).report tau trial)])
      (.trying attempt left (tau * 0.5) ledger')
  | accept {laps events attempt left tau ledger trial ledger'} :
    Reaches job laps events (.trying attempt left tau ledger) →
    (job.search laps.length attempt.state).trial tau ledger = .ok (trial, ledger') →
    trial.envelope attempt.state.step ≤ (job.search laps.length attempt.state).threshold →
    Reaches job laps
      (events ++ [.accepted ((job.search laps.length attempt.state).report tau trial)])
      (.searched attempt { tau, accepted := true, trial, ledger := ledger' })
  | stall {laps events attempt left tau ledger trial ledger'} :
    Reaches job laps events (.trying attempt left tau ledger) →
    (job.search laps.length attempt.state).trial tau ledger = .ok (trial, ledger') →
    ¬ trial.envelope attempt.state.step ≤ (job.search laps.length attempt.state).threshold →
    left = 0 ∨ tau * 0.5 < job.params.search.tauMin →
    Reaches job laps
      (events ++ [.stalled ((job.search laps.length attempt.state).report tau trial)])
      (.searched attempt { tau, accepted := false, trial, ledger := ledger' })
  | advance {laps events attempt result} :
    Reaches job laps events (.searched attempt result) →
    Reaches job ({ attempt with result } :: laps) events
      (.ready (job.advance attempt.state result))

/-- How a run that stops at a point is answered. -/
inductive Ends (job : Job F ε n m) : List (Lap F n m job.depth) → Point F n m job.depth →
    Except (SolveError F ε) (Solution F n m) → Prop
  | converged {laps state solution} : Ends job laps (.converged state solution) (.ok solution)
  | interrupted {laps state} : Ends job laps (.ready state) (.error (.interrupted laps.length))
  | iterationLimit {lap : Lap F n m job.depth} {laps state} :
    laps.length + 1 = job.params.maxIter →
    Ends job (lap :: laps) (.ready state) (.error (.iterationLimit (laps.length + 1) lap.residual))
  | stepSize {laps psiHat} {attempt : Attempt F n m job.depth} :
    attempt.state.current.descentLimit attempt.state.step < psiHat →
    Ends job laps (.adapting attempt 0 psiHat)
      (.error (.stepSize laps.length attempt.updates attempt.state.step.lipschitz))
  | measuring {laps error} {state : State F n m job.depth} :
    job.merit.evaluate state.current.xHat state.ledger = .error error →
    Ends job laps (.ready state) (.error (.oracle error))
  | revaluing {laps left error} {attempt : Attempt F n m job.depth} :
    job.merit.value attempt.state.current.xHat attempt.state.ledger = .error error →
    Ends job laps (.tightened attempt left) (.error (.oracle error))
  | trying {laps attempt left tau ledger error} :
    (job.search laps.length attempt.state).trial tau ledger = .error error →
    Ends job laps (.trying attempt left tau ledger) (.error (.oracle error))

/-- What is reported on getting to a point. -/
inductive Announces (job : Job F ε n m) (laps : List (Lap F n m job.depth)) :
    Point F n m job.depth → Event F → Prop
  | iteration {state atHat} : Announces job laps (.measured state atHat)
      (.iteration (job.report laps.length state (state.residual atHat)))
  | tightened {attempt left} : Announces job laps (.tightened attempt left)
      (.tightened
        { iteration := laps.length, update := attempt.updates, step := attempt.state.step })
  | rejected {attempt left tau ledger trial ledger'} :
    (job.search laps.length attempt.state).trial tau ledger = .ok (trial, ledger') →
    Announces job laps (.trying attempt left (tau * 0.5) ledger')
      (.rejected ((job.search laps.length attempt.state).report tau trial))
  | accepted {result} {attempt : Attempt F n m job.depth} : result.accepted = true →
    Announces job laps (.searched attempt result)
      (.accepted ((job.search laps.length attempt.state).report result.tau result.trial))
  | stalled {result} {attempt : Attempt F n m job.depth} : result.accepted = false →
    Announces job laps (.searched attempt result)
      (.stalled ((job.search laps.length attempt.state).report result.tau result.trial))
  | finished {state solution} :
    Announces job laps (.converged state solution) (.finished solution.summary)

/-! ## Facts about every point -/

section Facts

variable {job : Job F ε n m} {laps : List (Lap F n m job.depth)} {events : List (Event F)}
  {point : Point F n m job.depth}

/-- The event is reported on getting to some point. -/
def Announced (job : Job F ε n m) (event : Event F) : Prop :=
  ∃ laps events point, job.Reaches laps events point ∧ job.Announces laps point event

/-- The event is reported, after the events `before`, on getting to some point. -/
def AnnouncedAfter (job : Job F ε n m) (before : List (Event F)) (event : Event F) : Prop :=
  ∃ laps point, job.Reaches laps (before ++ [event]) point ∧ job.Announces laps point event

/-- An event reported up to a point was reported before or on getting there. -/
theorem Reaches.announced_append {event latest : Event F} {before after : List (Event F)}
    (reached : job.Reaches laps (events ++ [latest]) point)
    (announces : job.Announces laps point latest)
    (earlier : ∀ {after}, events = before ++ event :: after → job.AnnouncedAfter before event)
    (divided : events ++ [latest] = before ++ event :: after) :
    job.AnnouncedAfter before event := by
  rcases eq_append_cons_of_append_singleton divided with ⟨rfl, rfl⟩ | ⟨rest, same⟩
  · exact ⟨_, _, reached, announces⟩
  · exact earlier same

/-- Every event was reported on getting to a point, after the events before it. -/
theorem Reaches.announcedAfter (reached : job.Reaches laps events point) {event : Event F}
    {before after : List (Event F)} (divided : events = before ++ event :: after) :
    job.AnnouncedAfter before event := by
  induction reached generalizing after with
  | start _ => simp at divided
  | measure reached evaluated ih =>
    exact announced_append (.measure reached evaluated) .iteration ih divided
  | converge reached small ih =>
    exact announced_append (.converge reached small) .finished ih divided
  | enter _ _ ih => exact ih divided
  | tighten reached exceeds ih =>
    exact announced_append (.tighten reached exceeds) .tightened ih divided
  | revalue _ _ ih => exact ih divided
  | search _ _ ih => exact ih divided
  | begin _ ih => exact ih divided
  | reject reached tried above room ih =>
    exact announced_append (.reject reached tried above room) (.rejected tried) ih divided
  | accept reached tried below ih =>
    exact announced_append (.accept reached tried below) (.accepted rfl) ih divided
  | stall reached tried above last ih =>
    exact announced_append (.stall reached tried above last) (.stalled rfl) ih divided
  | advance _ ih => exact ih divided

/-- Every event was reported on getting to some point. -/
theorem Reaches.announced (reached : job.Reaches laps events point) {event : Event F}
    (member : event ∈ events) : job.Announced event := by
  obtain ⟨before, after, divided⟩ := List.append_of_mem member
  obtain ⟨laps', point', reached', announces⟩ := reached.announcedAfter divided
  exact ⟨laps', _, point', reached', announces⟩

/-- What holds of the initial state before any event, and survives evaluations,
reports, tightenings and the step to the next iteration, holds at every point of
the events reported up to it and of the state there. -/
theorem Reaches.history_invariant (Holds : List (Event F) → State F n m job.depth → Prop)
    (start : ∀ state, job.start = .ok state → Holds [] state)
    (evaluated : ∀ events state ledger, Holds events state → Holds events { state with ledger })
    (reported : ∀ events state event, (∀ report, event ≠ .tightened report) →
      Holds events state → Holds (events ++ [event]) state)
    (tightened : ∀ {laps events attempt left psiHat},
      job.Reaches laps events (.adapting attempt (left + 1) psiHat) →
      attempt.state.current.descentLimit attempt.state.step < psiHat →
      Holds events attempt.state →
      Holds (events ++ [.tightened
        { iteration := laps.length, update := attempt.updates + 1
          step := (job.tighten attempt.state).step }]) (job.tighten attempt.state))
    (advanced : ∀ events state result, Holds events state →
      Holds events (job.advance state result))
    (reached : job.Reaches laps events point) : Holds events point.state := by
  induction reached with
  | start started => exact start _ started
  | measure _ _ ih => exact reported _ _ _ nofun (evaluated _ _ _ ih)
  | converge _ _ ih => exact reported _ _ _ nofun ih
  | enter _ _ ih => exact ih
  | tighten reached exceeds ih => exact tightened reached exceeds ih
  | revalue _ _ ih => exact evaluated _ _ _ ih
  | search _ _ ih => exact ih
  | begin _ ih => exact ih
  | reject _ _ _ _ ih => exact reported _ _ _ nofun ih
  | accept _ _ _ ih => exact reported _ _ _ nofun ih
  | stall _ _ _ _ ih => exact reported _ _ _ nofun ih
  | advance _ ih => exact advanced _ _ _ ih

/-- What holds of the initial state and survives evaluations, tightenings and
the step to the next iteration, holds at every point. -/
theorem Reaches.state_invariant (Holds : State F n m job.depth → Prop)
    (start : ∀ state, job.start = .ok state → Holds state)
    (evaluated : ∀ state ledger, Holds state → Holds { state with ledger })
    (tightened : ∀ state, Holds state → Holds (job.tighten state))
    (advanced : ∀ state result, Holds state → Holds (job.advance state result))
    (reached : job.Reaches laps events point) : Holds point.state :=
  reached.history_invariant (fun _ state => Holds state) start (fun _ => evaluated)
    (fun _ _ _ _ holds => holds) (fun _ _ holds => tightened _ holds) (fun _ => advanced)

end Facts

/-! ## Runs stop at reached points -/

section Stops

variable {job : Job F ε n m} {laps : List (Lap F n m job.depth)} {events : List (Event F)}

/-- A failure of the problem's functions at a point that is reached. -/
def FailsAt (job : Job F ε n m) (laps : List (Lap F n m job.depth)) (events : List (Event F))
    (error : SolveError F ε) : Prop :=
  ∃ point, job.Reaches laps events point ∧ job.Ends laps point (.error error)

/-- A search tries its steps point by point. -/
theorem Reaches.backtrack {attempt : Attempt F n m job.depth} {left : Nat} {tau : F}
    {ledger : Ledger F m} (reached : job.Reaches laps events (.trying attempt left tau ledger)) :
    ((job.search laps.length attempt.state).backtrack left tau ledger).Ensures
      (fun reported result => job.Reaches laps (events ++ reported) (.searched attempt result))
      (fun reported error => job.FailsAt laps (events ++ reported) (.oracle error)) := by
  induction left generalizing tau ledger events with
  | zero =>
    unfold Search.backtrack
    refine Traced.ensures_ofExcept_bind ?_ ?_
    · intro error failed
      exact ⟨_, by simpa using reached, .trying failed⟩
    · intro answer tried
      rcases answer with ⟨trial, ledger'⟩
      dsimp only
      split
      · refine Traced.ensures_emit_bind (Traced.ensures_pure ?_)
        exact .accept reached tried ‹_›
      · refine Traced.ensures_emit_bind (Traced.ensures_pure ?_)
        exact .stall reached tried ‹_› (Or.inl rfl)
  | succ left ih =>
    unfold Search.backtrack
    refine Traced.ensures_ofExcept_bind ?_ ?_
    · intro error failed
      exact ⟨_, by simpa using reached, .trying failed⟩
    · intro answer tried
      rcases answer with ⟨trial, ledger'⟩
      dsimp only
      split
      · refine Traced.ensures_emit_bind (Traced.ensures_pure ?_)
        exact .accept reached tried ‹_›
      · split
        · refine Traced.ensures_emit_bind (Traced.ensures_pure ?_)
          exact .stall reached tried ‹_› (Or.inr ‹_›)
        · refine Traced.ensures_emit_bind ?_
          have next := ih (.reject reached tried ‹_› ‹_›)
          simpa only [List.append_assoc, List.singleton_append] using next

/-- An iteration tightens the step size point by point. -/
theorem Reaches.adapt {attempt : Attempt F n m job.depth} {left : Nat} {psiHat : F}
    (reached : job.Reaches laps events (.adapting attempt left psiHat)) :
    (job.adapt laps.length attempt.updates left attempt.state psiHat).Ensures
      (fun reported state => ∃ updates,
        job.Reaches laps (events ++ reported) (.searching ⟨updates, attempt.residual, state⟩))
      (fun reported error => job.FailsAt laps (events ++ reported) error) := by
  induction left generalizing attempt psiHat events with
  | zero =>
    unfold Job.adapt
    split
    · refine Traced.ensures_fail ⟨_, ?_, .stepSize ‹_›⟩
      simpa using reached
    · refine Traced.ensures_pure ⟨attempt.updates, ?_⟩
      simpa using Reaches.search reached ‹_›
  | succ left ih =>
    unfold Job.adapt
    split
    · refine Traced.ensures_emit_bind ?_
      have tightened := Reaches.tighten reached ‹_›
      refine Traced.ensures_ofExcept_mapError_bind ?_ ?_
      · intro error failed
        exact ⟨_, tightened, .revaluing failed⟩
      · intro answer evaluated
        rcases answer with ⟨value, ledger⟩
        have next := ih (.revalue tightened evaluated)
        simp only [List.append_assoc, List.singleton_append] at next
        exact next
    · refine Traced.ensures_pure ⟨attempt.updates, ?_⟩
      simpa using Reaches.search reached ‹_›

/-- An iteration either converges, completes a lap or fails, in each case at a
point that is reached. -/
theorem Reaches.iterate {state : State F n m job.depth}
    (reached : job.Reaches laps events (.ready state)) :
    (job.iterate laps.length state).Ensures
      (fun reported progress => match progress with
        | .converged solution =>
          ∃ final, job.Reaches laps (events ++ reported) (.converged final solution)
        | .advanced residual next => ∃ lap : Lap F n m job.depth, lap.residual = residual ∧
          job.Reaches (lap :: laps) (events ++ reported) (.ready next))
      (fun reported error => job.FailsAt laps (events ++ reported) error) := by
  unfold Job.iterate
  refine Traced.ensures_ofExcept_mapError_bind ?_ ?_
  · intro error failed
    exact ⟨_, by simpa using reached, .measuring failed⟩
  · intro answer evaluated
    rcases answer with ⟨atHat, ledger⟩
    have measured := Reaches.measure reached evaluated
    refine Traced.ensures_emit_bind ?_
    dsimp only
    split
    · refine Traced.ensures_emit_bind (Traced.ensures_pure ⟨{ state with ledger }, ?_⟩)
      have converged := Reaches.converge measured ‹_›
      simp only [List.append_assoc, List.singleton_append] at converged
      exact converged
    · refine Traced.ensures_bind ?_
      refine (Reaches.adapt (.enter measured ‹_›)).mono ?_ ?_
      · intro adapted final searched
        rcases searched with ⟨updates, searching⟩
        refine Traced.ensures_bind (Traced.ensures_mapError ?_)
        refine (Reaches.backtrack (.begin searching)).mono ?_ ?_
        · intro tried result searched
          have next := Reaches.advance searched
          simp only [List.append_assoc, List.singleton_append] at next
          refine Traced.ensures_pure ⟨_, ?_, by rw [List.append_nil]; exact next⟩
          rfl
        · intro tried error failed
          simp only [List.append_assoc, List.singleton_append] at failed
          exact failed
      · intro adapted error failed
        simp only [List.append_assoc, List.singleton_append] at failed
        exact failed

end Stops

end Job

/-! ## What an observer is told -/

namespace Observer

variable {σ τ : Type}

/-- An observer that sees what another one sees and may keep more of it: the state
of the other one is read off its own through `view`. -/
structure Refines (fine : Observer F τ) (coarse : Observer F σ) (view : τ → σ) : Prop where
  observe : ∀ state event, view (fine.observe state event) = coarse.observe (view state) event
  wantsStop : ∀ state iteration,
    coarse.wantsStop (view state) iteration =
      ((fine.wantsStop state iteration).1, view (fine.wantsStop state iteration).2)

omit [Scalar F] in
theorem Refines.observeAll {fine : Observer F τ} {coarse : Observer F σ} {view : τ → σ}
    (refines : fine.Refines coarse view) (state : τ) (events : List (Event F)) :
    view (fine.observeAll state events) = coarse.observeAll (view state) events := by
  induction events generalizing state with
  | nil => rfl
  | cons event events ih =>
    have rest := ih (fine.observe state event)
    rw [refines.observe] at rest
    exact rest

/-- The observer that also keeps the events it is told of, in their order. -/
def noting (observer : Observer F σ) : Observer F (σ × List (Event F)) where
  observe noted event := (observer.observe noted.1 event, noted.2 ++ [event])
  wantsStop noted iteration :=
    let (stop, listener) := observer.wantsStop noted.1 iteration
    (stop, listener, noted.2)

omit [Scalar F] in
theorem noting_refines (observer : Observer F σ) :
    observer.noting.Refines observer Prod.fst :=
  ⟨fun _ _ => rfl, fun _ _ => rfl⟩

omit [Scalar F] in
/-- A question is not noted. -/
theorem noted_of_asked {observer : Observer F σ} {noted after : σ × List (Event F)}
    {iteration : Nat} {stop : Bool}
    (asked : observer.noting.wantsStop noted iteration = (stop, after)) : after.2 = noted.2 :=
  (congrArg (·.2.2) asked).symm

omit [Scalar F] in
theorem noted_observeAll (observer : Observer F σ) (noted : σ × List (Event F))
    (events : List (Event F)) :
    (observer.noting.observeAll noted events).2 = noted.2 ++ events := by
  induction events generalizing noted with
  | nil => exact (List.append_nil _).symm
  | cons event events ih =>
    have rest := ih (observer.noting.observe noted event)
    simp only [noting, List.append_assoc, List.singleton_append] at rest
    exact rest

omit [Scalar F] in
/-- What has been noted when an iteration has been told. -/
theorem noted_iteration {observer : Observer F σ} {noted after : σ × List (Event F)}
    {iteration : Nat} (asked : observer.noting.wantsStop noted iteration = (false, after))
    (events : List (Event F)) :
    (observer.noting.observeAll after events).2 = noted.2 ++ events := by
  rw [observer.noted_observeAll, noted_of_asked asked]

end Observer

namespace Job

variable {σ τ : Type}

/-- A run is the same for an observer that keeps more of it. -/
theorem run_view (job : Job F ε n m) {fine : Observer F τ} {coarse : Observer F σ} {view : τ → σ}
    (refines : fine.Refines coarse view) (left iteration : Nat) (state : State F n m job.depth)
    (listener : τ) :
    job.run coarse left iteration state (view listener) =
      (view (job.run fine left iteration state listener).1,
        (job.run fine left iteration state listener).2) := by
  have answer : ∀ {listener after : τ} {iteration : Nat} {stop : Bool},
      fine.wantsStop listener iteration = (stop, after) →
      coarse.wantsStop (view listener) iteration = (stop, view after) := by
    intro listener after iteration stop asked
    rw [refines.wantsStop, asked]
  fun_induction Job.run job fine left iteration state listener with
  | case1 left iteration state listener after asked => rw [run_of_stop (answer asked)]
  | case2 left iteration state listener after asked block told error failed =>
    rw [run_of_error (answer asked) failed, ← refines.observeAll]
  | case3 left iteration state listener after asked block told solution converged =>
    rw [run_of_converged (answer asked) converged, ← refines.observeAll]
  | case4 iteration state listener after asked block told residual next advanced =>
    rw [run_of_limit (answer asked) advanced, ← refines.observeAll]
  | case5 iteration state listener after asked block told residual next advanced left ih =>
    rw [run_of_advanced (answer asked) advanced, ← refines.observeAll]
    exact ih

/-- A solve is the same for an observer that keeps more of it. -/
theorem solve_view (job : Job F ε n m) {fine : Observer F τ} {coarse : Observer F σ} {view : τ → σ}
    (refines : fine.Refines coarse view) (listener : τ) :
    job.solve coarse (view listener) =
      (view (job.solve fine listener).1, (job.solve fine listener).2) := by
  unfold Job.solve
  cases job.start with
  | error error => rfl
  | ok state => exact job.run_view refines _ 0 state listener

/-- The events that a solve reports to an observer, in their order. -/
def events (job : Job F ε n m) (observer : Observer F σ) (listener : σ) : List (Event F) :=
  (job.solve observer.noting (listener, [])).1.2

/-- A solve answers the same whether or not its events are kept. -/
theorem solve_noting (job : Job F ε n m) (observer : Observer F σ) (listener : σ) :
    (job.solve observer.noting (listener, [])).2 = (job.solve observer listener).2 := by
  have same := job.solve_view observer.noting_refines (listener, [])
  exact (congrArg Prod.snd same).symm

/-- From a point before an iteration, a run stops at a point that it reaches. -/
theorem Reaches.run {job : Job F ε n m} {laps : List (Lap F n m job.depth)}
    {state : State F n m job.depth} {noted : σ × List (Event F)} {left iteration : Nat}
    (reached : job.Reaches laps noted.2 (.ready state)) (own : laps.length = iteration)
    (observer : Observer F σ) (permitted : iteration + left + 1 = job.params.maxIter) :
    ∃ laps' point,
      job.Reaches laps' (job.run observer.noting left iteration state noted).1.2 point ∧
      job.Ends laps' point (job.run observer.noting left iteration state noted).2 := by
  fun_induction Job.run job observer.noting left iteration state noted generalizing laps with
  | case1 left iteration state noted after asked =>
    subst own
    rw [← Observer.noted_of_asked asked] at reached
    exact ⟨laps, _, reached, .interrupted⟩
  | case2 left iteration state noted after asked block told error =>
    rename_i failed
    subst own
    obtain ⟨point, stopped, ends⟩ := reached.iterate.of_error failed
    rw [← Observer.noted_iteration asked] at stopped
    exact ⟨laps, point, stopped, ends⟩
  | case3 left iteration state noted after asked block told solution =>
    rename_i result
    subst own
    obtain ⟨final, converged⟩ := reached.iterate.of_ok result
    rw [← Observer.noted_iteration asked] at converged
    exact ⟨laps, _, converged, .converged⟩
  | case4 iteration state noted after asked block told residual next =>
    rename_i result
    subst own
    obtain ⟨lap, rfl, advanced⟩ := reached.iterate.of_ok result
    rw [← Observer.noted_iteration asked] at advanced
    exact ⟨lap :: laps, _, advanced, .iterationLimit permitted⟩
  | case5 iteration state noted after asked block told residual next =>
    rename_i result left ih
    subst own
    obtain ⟨lap, -, advanced⟩ := reached.iterate.of_ok result
    rw [← Observer.noted_iteration asked] at advanced
    exact ih advanced List.length_cons (by omega)

/-- A solve whose start succeeds stops at a point that it reaches with the
events it has reported, and is answered as the end there says. -/
theorem solve_ends (job : Job F ε n m) (observer : Observer F σ) (listener : σ) :
    (∃ error, job.start = .error error ∧ job.events observer listener = [] ∧
      (job.solve observer listener).2 = .error error) ∨
    ∃ laps point, job.Reaches laps (job.events observer listener) point ∧
      job.Ends laps point (job.solve observer listener).2 := by
  rw [← job.solve_noting observer listener]
  unfold events Job.solve
  cases started : job.start with
  | error error => exact Or.inl ⟨error, rfl, rfl, rfl⟩
  | ok state =>
    have positive : 0 < job.params.maxIter := job.params_valid .maxIter
    have permitted : 0 + (job.params.maxIter - 1) + 1 = job.params.maxIter := by omega
    have reached : job.Reaches [] ((listener, []) : σ × List (Event F)).2 (.ready state) :=
      .start started
    exact Or.inr (reached.run rfl observer permitted)

/-- Every event of a solve was reported on getting to a point. -/
theorem events_announced (job : Job F ε n m) (observer : Observer F σ) (listener : σ)
    {event : Event F} (member : event ∈ job.events observer listener) : job.Announced event := by
  rcases job.solve_ends observer listener with ⟨error, -, none, -⟩ | ⟨laps, point, reached, -⟩
  · rw [none] at member
    cases member
  · exact reached.announced member

end Job

end ProximalNewton
