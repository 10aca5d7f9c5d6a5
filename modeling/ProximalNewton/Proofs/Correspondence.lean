import ProximalNewton.Proofs.Course

/-!
# Runs in other terms

Two jobs may make the same run in different terms: in another unit of the objective,
say, or with parts of their state left out. This module says what that means and what
follows from it for whole solves.

* `Traced.convert` puts a computation into other terms. A composition corresponds to
  another one when its parts do (`Traced.bind_convert` and the lemmas beside it), so that
  a correspondence is followed through the text of a computation.
* `Terms` says how the states, the events, the failures and the solution of a job are put
  into the terms of another job. If iterations correspond, then so do runs
  (`Job.run_convert`), solves (`Job.solve_convert`) and their events
  (`Job.events_convert`). An observer of the one solve is an observer of the other through
  the converted events (`Observer.hearing`).
-/

namespace ProximalNewton

/-! ## Conversions of a computation -/

section Results

variable {ε ε' κ α α' β β' : Type} {convert : α → α'} {convert' : β → β'}

/-- Two compositions correspond when their parts do. -/
theorem bind_map {first : Except ε α} {first' : Except ε α'} (same : first' = first.map convert)
    {next : α → Except ε β} {next' : α' → Except ε β'}
    (rest : ∀ value, next' (convert value) = (next value).map convert') :
    first' >>= next' = (first >>= next).map convert' := by
  subst same
  cases first with
  | error error => rfl
  | ok value => exact rest value

/-- Two compositions whose first parts fail alike correspond when their parts do, if the
failures of the first parts are the same in both terms. -/
theorem bind_mapError_map {wrap : κ → ε} {failure : ε → ε}
    (passed : ∀ cause, failure (wrap cause) = wrap cause) {first : Except κ α}
    {first' : Except κ α'} (same : first' = first.map convert)
    {next : α → Except ε β} {next' : α' → Except ε β'}
    (rest : ∀ value, next' (convert value) = ((next value).mapError failure).map convert') :
    first'.mapError wrap >>= next' =
      ((first.mapError wrap >>= next).mapError failure).map convert' := by
  subst same
  cases first with
  | error cause => exact congrArg Except.error (passed cause).symm
  | ok value => exact rest value

end Results

namespace Traced

variable {ω ω' ε ε' κ α α' β β' : Type} {event : ω → ω'} {failure : ε → ε'} {value : α → α'}
  {answer : β → β'}

/-- The same computation with its events, its failure and its value converted. -/
def convert (event : ω → ω') (failure : ε → ε') (value : α → α') (first : Traced ω ε α) :
    Traced ω' ε' α' where
  events := first.events.map event
  result := (first.result.mapError failure).map value

/-- Two compositions correspond when their parts do. -/
theorem bind_convert {first : Traced ω ε α} {first' : Traced ω' ε' α'}
    (same : first' = first.convert event failure value) {next : α → Traced ω ε β}
    {next' : α' → Traced ω' ε' β'}
    (rest : ∀ found, next' (value found) = (next found).convert event failure answer) :
    first' >>= next' = (first >>= next).convert event failure answer := by
  subst same
  rcases first with ⟨events, error | found⟩
  · rfl
  · have made : (⟨events, .ok found⟩ : Traced ω ε α).convert event failure value >>= next' =
        ⟨events.map event ++ (next' (value found)).events, (next' (value found)).result⟩ := rfl
    rw [made, rest, bind_of_ok rfl]
    unfold convert
    rw [List.map_append]

theorem emit_bind_convert (event : ω → ω') (reported : ω) {next : Unit → Traced ω ε β}
    {next' : Unit → Traced ω' ε' β'} (rest : next' () = (next ()).convert event failure answer) :
    emit (event reported) >>= next' = (emit reported >>= next).convert event failure answer := by
  have same : emit (event reported) = (emit reported).convert event failure id := rfl
  exact bind_convert same fun _ => rest

theorem ite_convert {p p' : Prop} [Decidable p] [Decidable p'] (same : p' ↔ p)
    {first second : Traced ω ε α} {first' second' : Traced ω' ε' α'}
    (yes : first' = first.convert event failure value)
    (no : second' = second.convert event failure value) :
    (if p' then first' else second') =
      (if p then first else second).convert event failure value := by
  by_cases holds : p
  · rw [if_pos holds, if_pos (same.mpr holds), yes]
  · rw [if_neg holds, if_neg (mt same.mp holds), no]

theorem ofExcept_convert {first : Except ε α} {first' : Except ε α'}
    (same : first' = first.map value) :
    ofExcept first' = (ofExcept first).convert event id value := by
  subst same
  cases first with
  | error error => rfl
  | ok found => rfl

/-- A failure that is the same in both terms is put into another type. -/
theorem mapError_convert {wrap : κ → ε} {failure : ε → ε}
    (passed : ∀ cause, failure (wrap cause) = wrap cause) {first : Traced ω κ α}
    {first' : Traced ω' κ α'} (same : first' = first.convert event id value) :
    first'.mapError wrap = (first.mapError wrap).convert event failure value := by
  subst same
  rcases first with ⟨events, cause | found⟩
  · exact congrArg (Traced.mk _) (congrArg Except.error (passed cause).symm)
  · rfl

end Traced

/-! ## Observers that hear other words -/

namespace Observer

variable {F σ : Type}

/-- Listens to the events of a run in other words. -/
def hearing (observer : Observer F σ) (translate : Event F → Event F) : Observer F σ :=
  { observer with observe := fun state event => observer.observe state (translate event) }

theorem observeAll_hearing (observer : Observer F σ) (translate : Event F → Event F) (state : σ)
    (events : List (Event F)) :
    (observer.hearing translate).observeAll state events =
      observer.observeAll state (events.map translate) := by
  unfold observeAll
  rw [List.foldl_map]
  rfl

/-- What is noted of the events in other words are the noted events in other words. -/
theorem noting_hearing_refines (observer : Observer F σ) (translate : Event F → Event F) :
    (observer.hearing translate).noting.Refines (observer.noting.hearing translate)
      (Prod.map id (List.map translate)) where
  observe _ _ := congrArg (Prod.mk _) List.map_append
  wantsStop _ _ := rfl

end Observer

/-! ## Runs -/

/-- How the run of one job is put into the terms of another one. The failures of a run
itself keep their kind. -/
structure Terms (F ε : Type) (n m depth n' m' depth' : Nat) where
  event : Event F → Event F
  failure : SolveError F ε → SolveError F ε
  residual : F → F
  state : State F n m depth → State F n' m' depth'
  solution : Solution F n m → Solution F n' m'
  failure_interrupted : ∀ k, failure (.interrupted k) = .interrupted k
  failure_iterationLimit : ∀ k measured,
    failure (.iterationLimit k measured) = .iterationLimit k (residual measured)

namespace Terms

variable {F ε : Type} {n m depth n' m' depth' : Nat}

/-- The end of an iteration in the other terms. -/
def progress (terms : Terms F ε n m depth n' m' depth') :
    Progress F n m depth → Progress F n' m' depth'
  | .converged solution => .converged (terms.solution solution)
  | .advanced residual next => .advanced (terms.residual residual) (terms.state next)

/-- The answer to a solve in the other terms. -/
def answer (terms : Terms F ε n m depth n' m' depth')
    (answered : Except (SolveError F ε) (Solution F n m)) :
    Except (SolveError F ε) (Solution F n' m') :=
  (answered.mapError terms.failure).map terms.solution

end Terms

namespace Job

variable {F ε σ : Type} [Scalar F] {n m n' m' : Nat} {job : Job F ε n m} {job' : Job F ε n' m'}
  (terms : Terms F ε n m job.depth n' m' job'.depth)

/-- If iterations correspond, then a run under an observer is, in the other terms, the
run under the observer that hears its events in the other terms. -/
theorem run_convert
    (iterated : ∀ iteration state, job'.iterate iteration (terms.state state) =
      (job.iterate iteration state).convert terms.event terms.failure terms.progress)
    (observer : Observer F σ) (left iteration : Nat) (state : State F n m job.depth)
    (listener : σ) :
    job'.run observer left iteration (terms.state state) listener =
      (job.run (observer.hearing terms.event) left iteration state listener).map id
        terms.answer := by
  have told : ∀ after,
      observer.observeAll after (job'.iterate iteration (terms.state state)).events =
        (observer.hearing terms.event).observeAll after (job.iterate iteration state).events := by
    intro after
    rw [iterated, Observer.observeAll_hearing]
    rfl
  have answered := congrArg Traced.result (iterated iteration state)
  -- the question is the same for both observers, the answer to it decides both runs
  rcases asked : observer.wantsStop listener iteration with ⟨_ | _, after⟩
  · have asked' : (observer.hearing terms.event).wantsStop listener iteration =
        (false, after) := asked
    cases result : (job.iterate iteration state).result with
    | error error =>
      simp only [Traced.convert, result] at answered
      rw [run_of_error asked answered, run_of_error asked' result, told]
      rfl
    | ok progress =>
      simp only [Traced.convert, result] at answered
      cases progress with
      | converged solution =>
        rw [run_of_converged asked answered, run_of_converged asked' result, told]
        rfl
      | advanced residual next =>
        cases left with
        | zero =>
          rw [run_of_limit asked answered, run_of_limit asked' result, told]
          exact congrArg (Prod.mk _)
            (congrArg Except.error (terms.failure_iterationLimit _ _).symm)
        | succ left =>
          -- both runs go on, from states that correspond again
          rw [run_of_advanced asked answered, run_of_advanced asked' result, told]
          exact run_convert iterated observer left (iteration + 1) next _
  · have asked' : (observer.hearing terms.event).wantsStop listener iteration =
        (true, after) := asked
    rw [run_of_stop asked', run_of_stop asked]
    exact congrArg (Prod.mk _) (congrArg Except.error (terms.failure_interrupted _).symm)

/-- If solves start from corresponding states and iterations correspond, then solves
correspond. -/
theorem solve_convert (limit : job'.params.maxIter = job.params.maxIter)
    (begun : job'.start = (job.start.mapError terms.failure).map terms.state)
    (iterated : ∀ iteration state, job'.iterate iteration (terms.state state) =
      (job.iterate iteration state).convert terms.event terms.failure terms.progress)
    (observer : Observer F σ) (listener : σ) :
    job'.solve observer listener =
      (job.solve (observer.hearing terms.event) listener).map id terms.answer := by
  cases started : job.start with
  | error error =>
    rw [started] at begun
    rw [solve_of_error _ started, solve_of_error _ begun]
    rfl
  | ok state =>
    rw [started] at begun
    rw [solve_of_started _ started, solve_of_started _ begun, limit]
    exact run_convert terms iterated observer _ 0 state listener

/-- The events of corresponding solves correspond. -/
theorem events_convert
    (solved : ∀ (observer : Observer F (σ × List (Event F))) (listener : σ × List (Event F)),
      job'.solve observer listener =
        (job.solve (observer.hearing terms.event) listener).map id terms.answer)
    (observer : Observer F σ) (listener : σ) :
    job'.events observer listener =
      (job.events (observer.hearing terms.event) listener).map terms.event := by
  have noted := job.solve_view (observer.noting_hearing_refines terms.event) (listener, [])
  unfold events
  rw [solved]
  exact congrArg (·.1.2) noted

end Job

end ProximalNewton
