import ProximalNewton.Proofs.Success
import ProximalNewton.Proofs.Transcript

/-!
# Solves as dialogues

All that a solve learns while it runs, it learns by asking: it calls the functions of the
problem, and it asks the observer whether to stop. A `Dialogue` is a computation as the tree
of its questions, with a branch for every answer, so that it does not know a problem or an
observer. `Dialogue.solve` is a solve in this form. It is written in the words of the solve
itself, with a question wherever the solve calls a function.

`Dialogue.conduct` puts the questions to the functions of a problem and to an observer, and
records what is said. A function that fails ends the conversation.

* `Job.solve_eq_conduct`: conducting the dialogue of a solve is the solve, whatever the
  functions of the problem.
* `Request.solve_eq_conversation` and `Request.events_eq_conversation` are the same for
  requests, with the events as they are heard in the conversation.
-/

namespace ProximalNewton

variable {F ε σ τ α β : Type} {n m : Nat}

/-! ## Calls -/

/-- A call of a function of a problem. -/
inductive Call (F : Type) (n m : Nat) where
  | f (x : Vector F n)
  | gradF (x : Vector F n)
  | g (x : Vector F n)
  | gradG (x : Vector F n) (y : Vector F m)

/-- What a function that is called has to give. -/
abbrev Call.Answer : Call F n m → Type
  | .f _ => F
  | .gradF _ => Vector F n
  | .g _ => Vector F m
  | .gradG _ _ => Vector F n

/-- What the function that is called gives. -/
def Oracles.answer (oracles : Oracles F ε n m) : (call : Call F n m) → Except ε call.Answer
  | .f x => oracles.f x
  | .gradF x => oracles.gradF x
  | .g x => oracles.g x
  | .gradG x y => oracles.gradG x y

/-! ## Dialogues -/

/-- A computation as the tree of its questions. It calls functions of a problem, asks an
observer whether to stop and tells it of events, until it is done or fails. -/
inductive Dialogue (F ε : Type) (n m : Nat) (α : Type) where
  | done (value : α)
  | fail (error : SolveError F ε)
  | tell (event : Event F) (rest : Dialogue F ε n m α)
  | consult (iteration : Nat) (next : Bool → Dialogue F ε n m α)
  | call (which : Call F n m) (next : which.Answer → Dialogue F ε n m α)

/-- What is said in a dialogue: to or by the observer, or to a function of the problem. -/
inductive Remark (F : Type) (n m : Nat) where
  | heard (signal : Signal F)
  | called (call : Call F n m)

def Remark.signal? : Remark F n m → Option (Signal F)
  | .heard signal => some signal
  | .called _ => none

def Remark.call? : Remark F n m → Option (Call F n m)
  | .heard _ => none
  | .called call => some call

/-- A dialogue that was conducted: how it leaves the observer, what was said, and how it
ended. -/
structure Conversation (F ε : Type) (n m : Nat) (σ α : Type) where
  listener : σ
  remarks : List (Remark F n m)
  result : Except (SolveError F ε) α

namespace Conversation

/-- What the observer heard. -/
def signals (conversation : Conversation F ε n m σ α) : List (Signal F) :=
  conversation.remarks.filterMap Remark.signal?

/-- The events of which the observer was told. -/
def events (conversation : Conversation F ε n m σ α) : List (Event F) :=
  conversation.signals.filterMap Signal.event?

/-- The calls that were made. -/
def calls (conversation : Conversation F ε n m σ α) : List (Call F n m) :=
  conversation.remarks.filterMap Remark.call?

/-- How the dialogue leaves the observer, and how it ended. -/
def answer (conversation : Conversation F ε n m σ α) : σ × Except (SolveError F ε) α :=
  (conversation.listener, conversation.result)

/-- The conversation with something said before it. -/
def after (conversation : Conversation F ε n m σ α) (before : List (Remark F n m)) :
    Conversation F ε n m σ α :=
  { conversation with remarks := before ++ conversation.remarks }

/-- The conversation and, unless it ended in a failure, the one that follows. -/
def andThen (conversation : Conversation F ε n m σ α)
    (next : α → σ → Conversation F ε n m σ β) : Conversation F ε n m σ β :=
  match conversation.result with
  | .ok value => (next value conversation.listener).after conversation.remarks
  | .error error => ⟨conversation.listener, conversation.remarks, .error error⟩

theorem after_andThen (conversation : Conversation F ε n m σ α) (before : List (Remark F n m))
    (next : α → σ → Conversation F ε n m σ β) :
    (conversation.after before).andThen next = (conversation.andThen next).after before := by
  rcases conversation with ⟨listener, remarks, error | value⟩
  · rfl
  · exact congrArg (Conversation.mk _ · _) (List.append_assoc _ _ _)

end Conversation

namespace Dialogue

/-- Goes on with another dialogue, unless the first one fails. -/
def andThen : Dialogue F ε n m α → (α → Dialogue F ε n m β) → Dialogue F ε n m β
  | .done value, next => next value
  | .fail error, _ => .fail error
  | .tell event rest, next => .tell event (rest.andThen next)
  | .consult iteration asked, next => .consult iteration fun stop => (asked stop).andThen next
  | .call which answered, next => .call which fun answer => (answered answer).andThen next

instance instMonad : Monad (Dialogue F ε n m) where
  pure := .done
  bind := andThen

/-- Puts the questions of a dialogue to the functions of a problem and to an observer. -/
def conduct (oracles : Oracles F ε n m) (observer : Observer F σ) :
    Dialogue F ε n m α → σ → Conversation F ε n m σ α
  | .done value, listener => ⟨listener, [], .ok value⟩
  | .fail error, listener => ⟨listener, [], .error error⟩
  | .tell event rest, listener =>
    (rest.conduct oracles observer (observer.observe listener event)).after
      [.heard (.told event)]
  | .consult iteration next, listener =>
    let (stop, listener) := observer.wantsStop listener iteration
    ((next stop).conduct oracles observer listener).after [.heard (.asked iteration stop)]
  | .call which next, listener =>
    match oracles.answer which with
    | .ok answer => ((next answer).conduct oracles observer listener).after [.called which]
    | .error cause => ⟨listener, [.called which], .error (.oracle cause)⟩

/-! ## The questions of a solve -/

section Questions

variable [Scalar F]

def askF (x : Vector F n) : Dialogue F ε n m F := .call (.f x) .done

def askGradF (x : Vector F n) : Dialogue F ε n m (Vector F n) := .call (.gradF x) .done

def askG (x : Vector F n) : Dialogue F ε n m (Vector F m) := .call (.g x) .done

def askGradG (x : Vector F n) (y : Vector F m) : Dialogue F ε n m (Vector F n) :=
  .call (.gradG x y) .done

/-- Records one event. -/
def emit (event : Event F) : Dialogue F ε n m Unit := .tell event (.done ())

/-- The questions of `Merit.psi`. -/
def psi (merit : Merit F ε n m) (x : Vector F n) (g : Vector F m) : Dialogue F ε n m F := do
  let f ← askF x
  return f + 0.5 * distanceSq g merit.shift (merit.slackOf g) merit.sigma

/-- The questions of `meritGradient`. -/
def meritGradient (x : Vector F n) (yHat : Vector F m) :
    Dialogue F ε n m (MeritGradient F n) := do
  let gradF ← askGradF x
  let adjoint ← askGradG x yHat
  return { adjoint, total := gradF + adjoint }

/-- The questions of `Merit.value`. -/
def value (merit : Merit F ε n m) (x : Vector F n) (ledger : Ledger F m) :
    Dialogue F ε n m (Value F m × Ledger F m) := do
  let g ← askG x
  let psi ← psi merit x g
  return ({ z := merit.slackOf g, psi },
    { ledger with constraint := g, fEvals := ledger.fEvals + 1 })

/-- The questions of `Merit.gradient`. -/
def gradient (merit : Merit F ε n m) (x : Vector F n) (ledger : Ledger F m) :
    Dialogue F ε n m (Gradient F n m × Ledger F m) := do
  let g ← askG x
  let grad ← meritGradient x (merit.multipliersOf g)
  return ({ z := merit.slackOf g, gradPsi := grad.total },
    { ledger with
      constraint := g
      multipliers := merit.multipliersOf g
      gradEvals := ledger.gradEvals + 1 })

/-- The questions of `Merit.evaluate`. -/
def evaluate (merit : Merit F ε n m) (x : Vector F n) (ledger : Ledger F m) :
    Dialogue F ε n m (Evaluation F n m × Ledger F m) := do
  let (gradient, ledger) ← gradient merit x ledger
  let psi ← psi merit x ledger.constraint
  return ({ z := gradient.z, psi, gradPsi := gradient.gradPsi },
    { ledger with fEvals := ledger.fEvals + 1 })

/-- The questions of `Search.trial`. -/
def trial (search : Search F ε n m) (tau : F) (ledger : Ledger F m) :
    Dialogue F ε n m (Iterate F n × Ledger F m) := do
  let x := search.point tau
  let (at_x, ledger) ← evaluate search.merit x ledger
  return (.ofPoint search.C search.step.gamma x at_x.gradPsi at_x.psi, ledger)

/-- The questions of `Search.backtrack`. -/
def backtrack (search : Search F ε n m) (halvings : Nat) (tau : F) (ledger : Ledger F m) :
    Dialogue F ε n m (SearchResult F n m) := do
  let (trial, ledger) ← trial search tau ledger
  let report := search.report tau trial
  if report.phiTrial ≤ report.threshold then
    emit (.accepted report)
    return { tau, accepted := true, trial, ledger }
  else
    match halvings with
    | 0 =>
      emit (.stalled report)
      return { tau, accepted := false, trial, ledger }
    | left + 1 =>
      if tau * 0.5 < search.tauMin then
        emit (.stalled report)
        return { tau, accepted := false, trial, ledger }
      else
        emit (.rejected report)
        backtrack search left (tau * 0.5) ledger

/-- The questions of `Job.initialLipschitz`. -/
def initialLipschitz (job : Job F ε n m) (x gradPsi : Vector F n) (ledger : Ledger F m) :
    Dialogue F ε n m (F × Ledger F m) := do
  let h := perturbation job.params.estimate x
  let (shifted, ledger) ← gradient job.merit (x + h) ledger
  return (differenceQuotient h shifted.gradPsi gradPsi, ledger)

/-- The questions of `Job.start`. -/
def start (job : Job F ε n m) : Dialogue F ε n m (State F n m job.depth) := do
  let (initial, ledger) ← evaluate job.merit job.x Ledger.blank
  let (lipschitz, ledger) ← initialLipschitz job job.x initial.gradPsi ledger
  if Scalar.isFinite lipschitz then
    let step := StepSize.ofLipschitz (maxNum lipschitz job.params.estimate.lMin)
    return {
      current := .ofPoint job.C step.gamma job.x initial.gradPsi initial.psi
      step, ledger
      memory := .empty job.params.memory.curvatureTol job.depth_pos
      tightenings := 0
      stalls := 0
      lastTau := 1 }
  else
    .fail (.stepSize 0 0 lipschitz)

/-- The questions of `Job.adapt`. -/
def adapt (job : Job F ε n m) (iteration updates left : Nat) (state : State F n m job.depth)
    (psiHat : F) : Dialogue F ε n m (State F n m job.depth) :=
  if state.current.descentLimit state.step < psiHat then
    match left with
    | 0 => .fail (.stepSize iteration updates state.step.lipschitz)
    | left + 1 => do
      let state := job.tighten state
      emit (.tightened { iteration, update := updates + 1, step := state.step })
      let (value, ledger) ← value job.merit state.current.xHat state.ledger
      adapt job iteration (updates + 1) left { state with ledger } value.psi
  else
    return state

/-- The questions of `Job.iterate`. -/
def iterate (job : Job F ε n m) (iteration : Nat) (state : State F n m job.depth) :
    Dialogue F ε n m (Progress F n m job.depth) := do
  let (atHat, ledger) ← evaluate job.merit state.current.xHat state.ledger
  let state := { state with ledger }
  let residual :=
    ProximalNewton.residual state.step.gamma state.current.r atHat.gradPsi state.current.gradPsi
  emit (.iteration (job.report iteration state residual))
  if residual ≤ job.eps then
    let solution := job.solution iteration state residual atHat.z
    emit (.finished solution.summary)
    return .converged solution
  else
    let state ← adapt job iteration 0 job.params.estimate.maxUpdates state atHat.psi
    let search := job.search iteration state
    let result ← backtrack search (Scalar.halvings search.tauMin) 1 state.ledger
    return .advanced residual (job.advance state result)

/-- The questions of `Job.run`. -/
def run (job : Job F ε n m) (left iteration : Nat) (state : State F n m job.depth) :
    Dialogue F ε n m (Solution F n m) :=
  .consult iteration fun
    | true => .fail (.interrupted iteration)
    | false => do
      match ← iterate job iteration state with
      | .converged solution => return solution
      | .advanced residual next =>
        match left with
        | 0 => .fail (.iterationLimit (iteration + 1) residual)
        | left + 1 => run job left (iteration + 1) next

/-- The questions of `Job.solve`. -/
def solve (job : Job F ε n m) : Dialogue F ε n m (Solution F n m) := do
  let state ← start job
  run job (job.params.maxIter - 1) 0 state

end Questions

/-! ## Conducting a dialogue -/

section Conducting

variable {oracles : Oracles F ε n m}

theorem conduct_call_of_ok {which : Call F n m} {answer : which.Answer}
    (answered : oracles.answer which = .ok answer) (next : which.Answer → Dialogue F ε n m α)
    (observer : Observer F σ) (listener : σ) :
    (Dialogue.call which next).conduct oracles observer listener =
      ((next answer).conduct oracles observer listener).after [.called which] := by
  rw [conduct, answered]

theorem conduct_call_of_error {which : Call F n m} {cause : ε}
    (failed : oracles.answer which = .error cause) (next : which.Answer → Dialogue F ε n m α)
    (observer : Observer F σ) (listener : σ) :
    (Dialogue.call which next).conduct oracles observer listener =
      ⟨listener, [.called which], .error (.oracle cause)⟩ := by
  rw [conduct, failed]

/-- A dialogue is conducted part by part. -/
theorem conduct_bind (dialogue : Dialogue F ε n m α) (next : α → Dialogue F ε n m β)
    (observer : Observer F σ) (listener : σ) :
    (dialogue >>= next).conduct oracles observer listener =
      (dialogue.conduct oracles observer listener).andThen fun value listener =>
        (next value).conduct oracles observer listener := by
  induction dialogue generalizing listener with
  | done value => rfl
  | fail error => rfl
  | tell event rest ih =>
    rw [conduct, Conversation.after_andThen, ← ih]
    rfl
  | consult iteration asked ih =>
    rw [conduct, Conversation.after_andThen, ← ih]
    rfl
  | call which answered ih =>
    show (call which fun answer => answered answer >>= next).conduct oracles observer listener = _
    cases found : oracles.answer which with
    | error cause =>
      rw [conduct_call_of_error found, conduct_call_of_error found]
      rfl
    | ok answer =>
      rw [conduct_call_of_ok found, conduct_call_of_ok found, Conversation.after_andThen, ih]

/-- An observer that keeps what it hears has it from the conversation. -/
theorem conduct_attending (dialogue : Dialogue F ε n m α) (observer : Observer F σ)
    (listener : σ) (heard : List (Signal F)) :
    (dialogue.conduct oracles observer.attending (listener, heard)).answer =
      let conversation := dialogue.conduct oracles observer listener
      ((conversation.listener, heard ++ conversation.signals), conversation.result) := by
  induction dialogue generalizing listener heard with
  | done value => exact Prod.ext (Prod.ext rfl (List.append_nil _).symm) rfl
  | fail error => exact Prod.ext (Prod.ext rfl (List.append_nil _).symm) rfl
  | tell event rest ih =>
    refine (ih (observer.observe listener event) (heard ++ [.told event])).trans ?_
    exact Prod.ext (Prod.ext rfl (List.append_assoc _ _ _)) rfl
  | consult iteration next ih =>
    refine (ih _ (observer.wantsStop listener iteration).2 (heard ++ [.asked iteration _])).trans ?_
    exact Prod.ext (Prod.ext rfl (List.append_assoc _ _ _)) rfl
  | call which next ih =>
    cases answered : oracles.answer which with
    | error cause =>
      rw [conduct_call_of_error answered, conduct_call_of_error answered]
      exact Prod.ext (Prod.ext rfl (List.append_nil _).symm) rfl
    | ok answer =>
      rw [conduct_call_of_ok answered, conduct_call_of_ok answered]
      exact ih answer listener heard

/-- Conducting the dialogue is the computation, whoever listens. -/
def Plays (oracles : Oracles F ε n m) (dialogue : Dialogue F ε n m α)
    (traced : Traced (Event F) (SolveError F ε) α) : Prop :=
  ∀ (σ : Type) (observer : Observer F σ) (listener : σ),
    (dialogue.conduct oracles observer listener).answer =
      (observer.observeAll listener traced.events, traced.result)

theorem Plays.answer_of_error {dialogue : Dialogue F ε n m α}
    {traced : Traced (Event F) (SolveError F ε) α} (plays : dialogue.Plays oracles traced)
    {error : SolveError F ε} (failed : traced.result = .error error)
    (next : α → Dialogue F ε n m β) (observer : Observer F σ) (listener : σ) :
    ((dialogue >>= next).conduct oracles observer listener).answer =
      (observer.observeAll listener traced.events, .error error) := by
  obtain ⟨heard, ended⟩ := Prod.mk.inj (plays σ observer listener)
  rw [conduct_bind, Conversation.andThen, ended, failed]
  exact Prod.ext heard rfl

theorem Plays.answer_of_ok {dialogue : Dialogue F ε n m α}
    {traced : Traced (Event F) (SolveError F ε) α} (plays : dialogue.Plays oracles traced)
    {value : α} (ok : traced.result = .ok value)
    (next : α → Dialogue F ε n m β) (observer : Observer F σ) (listener : σ) :
    ((dialogue >>= next).conduct oracles observer listener).answer =
      ((next value).conduct oracles observer
        (observer.observeAll listener traced.events)).answer := by
  obtain ⟨heard, ended⟩ := Prod.mk.inj (plays σ observer listener)
  rw [conduct_bind, Conversation.andThen, ended, ok, ← heard]
  rfl

theorem Plays.bind {dialogue : Dialogue F ε n m α}
    {traced : Traced (Event F) (SolveError F ε) α} (plays : dialogue.Plays oracles traced)
    {next : α → Dialogue F ε n m β} {next' : α → Traced (Event F) (SolveError F ε) β}
    (rest : ∀ value, (next value).Plays oracles (next' value)) :
    (dialogue >>= next).Plays oracles (traced >>= next') := by
  intro σ observer listener
  cases ended : traced.result with
  | error error => rw [plays.answer_of_error ended, Traced.bind_of_error ended]
  | ok value =>
    rw [plays.answer_of_ok ended, rest value, Traced.bind_of_ok ended]
    exact Prod.ext List.foldl_append.symm rfl

theorem plays_pure (value : α) : (pure value : Dialogue F ε n m α).Plays oracles (pure value) :=
  fun _ _ _ => rfl

theorem plays_fail (error : SolveError F ε) :
    (.fail error : Dialogue F ε n m α).Plays oracles (Traced.fail error) :=
  fun _ _ _ => rfl

theorem plays_emit (event : Event F) :
    (emit event : Dialogue F ε n m Unit).Plays oracles (Traced.emit event) :=
  fun _ _ _ => rfl

theorem plays_ite {p : Prop} [Decidable p] {first second : Dialogue F ε n m α}
    {first' second' : Traced (Event F) (SolveError F ε) α} (yes : first.Plays oracles first')
    (no : second.Plays oracles second') :
    (if p then first else second).Plays oracles (if p then first' else second') := by
  split
  · exact yes
  · exact no

/-- Two computations in a row that fail as functions of the problem do. -/
theorem Plays.bind_oracle {dialogue : Dialogue F ε n m α} {traced : Traced (Event F) ε α}
    (plays : dialogue.Plays oracles (traced.mapError .oracle)) {next : α → Dialogue F ε n m β}
    {next' : α → Traced (Event F) ε β}
    (rest : ∀ value, (next value).Plays oracles ((next' value).mapError .oracle)) :
    (dialogue >>= next).Plays oracles ((traced >>= next').mapError .oracle) := by
  have both := plays.bind rest
  rcases traced with ⟨events, cause | value⟩
  · exact both
  · exact both

theorem plays_ite_oracle {p : Prop} [Decidable p] {first second : Dialogue F ε n m α}
    {first' second' : Traced (Event F) ε α}
    (yes : first.Plays oracles (first'.mapError .oracle))
    (no : second.Plays oracles (second'.mapError .oracle)) :
    (if p then first else second).Plays oracles
      ((if p then first' else second').mapError .oracle) := by
  split
  · exact yes
  · exact no

/-- Conducting the dialogue gives the answer, or its failure as that of a function of the
problem. -/
def Answers (oracles : Oracles F ε n m) (dialogue : Dialogue F ε n m α)
    (answer : Except ε α) : Prop :=
  dialogue.Plays oracles ((Traced.ofExcept answer).mapError .oracle)

theorem Answers.bind {dialogue : Dialogue F ε n m α} {answer : Except ε α}
    (answers : dialogue.Answers oracles answer) {next : α → Dialogue F ε n m β}
    {next' : α → Except ε β} (rest : ∀ value, (next value).Answers oracles (next' value)) :
    (dialogue >>= next).Answers oracles (answer >>= next') := by
  cases answer with
  | error cause => exact Plays.bind answers rest
  | ok value => exact Plays.bind answers rest

theorem answers_pure (value : α) :
    (pure value : Dialogue F ε n m α).Answers oracles (pure value) :=
  plays_pure value

/-- An answer, and then a result that was found without recording anything. -/
theorem Answers.bind_ofExcept {dialogue : Dialogue F ε n m α} {answer : Except ε α}
    (answers : dialogue.Answers oracles answer) {next : α → Dialogue F ε n m β}
    {next' : α → Except (SolveError F ε) β}
    (rest : ∀ value, (next value).Plays oracles (Traced.ofExcept (next' value))) :
    (dialogue >>= next).Plays oracles
      (Traced.ofExcept (answer.mapError .oracle >>= next')) := by
  cases answer with
  | error cause => exact Plays.bind answers rest
  | ok value => exact Plays.bind answers rest

/-- A question is answered by the function that it is put to. -/
theorem answers_call (which : Call F n m) :
    (call which .done).Answers oracles (oracles.answer which) := by
  intro σ observer listener
  cases answered : oracles.answer which with
  | error cause =>
    rw [conduct_call_of_error answered]
    rfl
  | ok answer =>
    rw [conduct_call_of_ok answered]
    rfl

end Conducting

end Dialogue

/-! ## The dialogue of a solve is the solve -/

/-- The same merit function over other functions of the problem. -/
def Merit.withOracles (merit : Merit F ε n m) (oracles : Oracles F ε n m) : Merit F ε n m :=
  { merit with oracles }

/-- The same search for another problem. -/
def Search.withOracles (search : Search F ε n m) (oracles : Oracles F ε n m) :
    Search F ε n m :=
  { search with merit := search.merit.withOracles oracles }

variable [Scalar F]

/-- The same job for another problem with the same sets. -/
def Job.withOracles (job : Job F ε n m) (oracles : Oracles F ε n m) : Job F ε n m :=
  { job with oracles }

namespace Dialogue

variable (oracles : Oracles F ε n m)

theorem answers_psi (merit : Merit F ε n m) (x : Vector F n) (g : Vector F m) :
    (psi merit x g).Answers oracles ((merit.withOracles oracles).psi x g) :=
  (answers_call (.f x)).bind fun _ => answers_pure _

theorem answers_meritGradient (x : Vector F n) (yHat : Vector F m) :
    (meritGradient x yHat).Answers oracles (ProximalNewton.meritGradient oracles x yHat) :=
  (answers_call (.gradF x)).bind fun _ => (answers_call (.gradG x yHat)).bind fun _ =>
    answers_pure _

theorem answers_value (merit : Merit F ε n m) (x : Vector F n) (ledger : Ledger F m) :
    (value merit x ledger).Answers oracles ((merit.withOracles oracles).value x ledger) :=
  (answers_call (.g x)).bind fun g => (answers_psi oracles merit x g).bind fun _ => answers_pure _

theorem answers_gradient (merit : Merit F ε n m) (x : Vector F n) (ledger : Ledger F m) :
    (gradient merit x ledger).Answers oracles ((merit.withOracles oracles).gradient x ledger) :=
  (answers_call (.g x)).bind fun _ => (answers_meritGradient oracles x _).bind fun _ =>
    answers_pure _

theorem answers_evaluate (merit : Merit F ε n m) (x : Vector F n) (ledger : Ledger F m) :
    (evaluate merit x ledger).Answers oracles ((merit.withOracles oracles).evaluate x ledger) :=
  (answers_gradient oracles merit x ledger).bind fun _ =>
    (answers_psi oracles merit x _).bind fun _ => answers_pure _

theorem answers_trial (search : Search F ε n m) (tau : F) (ledger : Ledger F m) :
    (trial search tau ledger).Answers oracles ((search.withOracles oracles).trial tau ledger) :=
  (answers_evaluate oracles search.merit _ ledger).bind fun _ => answers_pure _

theorem plays_backtrack (search : Search F ε n m) (halvings : Nat) (tau : F)
    (ledger : Ledger F m) :
    (backtrack search halvings tau ledger).Plays oracles
      (((search.withOracles oracles).backtrack halvings tau ledger).mapError .oracle) := by
  induction halvings generalizing tau ledger with
  | zero =>
    rw [backtrack, Search.backtrack]
    refine Plays.bind_oracle (answers_trial oracles search tau ledger) ?_
    rintro ⟨trial, after⟩
    exact plays_ite_oracle ((plays_emit _).bind fun _ => plays_pure _)
      ((plays_emit _).bind fun _ => plays_pure _)
  | succ left ih =>
    rw [backtrack, Search.backtrack]
    refine Plays.bind_oracle (answers_trial oracles search tau ledger) ?_
    rintro ⟨trial, after⟩
    refine plays_ite_oracle ((plays_emit _).bind fun _ => plays_pure _)
      (plays_ite_oracle ?stalled ?halved)
    case stalled => exact (plays_emit _).bind fun _ => plays_pure _
    case halved => exact (plays_emit _).bind fun _ => ih (tau * 0.5) after

theorem answers_initialLipschitz (job : Job F ε n m) (x gradPsi : Vector F n)
    (ledger : Ledger F m) :
    (initialLipschitz job x gradPsi ledger).Answers oracles
      ((job.withOracles oracles).initialLipschitz x gradPsi ledger) :=
  (answers_gradient oracles job.merit _ ledger).bind fun _ => answers_pure _

theorem plays_start (job : Job F ε n m) :
    (start job).Plays oracles (Traced.ofExcept (job.withOracles oracles).start) := by
  unfold start Job.start
  refine (answers_evaluate oracles job.merit job.x Ledger.blank).bind_ofExcept ?_
  rintro ⟨initial, ledger⟩
  refine (answers_initialLipschitz oracles job job.x initial.gradPsi ledger).bind_ofExcept ?_
  rintro ⟨lipschitz, after⟩
  dsimp only
  by_cases finite : Scalar.isFinite lipschitz = true
  · rw [if_pos finite, if_pos finite]
    exact plays_pure _
  · rw [if_neg finite, if_neg finite]
    exact plays_fail _

theorem plays_adapt (job : Job F ε n m) (iteration updates left : Nat)
    (state : State F n m job.depth) (psiHat : F) :
    (adapt job iteration updates left state psiHat).Plays oracles
      ((job.withOracles oracles).adapt iteration updates left state psiHat) := by
  by_cases exceeds : state.current.descentLimit state.step < psiHat
  · cases left with
    | zero =>
      rw [adapt, if_pos exceeds, (job.withOracles oracles).adapt_of_exhausted exceeds]
      exact plays_fail _
    | succ left =>
      rw [adapt, if_pos exceeds, (job.withOracles oracles).adapt_of_exceeds exceeds]
      refine (plays_emit _).bind fun _ => Plays.bind (answers_value oracles job.merit _ _) ?_
      rintro ⟨value, ledger⟩
      exact plays_adapt job iteration (updates + 1) left _ value.psi
  · unfold adapt
    rw [if_neg exceeds, (job.withOracles oracles).adapt_of_le exceeds]
    exact plays_pure _

theorem plays_iterate (job : Job F ε n m) (iteration : Nat) (state : State F n m job.depth) :
    (iterate job iteration state).Plays oracles
      ((job.withOracles oracles).iterate iteration state) := by
  unfold iterate Job.iterate
  refine Plays.bind (answers_evaluate oracles job.merit _ state.ledger) ?_
  rintro ⟨atHat, ledger⟩
  refine (plays_emit _).bind fun _ => plays_ite ?met ?unmet
  case met => exact (plays_emit _).bind fun _ => plays_pure _
  case unmet =>
    refine (plays_adapt oracles job iteration 0 _ { state with ledger } atHat.psi).bind ?_
    intro adapted
    exact (plays_backtrack oracles (job.search iteration adapted) _ 1 adapted.ledger).bind
      fun _ => plays_pure _

/-- A run is the dialogue of its iterations, with the questions to the observer between
them. -/
theorem run_answer (job : Job F ε n m) (observer : Observer F σ) (left iteration : Nat)
    (state : State F n m job.depth) (listener : σ) :
    ((run job left iteration state).conduct oracles observer listener).answer =
      (job.withOracles oracles).run observer left iteration state listener := by
  have iterated := plays_iterate oracles job iteration state
  unfold run
  rcases asked : observer.wantsStop listener iteration with ⟨_ | _, after⟩
  · have going : ∀ next : Bool → Dialogue F ε n m (Solution F n m),
        ((Dialogue.consult iteration next).conduct oracles observer listener).answer =
          ((next false).conduct oracles observer after).answer := by
      intro next
      rw [conduct, asked]
      rfl
    rw [going]
    cases ended : ((job.withOracles oracles).iterate iteration state).result with
    | error error =>
      rw [Job.run_of_error asked ended]
      exact iterated.answer_of_error ended _ observer after
    | ok progress =>
      refine (iterated.answer_of_ok ended _ observer after).trans ?_
      cases progress with
      | converged solution =>
        rw [Job.run_of_converged asked ended]
        rfl
      | advanced residual next =>
        cases left with
        | zero =>
          rw [Job.run_of_limit asked ended]
          rfl
        | succ left =>
          rw [Job.run_of_advanced asked ended]
          exact run_answer job observer left (iteration + 1) next _
  · refine Eq.trans ?_ (Job.run_of_stop asked).symm
    rw [conduct, asked]
    rfl

end Dialogue

/-- Conducting the dialogue of a solve is the solve, whatever the functions of the
problem. -/
theorem Job.solve_eq_conduct (job : Job F ε n m) (oracles : Oracles F ε n m)
    (observer : Observer F σ) (listener : σ) :
    (job.withOracles oracles).solve observer listener =
      ((Dialogue.solve job).conduct oracles observer listener).answer := by
  have begun := Dialogue.plays_start oracles job
  cases started : (job.withOracles oracles).start with
  | error error =>
    rw [started] at begun
    rw [Job.solve_of_error _ started]
    exact (begun.answer_of_error rfl _ observer listener).symm
  | ok state =>
    rw [started] at begun
    rw [Job.solve_of_started _ started]
    refine ((begun.answer_of_ok rfl _ observer listener).trans ?_).symm
    exact Dialogue.run_answer oracles job observer _ 0 state listener

/-- What an observer hears of a solve is what it hears in the conversation. -/
theorem Job.transcript_eq_conduct (job : Job F ε n m) (oracles : Oracles F ε n m)
    (observer : Observer F σ) (listener : σ) :
    (job.withOracles oracles).transcript observer listener =
      ((Dialogue.solve job).conduct oracles observer listener).signals := by
  unfold transcript
  rw [solve_eq_conduct, Dialogue.conduct_attending]
  rfl

/-! ## Requests -/

namespace Request

/-- The same request for another problem with the same sets and dimensions. -/
def withOracles (request : Request F ε)
    (oracles : Oracles F ε request.problem.numVars request.problem.numConstraints) :
    Request F ε :=
  { request with problem := { request.problem with oracles } }

/-- The conversation of a solve with the functions of a problem and an observer. Nothing is
said about a request that is refused. -/
def conversation (request : Request F ε)
    (oracles : Oracles F ε request.problem.numVars request.problem.numConstraints)
    (observer : Observer F σ) (listener : σ) :
    Conversation F ε request.problem.numVars request.problem.numConstraints σ
      (Solution F request.problem.numVars request.problem.numConstraints) :=
  match request.accept with
  | .error fault => ⟨listener, [], .error fault⟩
  | .ok job => (Dialogue.solve job).conduct oracles observer listener

variable (request : Request F ε)
  (oracles : Oracles F ε request.problem.numVars request.problem.numConstraints)
  (observer : Observer F σ) (listener : σ)

/-- A request is answered as its conversation ends, whatever the functions of the
problem. -/
theorem solve_eq_conversation :
    (request.withOracles oracles).solve observer listener =
      request.outcome (request.conversation oracles observer listener).answer := by
  unfold conversation
  cases tested : request.fault? with
  | some fault =>
    have tested' : (request.withOracles oracles).fault? = some fault := tested
    rw [solve_of_fault tested', accept_of_fault tested]
    rfl
  | none =>
    have tested' : (request.withOracles oracles).fault? = none := tested
    rw [solve_eq_outcome tested', accept_of_faultless tested]
    exact congrArg request.outcome
      ((request.job tested).solve_eq_conduct oracles observer listener)

/-- The events of a solve are those of which the observer is told in the conversation. -/
theorem events_eq_conversation :
    (request.withOracles oracles).events observer listener =
      (request.conversation oracles observer listener).events := by
  unfold conversation
  cases tested : request.fault? with
  | some fault =>
    have tested' : (request.withOracles oracles).fault? = some fault := tested
    rw [events_of_fault tested', accept_of_fault tested]
    rfl
  | none =>
    have tested' : (request.withOracles oracles).fault? = none := tested
    rw [events_eq tested', accept_of_faultless tested, Job.events_eq_transcript]
    exact congrArg (List.filterMap Signal.event?)
      ((request.job tested).transcript_eq_conduct oracles observer listener)

end Request

end ProximalNewton
