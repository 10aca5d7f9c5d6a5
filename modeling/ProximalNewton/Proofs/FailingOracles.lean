import ProximalNewton.Proofs.Dialogue

/-!
# Functions that fail

If functions of a problem fail at some points, then a solve that comes to such a point ends
there, with the failure as it is. Up to that point it is the solve of the problem whose
functions do not fail.

* `Pass` is one evaluation of the merit function with the calls that it makes, in their
  order. `Request.calls_inPasses`: the calls of a solve are those of passes.
* `Dialogue.conduct_guarded` compares a conversation with functions that always answer to
  the one with functions that may fail instead: the second one is cut off at the first call
  that fails.
* `Request.solve_of_guarded` is the law for requests.
-/

namespace ProximalNewton

variable {F ε σ α β : Type} {n m : Nat}

/-! ## Problems that fail and problems that do not -/

/-- Every call is answered. -/
def Oracles.Total (oracles : Oracles F ε n m) : Prop :=
  ∀ call : Call F n m, ∃ answer, oracles.answer call = .ok answer

/-- Every call is answered as by the other functions, or fails. -/
def Oracles.Guards (guarded oracles : Oracles F ε n m) : Prop :=
  ∀ call : Call F n m, guarded.answer call = oracles.answer call ∨
    ∃ cause, guarded.answer call = .error cause

/-! ## The calls of an evaluation -/

/-- One evaluation of the merit function at a point: of its value and its gradient, of its
gradient or of its value. -/
inductive Pass (F : Type) (n m : Nat) where
  | fused (x : Vector F n) (yHat : Vector F m)
  | gradient (x : Vector F n) (yHat : Vector F m)
  | value (x : Vector F n)

/-- The calls of an evaluation, in their order. -/
def Pass.calls : Pass F n m → List (Call F n m)
  | .fused x yHat => [.g x, .gradF x, .gradG x yHat, .f x]
  | .gradient x yHat => [.g x, .gradF x, .gradG x yHat]
  | .value x => [.g x, .f x]

namespace Conversation

theorem calls_after (conversation : Conversation F ε n m σ α) (before : List (Remark F n m)) :
    (conversation.after before).calls =
      before.filterMap Remark.call? ++ conversation.calls :=
  List.filterMap_append

/-- The calls of a conversation and the one that follows, if one follows. -/
theorem calls_andThen (conversation : Conversation F ε n m σ α)
    (next : α → σ → Conversation F ε n m σ β) :
    (conversation.andThen next).calls = conversation.calls ++
      match conversation.result with
      | .ok value => (next value conversation.listener).calls
      | .error _ => [] := by
  rcases conversation with ⟨listener, remarks, error | value⟩
  · exact (List.append_nil _).symm
  · exact calls_after _ _

end Conversation

namespace Dialogue

variable {oracles : Oracles F ε n m}

/-- The calls made in a dialogue are those of passes, whoever listens. -/
def InPasses (oracles : Oracles F ε n m) (dialogue : Dialogue F ε n m α) : Prop :=
  ∀ (σ : Type) (observer : Observer F σ) (listener : σ), ∃ passes : List (Pass F n m),
    (dialogue.conduct oracles observer listener).calls = passes.flatMap Pass.calls

theorem InPasses.bind {dialogue : Dialogue F ε n m α} (first : dialogue.InPasses oracles)
    {next : α → Dialogue F ε n m β} (rest : ∀ value, (next value).InPasses oracles) :
    (dialogue >>= next).InPasses oracles := by
  intro σ observer listener
  obtain ⟨passes, calls⟩ := first σ observer listener
  rw [conduct_bind, Conversation.calls_andThen, calls]
  cases (dialogue.conduct oracles observer listener).result with
  | error error => exact ⟨passes, List.append_nil _⟩
  | ok value =>
    obtain ⟨others, calls'⟩ := rest value σ observer
      (dialogue.conduct oracles observer listener).listener
    exact ⟨passes ++ others, (congrArg _ calls').trans List.flatMap_append.symm⟩

theorem inPasses_pure (value : α) : (pure value : Dialogue F ε n m α).InPasses oracles :=
  fun _ _ _ => ⟨[], rfl⟩

theorem inPasses_fail (error : SolveError F ε) :
    (.fail error : Dialogue F ε n m α).InPasses oracles :=
  fun _ _ _ => ⟨[], rfl⟩

theorem inPasses_emit (event : Event F) :
    (emit event : Dialogue F ε n m Unit).InPasses oracles :=
  fun _ _ _ => ⟨[], rfl⟩

theorem inPasses_ite {p : Prop} [Decidable p] {first second : Dialogue F ε n m α}
    (yes : first.InPasses oracles) (no : second.InPasses oracles) :
    (if p then first else second).InPasses oracles := by
  split
  · exact yes
  · exact no

theorem inPasses_consult (iteration : Nat) {next : Bool → Dialogue F ε n m α}
    (rest : ∀ stop, (next stop).InPasses oracles) :
    (.consult iteration next : Dialogue F ε n m α).InPasses oracles :=
  fun σ observer listener => rest _ σ observer (observer.wantsStop listener iteration).2

section Solve

variable [Scalar F] (total : oracles.Total)

include total

omit [Scalar F] in
/-- A call is made and answered. -/
theorem calls_call (which : Call F n m) : ∃ answer, ∀ {σ : Type} {γ : Type}
    (next : which.Answer → Dialogue F ε n m γ) (observer : Observer F σ) (listener : σ),
    ((call which next).conduct oracles observer listener).calls =
      which :: ((next answer).conduct oracles observer listener).calls := by
  obtain ⟨answer, answered⟩ := total which
  refine ⟨answer, fun next observer listener => ?_⟩
  rw [conduct_call_of_ok answered, Conversation.calls_after]
  rfl

theorem inPasses_value (merit : Merit F ε n m) (x : Vector F n) (ledger : Ledger F m) :
    (value merit x ledger).InPasses oracles := by
  intro σ observer listener
  obtain ⟨g, at_x⟩ := calls_call total (.g x)
  obtain ⟨f, valued⟩ := calls_call total (.f x)
  refine ⟨[.value x], (at_x _ observer listener).trans ?_⟩
  exact congrArg _ (valued _ observer listener)

theorem inPasses_gradient (merit : Merit F ε n m) (x : Vector F n) (ledger : Ledger F m) :
    (gradient merit x ledger).InPasses oracles := by
  intro σ observer listener
  obtain ⟨g, at_x⟩ := calls_call total (.g x)
  obtain ⟨gradF, sloped⟩ := calls_call total (.gradF x)
  obtain ⟨gradG, adjoint⟩ := calls_call total (.gradG x (merit.multipliersOf g))
  refine ⟨[.gradient x (merit.multipliersOf g)], (at_x _ observer listener).trans ?_⟩
  refine congrArg _ ((sloped _ observer listener).trans ?_)
  exact congrArg _ (adjoint _ observer listener)

theorem inPasses_evaluate (merit : Merit F ε n m) (x : Vector F n) (ledger : Ledger F m) :
    (evaluate merit x ledger).InPasses oracles := by
  intro σ observer listener
  obtain ⟨g, at_x⟩ := calls_call total (.g x)
  obtain ⟨gradF, sloped⟩ := calls_call total (.gradF x)
  obtain ⟨gradG, adjoint⟩ := calls_call total (.gradG x (merit.multipliersOf g))
  obtain ⟨f, valued⟩ := calls_call total (.f x)
  refine ⟨[.fused x (merit.multipliersOf g)], (at_x _ observer listener).trans ?_⟩
  refine congrArg _ ((sloped _ observer listener).trans ?_)
  refine congrArg _ ((adjoint _ observer listener).trans ?_)
  exact congrArg _ (valued _ observer listener)

theorem inPasses_backtrack (search : Search F ε n m) (halvings : Nat) (tau : F)
    (ledger : Ledger F m) : (backtrack search halvings tau ledger).InPasses oracles := by
  have tried : ∀ tau ledger, (trial search tau ledger).InPasses oracles := fun tau ledger =>
    (inPasses_evaluate total search.merit _ ledger).bind fun _ => inPasses_pure _
  have ended : ∀ (event : Event F) (result : SearchResult F n m),
      (emit event >>= fun _ => pure result : Dialogue F ε n m _).InPasses oracles :=
    fun event result => (inPasses_emit event).bind fun _ => inPasses_pure result
  induction halvings generalizing tau ledger with
  | zero =>
    rw [backtrack]
    exact (tried tau ledger).bind fun answer => inPasses_ite (ended _ _) (ended _ _)
  | succ left ih =>
    rw [backtrack]
    refine (tried tau ledger).bind fun answer => inPasses_ite (ended _ _) (inPasses_ite ?_ ?_)
    · exact ended _ _
    · exact (inPasses_emit _).bind fun _ => ih (tau * 0.5) answer.2

theorem inPasses_start (job : Job F ε n m) : (start job).InPasses oracles := by
  refine (inPasses_evaluate total job.merit job.x Ledger.blank).bind fun first => ?_
  have estimated : (initialLipschitz job job.x first.1.gradPsi first.2).InPasses oracles :=
    (inPasses_gradient total job.merit _ first.2).bind fun _ => inPasses_pure _
  exact estimated.bind fun _ => inPasses_ite (inPasses_pure _) (inPasses_fail _)

theorem inPasses_adapt (job : Job F ε n m) (iteration updates left : Nat)
    (state : State F n m job.depth) (psiHat : F) :
    (adapt job iteration updates left state psiHat).InPasses oracles := by
  induction left generalizing updates state psiHat with
  | zero =>
    unfold adapt
    exact inPasses_ite (inPasses_fail _) (inPasses_pure _)
  | succ left ih =>
    unfold adapt
    refine inPasses_ite ((inPasses_emit _).bind fun _ => ?_) (inPasses_pure _)
    exact (inPasses_value total job.merit _ _).bind fun _ => ih _ _ _

theorem inPasses_iterate (job : Job F ε n m) (iteration : Nat) (state : State F n m job.depth) :
    (iterate job iteration state).InPasses oracles := by
  refine (inPasses_evaluate total job.merit _ state.ledger).bind fun first => ?_
  refine (inPasses_emit _).bind fun _ => inPasses_ite ?met ?unmet
  case met => exact (inPasses_emit _).bind fun _ => inPasses_pure _
  case unmet =>
    refine (inPasses_adapt total job iteration 0 _ _ _).bind fun adapted => ?_
    exact (inPasses_backtrack total _ _ 1 adapted.ledger).bind fun _ => inPasses_pure _

theorem inPasses_run (job : Job F ε n m) (left iteration : Nat) (state : State F n m job.depth) :
    (run job left iteration state).InPasses oracles := by
  rw [run]
  refine inPasses_consult iteration fun stop => ?_
  cases stop with
  | true => exact inPasses_fail _
  | false =>
    refine (inPasses_iterate total job iteration state).bind fun progress => ?_
    rcases progress with solution | ⟨residual, next⟩
    · exact inPasses_pure _
    · cases left with
      | zero => exact inPasses_fail _
      | succ left => exact inPasses_run job left (iteration + 1) next

theorem inPasses_solve (job : Job F ε n m) : (solve job).InPasses oracles :=
  (inPasses_start total job).bind fun state => inPasses_run total job _ 0 state

end Solve

/-! ## A conversation that is cut off -/

/-- A conversation is that of functions which always answer, or it ends with the first call
that the functions fail to answer. -/
inductive CutOff (guarded oracles : Oracles F ε n m) (whole cut : Conversation F ε n m σ α) :
    Prop
  | undisturbed (equal : cut = whole)
    (same : ∀ call ∈ whole.calls, guarded.answer call = oracles.answer call)
  | failed (before after : List (Remark F n m)) (call : Call F n m) (cause : ε)
    (said : whole.remarks = before ++ .called call :: after)
    (same : ∀ earlier ∈ before.filterMap Remark.call?,
      guarded.answer earlier = oracles.answer earlier)
    (fails : guarded.answer call = .error cause)
    (last : cut.remarks = before ++ [.called call])
    (ended : cut.result = .error (.oracle cause))

theorem CutOff.after {guarded oracles : Oracles F ε n m}
    {whole cut : Conversation F ε n m σ α} (cutOff : CutOff guarded oracles whole cut)
    {remarks : List (Remark F n m)}
    (agree : ∀ call ∈ remarks.filterMap Remark.call?,
      guarded.answer call = oracles.answer call) :
    CutOff guarded oracles (whole.after remarks) (cut.after remarks) := by
  cases cutOff with
  | undisturbed equal same =>
    refine .undisturbed (congrArg (Conversation.after · remarks) equal) fun call member => ?_
    rw [Conversation.calls_after] at member
    rcases List.mem_append.mp member with early | late
    · exact agree call early
    · exact same call late
  | failed before after call cause said same fails last ended =>
    refine .failed (remarks ++ before) after call cause ?_ ?_ fails ?_ ended
    · exact (congrArg (remarks ++ ·) said).trans (List.append_assoc _ _ _).symm
    · intro earlier member
      rw [List.filterMap_append] at member
      rcases List.mem_append.mp member with early | late
      · exact agree earlier early
      · exact same earlier late
    · exact (congrArg (remarks ++ ·) last).trans (List.append_assoc _ _ _).symm

/-- Functions that fail at some calls cut a conversation off at the first such call, and
change nothing before it. -/
theorem conduct_guarded {guarded : Oracles F ε n m} (total : oracles.Total)
    (guards : guarded.Guards oracles) (dialogue : Dialogue F ε n m α) (observer : Observer F σ)
    (listener : σ) :
    CutOff guarded oracles (dialogue.conduct oracles observer listener)
      (dialogue.conduct guarded observer listener) := by
  induction dialogue generalizing listener with
  | done value => exact .undisturbed rfl nofun
  | fail error => exact .undisturbed rfl nofun
  | tell event rest ih => exact (ih _).after nofun
  | consult iteration next ih => exact (ih _ _).after nofun
  | call which next ih =>
    obtain ⟨answer, answered⟩ := total which
    rw [conduct_call_of_ok answered]
    rcases guards which with same | ⟨cause, fails⟩
    · rw [conduct_call_of_ok (same.trans answered)]
      refine (ih answer listener).after fun call member => ?_
      obtain rfl : call = which := by simpa [Remark.call?] using member
      exact same
    · rw [conduct_call_of_error fails]
      exact .failed [] _ which cause rfl nofun fails rfl rfl

end Dialogue

/-! ## Requests -/

namespace Request

variable [Scalar F] {request : Request F ε}

/-- A conversation is that of a solve: it ends as the solve does, and the observer is told
of the same events. -/
structure Conducts (request : Request F ε) (observer : Observer F σ) (listener : σ)
    (conversation : Conversation F ε n m σ (Solution F n m)) : Prop where
  outcome : request.solve observer listener = request.outcome conversation.answer
  events : request.events observer listener = conversation.events

theorem conducts_conversation (request : Request F ε)
    (oracles : Oracles F ε request.problem.numVars request.problem.numConstraints)
    (observer : Observer F σ) (listener : σ) :
    (request.withOracles oracles).Conducts observer listener
      (request.conversation oracles observer listener) :=
  ⟨request.solve_eq_conversation oracles observer listener,
    request.events_eq_conversation oracles observer listener⟩

theorem conversation_inPasses (total : request.problem.oracles.Total) (observer : Observer F σ)
    (listener : σ) : ∃ passes : List (Pass F _ _),
      (request.conversation request.problem.oracles observer listener).calls =
        passes.flatMap Pass.calls := by
  unfold conversation
  cases request.accept with
  | error fault => exact ⟨[], rfl⟩
  | ok job => exact Dialogue.inPasses_solve total job σ observer listener

theorem conversation_cutOff
    {guarded : Oracles F ε request.problem.numVars request.problem.numConstraints}
    (total : request.problem.oracles.Total) (guards : guarded.Guards request.problem.oracles)
    (observer : Observer F σ) (listener : σ) :
    Dialogue.CutOff guarded request.problem.oracles
      (request.conversation request.problem.oracles observer listener)
      (request.conversation guarded observer listener) := by
  unfold conversation
  cases request.accept with
  | error fault => exact .undisturbed rfl nofun
  | ok job => exact Dialogue.conduct_guarded total guards _ observer listener

/-- **A function that fails cuts the solve off and does nothing else.** Let the functions of
a problem always answer, and let other functions answer as they do or fail. The calls of the
solve are those of evaluations, each of which calls `g`, `∇f`, the adjoint and `f` in this
order. Either the other functions answer all of them, and the solve is the same with its
outcome and its events. Or the solve ends with the first call that fails, and with the
failure of that call; then the buffers are as they were, and the events are the first of
those of the solve that does not fail. -/
theorem solve_of_guarded {request : Request F ε}
    {guarded : Oracles F ε request.problem.numVars request.problem.numConstraints}
    (total : request.problem.oracles.Total) (guards : guarded.Guards request.problem.oracles)
    (observer : Observer F σ) (listener : σ) :
    let said := request.conversation request.problem.oracles observer listener
    let said' := request.conversation guarded observer listener
    let request' := request.withOracles guarded
    request.Conducts observer listener said ∧ request'.Conducts observer listener said' ∧
      (∃ passes : List (Pass F _ _), said.calls = passes.flatMap Pass.calls) ∧
      ((said'.calls = said.calls ∧
          (∀ call ∈ said.calls, ∃ answer, guarded.answer call = .ok answer) ∧
          request'.solve observer listener = request.solve observer listener ∧
          request'.events observer listener = request.events observer listener) ∨
        ∃ before call after cause,
          said.calls = before ++ call :: after ∧ said'.calls = before ++ [call] ∧
          (∀ earlier ∈ before, ∃ answer, guarded.answer earlier = .ok answer) ∧
          guarded.answer call = .error cause ∧
          (request'.solve observer listener).result = .error (.oracle cause) ∧
          (request'.solve observer listener).buffers = request.buffers ∧
          request'.events observer listener <+: request.events observer listener) := by
  intro said said' request'
  have conducts : request.Conducts observer listener said :=
    request.conducts_conversation request.problem.oracles observer listener
  have conducts' : request'.Conducts observer listener said' :=
    request.conducts_conversation guarded observer listener
  have answered : ∀ call : Call F _ _,
      guarded.answer call = request.problem.oracles.answer call →
      ∃ answer, guarded.answer call = .ok answer := by
    intro call same
    obtain ⟨answer, found⟩ := total call
    exact ⟨answer, same.trans found⟩
  refine ⟨conducts, conducts', conversation_inPasses total observer listener, ?_⟩
  have cutOff : Dialogue.CutOff guarded request.problem.oracles said said' :=
    conversation_cutOff total guards observer listener
  cases cutOff with
  | undisturbed equal same =>
    left
    refine ⟨congrArg Conversation.calls equal, fun call member => answered call (same call member),
      ?_, ?_⟩
    · rw [conducts.outcome, conducts'.outcome, equal]
      rfl
    · rw [conducts.events, conducts'.events, equal]
  | failed before after call cause saidFirst same fails last ended =>
    right
    refine ⟨before.filterMap Remark.call?, call, after.filterMap Remark.call?, cause, ?_, ?_,
      fun earlier member => answered earlier (same earlier member), fails, ?_, ?_, ?_⟩
    · unfold Conversation.calls
      rw [saidFirst, List.filterMap_append]
      rfl
    · unfold Conversation.calls
      rw [last, List.filterMap_append]
      rfl
    · rw [conducts'.outcome, request'.outcome_of_error ended]
    · rw [conducts'.outcome, request'.outcome_of_error ended]
      rfl
    · rw [conducts.events, conducts'.events]
      have told : said'.events = (before.filterMap Remark.signal?).filterMap Signal.event? := by
        unfold Conversation.events Conversation.signals
        rw [last, List.filterMap_append]
        exact congrArg _ (List.append_nil _)
      have toldFirst : said.events = said'.events ++
          (after.filterMap Remark.signal?).filterMap Signal.event? := by
        rw [told]
        unfold Conversation.events Conversation.signals
        rw [saidFirst, List.filterMap_append, List.filterMap_append]
        rfl
      exact ⟨_, toldFirst.symm⟩

end Request

/-! ## A parabola with a gap -/

/-- The parabola with an objective that fails between one and one and a half. -/
def gappedOracles : Oracles Float Unit 1 1 :=
  { parabolaProblem.oracles with
    f := fun x =>
      let value := x.get ⟨0, Nat.one_pos⟩
      if 1 < value ∧ value < 1.5 then .error () else parabolaProblem.oracles.f x }

theorem gappedOracles_guards : gappedOracles.Guards parabolaProblem.oracles := by
  intro call
  cases call with
  | f x =>
    by_cases inside : (1 : Float) < x.get ⟨0, Nat.one_pos⟩ ∧ x.get ⟨0, Nat.one_pos⟩ < 1.5
    · exact Or.inr ⟨(), if_pos inside⟩
    · exact Or.inl (if_neg inside)
  | gradF x => exact Or.inl rfl
  | g x => exact Or.inl rfl
  | gradG x y => exact Or.inl rfl

/-- The descent test of the first iteration fails, and the tightened step leads into the
gap: the solve ends with the call of the objective there. -/
theorem solve_of_guarded_gapped : parabolaProblem.oracles.Total ∧
    gappedOracles.Guards parabolaProblem.oracles ∧ ∃ before x after,
      ((parabolaRequest 1).conversation parabolaProblem.oracles Observer.silent ()).calls =
        before ++ .f x :: after ∧
      ((parabolaRequest 1).conversation gappedOracles Observer.silent ()).calls =
        before ++ [.f x] ∧
      (((parabolaRequest 1).withOracles gappedOracles).solve Observer.silent ()).result =
        .error (.oracle ()) ∧
      ((parabolaRequest 1).withOracles gappedOracles).events Observer.silent () <+:
        (parabolaRequest 1).events Observer.silent () := by
  have total : (parabolaRequest 1).problem.oracles.Total := by
    intro call
    cases call with
    | f x | gradF x | g x | gradG x y => exact ⟨_, rfl⟩
  have limited : (match ((parabolaRequest 1).solve Observer.silent ()).result with
      | .error (.iterationLimit _ _) => true
      | _ => false) = true := by
    decide +kernel
  have gap : (match (((parabolaRequest 1).withOracles gappedOracles).solve
      Observer.silent ()).result with
      | .error (.oracle _) => true
      | _ => false) = true := by
    decide +kernel
  obtain ⟨-, -, -,
      same | ⟨before, call, after, cause, calls, calls', -, fails, failed, -, events⟩⟩ :=
    Request.solve_of_guarded total gappedOracles_guards Observer.silent ()
  · rw [same.2.2.1] at gap
    split at limited
    · rename_i answered
      rw [answered] at gap
      cases gap
    · cases limited
  · cases call with
    | f x => exact ⟨total, gappedOracles_guards, _, x, _, calls, calls', failed, events⟩
    | gradF x => cases fails
    | g x => cases fails
    | gradG x y => cases fails

end ProximalNewton
