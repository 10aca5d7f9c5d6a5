import ProximalNewton.Proofs.Dialogue
import ProximalNewton.Session

/-!
# Histories of solves

A session makes one solve after the other, and its settings, buffers and weights may be
changed in between. All that a solve takes from the observer are its answers to the question
whether to stop. So nothing passes from one solve to the next but what the caller hands on:

* `Dialogue.conduct_of_agree`: two observers whose answers agree have the same conversation.
* `Request.solve_of_agree`: a solve is decided by its request and these answers.
* `Session.history` lists what the solves of a session were asked, what the observer
  answered and what came of them. `Session.Prunes.history_eq`: solves that failed can be
  taken out of a history.
* `Session.history_independent` collects what this means for a session.
-/

namespace ProximalNewton

variable {F ε σ τ ρ α : Type} {n m : Nat}

/-! ## The answers of an observer -/

/-- The answer to a question whether to stop. -/
def Signal.stop? : Signal F → Option Bool
  | .asked _ stop => some stop
  | .told _ => none

/-- Neither list of answers contradicts the other one. -/
def Agree (answers answers' : List Bool) : Prop :=
  answers <+: answers' ∨ answers' <+: answers

theorem Agree.rfl {answers : List Bool} : Agree answers answers :=
  Or.inl (List.prefix_refl _)

theorem agree_cons {stop stop' : Bool} {answers answers' : List Bool} :
    Agree (stop :: answers) (stop' :: answers') ↔ stop = stop' ∧ Agree answers answers' := by
  unfold Agree
  rw [List.cons_prefix_cons, List.cons_prefix_cons, eq_comm (a := stop'), ← and_or_left]

/-- Answers that are all the same agree. -/
theorem agree_of_forall_eq {stop : Bool} {answers answers' : List Bool}
    (every : ∀ answer ∈ answers, answer = stop) (every' : ∀ answer ∈ answers', answer = stop) :
    Agree answers answers' := by
  rw [List.eq_replicate_of_mem every, List.eq_replicate_of_mem every']
  rcases Nat.le_total answers.length answers'.length with le | le
  · exact Or.inl (List.prefix_replicate_iff.mpr ⟨by simpa using le, by simp⟩)
  · exact Or.inr (List.prefix_replicate_iff.mpr ⟨by simpa using le, by simp⟩)

/-- What the observer answered in a conversation. -/
def Conversation.answers (conversation : Conversation F ε n m σ α) : List Bool :=
  conversation.signals.filterMap Signal.stop?

/-- Two conversations in which the same is said and that end alike. -/
structure Conversation.Same (conversation : Conversation F ε n m σ α)
    (conversation' : Conversation F ε n m τ α) : Prop where
  remarks : conversation.remarks = conversation'.remarks
  result : conversation.result = conversation'.result

theorem Conversation.Same.after {conversation : Conversation F ε n m σ α}
    {conversation' : Conversation F ε n m τ α} (same : conversation.Same conversation')
    (before : List (Remark F n m)) :
    (conversation.after before).Same (conversation'.after before) :=
  ⟨congrArg (before ++ ·) same.remarks, same.result⟩

namespace Dialogue

variable {oracles : Oracles F ε n m}

/-- Two observers whose answers agree have the same conversation. -/
theorem conduct_of_agree (dialogue : Dialogue F ε n m α) {observer : Observer F σ}
    {observer' : Observer F τ} {listener : σ} {listener' : τ}
    (agree : Agree (dialogue.conduct oracles observer listener).answers
      (dialogue.conduct oracles observer' listener').answers) :
    (dialogue.conduct oracles observer listener).Same
      (dialogue.conduct oracles observer' listener') := by
  induction dialogue generalizing listener listener' with
  | done value => exact ⟨rfl, rfl⟩
  | fail error => exact ⟨rfl, rfl⟩
  | tell event rest ih => exact (ih agree).after _
  | consult iteration next ih =>
    rcases asked : observer.wantsStop listener iteration with ⟨stop, after⟩
    rcases asked' : observer'.wantsStop listener' iteration with ⟨stop', after'⟩
    simp only [conduct, asked, asked'] at agree ⊢
    -- the first answers agree, so that both go on with the same branch
    obtain ⟨rfl, rest⟩ := agree_cons.mp agree
    exact (ih stop rest).after _
  | call which next ih =>
    cases answered : oracles.answer which with
    | error cause =>
      rw [conduct_call_of_error answered, conduct_call_of_error answered]
      exact ⟨rfl, rfl⟩
    | ok answer =>
      rw [conduct_call_of_ok answered, conduct_call_of_ok answered] at agree ⊢
      exact (ih answer agree).after _

/-- An observer that keeps more of what it sees has the same conversation. -/
theorem conduct_view {fine : Observer F τ} {coarse : Observer F σ} {view : τ → σ}
    (refines : fine.Refines coarse view) (dialogue : Dialogue F ε n m α) (listener : τ) :
    dialogue.conduct oracles coarse (view listener) =
      let conversation := dialogue.conduct oracles fine listener
      ⟨view conversation.listener, conversation.remarks, conversation.result⟩ := by
  induction dialogue generalizing listener with
  | done value => rfl
  | fail error => rfl
  | tell event rest ih =>
    rw [conduct, ← refines.observe, ih]
    rfl
  | consult iteration next ih =>
    rw [conduct, refines.wantsStop]
    dsimp only
    rw [ih]
    rfl
  | call which next ih =>
    cases answered : oracles.answer which with
    | error cause =>
      rw [conduct_call_of_error answered, conduct_call_of_error answered]
    | ok answer =>
      rw [conduct_call_of_ok answered, conduct_call_of_ok answered, ih]
      rfl

/-- An observer that never stops a solve answers no. -/
theorem answers_of_never {observer : Observer F σ}
    (never : ∀ state iteration, (observer.wantsStop state iteration).1 = false)
    (dialogue : Dialogue F ε n m α) (listener : σ) :
    ∀ stop ∈ (dialogue.conduct oracles observer listener).answers, stop = false := by
  induction dialogue generalizing listener with
  | done value => nofun
  | fail error => nofun
  | tell event rest ih => exact ih _
  | consult iteration next ih =>
    intro stop member
    rcases List.mem_cons.mp member with rfl | later
    · exact never listener iteration
    · exact ih _ _ stop later
  | call which next ih =>
    cases answered : oracles.answer which with
    | error cause =>
      rw [conduct_call_of_error answered]
      nofun
    | ok answer =>
      rw [conduct_call_of_ok answered]
      exact ih answer listener

end Dialogue

/-! ## One solve -/

variable [Scalar F]

namespace Request

/-- What the observer answers in the course of a solve. -/
def answers (request : Request F ε) (observer : Observer F σ) (listener : σ) : List Bool :=
  (request.solve observer.attending (listener, [])).listener.2.filterMap Signal.stop?

variable {request : Request F ε} {observer : Observer F σ} {listener : σ}

theorem answers_eq_conversation :
    request.answers observer listener =
      (request.conversation request.problem.oracles observer listener).answers := by
  have solved : request.solve observer.attending (listener, []) = _ :=
    request.solve_eq_conversation request.problem.oracles observer.attending (listener, [])
  unfold answers
  rw [solved, outcome_listener]
  unfold conversation
  cases request.accept with
  | error fault => rfl
  | ok job =>
    rw [Dialogue.conduct_attending]
    rfl

/-- A solve is decided by its request and by the answers of the observer. -/
theorem solve_of_agree {observer' : Observer F τ} {listener' : τ}
    (agree : Agree (request.answers observer listener) (request.answers observer' listener')) :
    (request.solve observer listener).result = (request.solve observer' listener').result ∧
      (request.solve observer listener).buffers = (request.solve observer' listener').buffers ∧
      request.answers observer listener = request.answers observer' listener' := by
  have same : (request.conversation request.problem.oracles observer listener).Same
      (request.conversation request.problem.oracles observer' listener') := by
    rw [answers_eq_conversation, answers_eq_conversation] at agree
    unfold conversation at agree ⊢
    cases accepted : request.accept with
    | error fault => exact ⟨rfl, rfl⟩
    | ok job =>
      rw [accepted] at agree
      exact Dialogue.conduct_of_agree _ agree
  have solved : request.solve observer listener = _ :=
    request.solve_eq_conversation request.problem.oracles observer listener
  have solved' : request.solve observer' listener' = _ :=
    request.solve_eq_conversation request.problem.oracles observer' listener'
  have ended : (request.conversation request.problem.oracles observer listener).answer.2 =
      (request.conversation request.problem.oracles observer' listener').answer.2 := same.result
  obtain ⟨result, buffers⟩ := request.outcome_congr ended
  rw [solved, solved', answers_eq_conversation, answers_eq_conversation]
  refine ⟨result, buffers, ?_⟩
  unfold Conversation.answers Conversation.signals
  rw [same.remarks]

theorem conversation_view {fine : Observer F τ} {coarse : Observer F σ} {view : τ → σ}
    (refines : fine.Refines coarse view) (request : Request F ε) (listener : τ) :
    request.conversation request.problem.oracles coarse (view listener) =
      let conversation := request.conversation request.problem.oracles fine listener
      ⟨view conversation.listener, conversation.remarks, conversation.result⟩ := by
  unfold conversation
  cases request.accept with
  | error fault => rfl
  | ok job => exact Dialogue.conduct_view refines _ listener

/-- A solve under an observer that keeps more of what it sees. -/
theorem solve_view {fine : Observer F τ} {coarse : Observer F σ} {view : τ → σ}
    (refines : fine.Refines coarse view) (request : Request F ε) (listener : τ) :
    request.solve coarse (view listener) =
        { request.solve fine listener with
          listener := view (request.solve fine listener).listener } ∧
      request.answers coarse (view listener) = request.answers fine listener := by
  have solved : request.solve fine listener = _ :=
    request.solve_eq_conversation request.problem.oracles fine listener
  have solved' : request.solve coarse (view listener) = _ :=
    request.solve_eq_conversation request.problem.oracles coarse (view listener)
  rw [solved, solved', answers_eq_conversation, answers_eq_conversation,
    conversation_view refines]
  rcases request.conversation request.problem.oracles fine listener with
    ⟨after, remarks, error | solution⟩
  · exact ⟨rfl, rfl⟩
  · exact ⟨rfl, rfl⟩

theorem answers_silent (request : Request F ε) :
    ∀ stop ∈ request.answers Observer.silent (), stop = false := by
  rw [answers_eq_conversation]
  unfold conversation
  cases request.accept with
  | error fault => nofun
  | ok job => exact Dialogue.answers_of_never (fun _ _ => rfl) _ ()

/-- A solve that is not stopped is the one to which nobody listens. -/
theorem solve_of_undisturbed (undisturbed : true ∉ request.answers observer listener) :
    (request.solve Observer.silent ()).result = (request.solve observer listener).result ∧
      (request.solve Observer.silent ()).buffers = (request.solve observer listener).buffers := by
  have heard : ∀ stop ∈ request.answers observer listener, stop = false := by
    intro stop member
    cases stop with
    | false => rfl
    | true => exact absurd member undisturbed
  obtain ⟨result, buffers, -⟩ := solve_of_agree (agree_of_forall_eq request.answers_silent heard)
  exact ⟨result, buffers⟩

/-- A solve that fails leaves the buffers as they were. -/
theorem buffers_of_error {error : SolveError F ε}
    (failed : (request.solve observer listener).result = .error error) :
    (request.solve observer listener).buffers = request.buffers := by
  cases tested : request.fault? with
  | some fault => rw [solve_of_fault tested]
  | none =>
    have failed' := (solve_eq_error_iff tested).mp failed
    rw [solve_eq_outcome tested, request.outcome_of_error failed']

end Request

/-! ## Sessions -/

/-- What is done with a session: its settings, buffers and weights are changed, or a problem
is solved. -/
inductive Action (F : Type) : Type 1 where
  | edit (change : Session F Unit → Session F Unit)
  | solve {ε : Type} (problem : Problem F ε) (eps : F)

/-- A solve in the history of a session: what was asked, what the observer answered, and
what came of it. -/
structure Entry (F : Type) : Type 1 where
  {ε : Type}
  request : Request F ε
  answers : List Bool
  result : Except (SolveError F ε) (Summary F)
  buffers : Buffers F

namespace Session

/-- The session with another observer. -/
def withListener (session : Session F σ) (listener : τ) : Session F τ :=
  { session with listener }

/-- The session without its observer. -/
def apart (session : Session F σ) : Session F Unit :=
  session.withListener ()

/-- Changes a session, but for the observer. -/
def edit (session : Session F σ) (change : Session F Unit → Session F Unit) : Session F σ :=
  (change session.apart).withListener session.listener

/-- The entry of the solve of a problem in a session. -/
def entry (session : Session F σ) (observer : Observer F σ) (problem : Problem F ε) (eps : F) :
    Entry F where
  request := session.request problem eps
  answers := (session.request problem eps).answers observer session.listener
  result := (session.solve observer problem eps).2
  buffers := (session.solve observer problem eps).1.buffers

/-- The entries of the solves of a session, in their order. -/
def history (session : Session F σ) (observer : Observer F σ) : List (Action F) → List (Entry F)
  | [] => []
  | .edit change :: rest => (session.edit change).history observer rest
  | .solve problem eps :: rest =>
    session.entry observer problem eps ::
      (session.solve observer problem eps).1.history observer rest

/-- Some of the solves that fail are taken out of the actions of a session. What is left are
the actions `kept`, and the entries of their solves in the history of the session. -/
inductive Prunes (observer : Observer F σ) :
    Session F σ → List (Action F) → List (Action F) → List (Entry F) → Prop
  | nil (session : Session F σ) : Prunes observer session [] [] []
  | edit {session : Session F σ} {change : Session F Unit → Session F Unit}
    {rest kept : List (Action F)} {entries : List (Entry F)}
    (pruned : Prunes observer (session.edit change) rest kept entries) :
    Prunes observer session (.edit change :: rest) (.edit change :: kept) entries
  | keep {session : Session F σ} {ε : Type} {problem : Problem F ε} {eps : F}
    {rest kept : List (Action F)} {entries : List (Entry F)}
    (pruned : Prunes observer (session.solve observer problem eps).1 rest kept entries) :
    Prunes observer session (.solve problem eps :: rest) (.solve problem eps :: kept)
      (session.entry observer problem eps :: entries)
  | drop {session : Session F σ} {ε : Type} {problem : Problem F ε} {eps : F}
    {error : SolveError F ε} {rest kept : List (Action F)} {entries : List (Entry F)}
    (failed : (session.solve observer problem eps).2 = .error error)
    (pruned : Prunes observer (session.solve observer problem eps).1 rest kept entries) :
    Prunes observer session (.solve problem eps :: rest) kept entries

/-- Two sessions alike but for their observers, whose answers agree, solve a problem alike
and are alike afterwards. -/
theorem entry_eq_of_agree {session : Session F σ} {session' : Session F τ}
    (alike : session'.apart = session.apart) {observer : Observer F σ}
    {observer' : Observer F τ} {problem : Problem F ε} {eps : F}
    (agree : Agree (session.entry observer problem eps).answers
      (session'.entry observer' problem eps).answers) :
    session'.entry observer' problem eps = session.entry observer problem eps ∧
      (session'.solve observer' problem eps).1.apart =
        (session.solve observer problem eps).1.apart := by
  rcases session with ⟨params, buffers, sigma, listener⟩
  rcases session' with ⟨params', buffers', sigma', listener'⟩
  cases alike
  obtain ⟨result, written, answers⟩ := Request.solve_of_agree agree
  constructor
  · show Entry.mk _ _ _ _ = Entry.mk _ _ _ _
    exact congr (congr (congrArg _ answers.symm) result.symm) written.symm
  · exact congrArg (Session.mk params · sigma ()) written.symm

/-- A solve that fails leaves the session as it was, but for the observer. -/
theorem apart_of_error {session : Session F σ} {observer : Observer F σ}
    {problem : Problem F ε} {eps : F} {error : SolveError F ε}
    (failed : (session.solve observer problem eps).2 = .error error) :
    (session.solve observer problem eps).1.apart = session.apart :=
  congrArg (Session.mk session.params · session.sigma ()) (Request.buffers_of_error failed)

/-- Without some of the solves that fail, and under any observer whose answers in the other
solves agree, these have the same entries. -/
theorem Prunes.history_eq {session : Session F σ} {observer : Observer F σ}
    {actions kept : List (Action F)} {entries : List (Entry F)}
    (pruned : Prunes observer session actions kept entries) {observer' : Observer F τ}
    {session' : Session F τ} (alike : session'.apart = session.apart)
    (agree : ∀ (i : Nat) (entry entry' : Entry F), entries[i]? = some entry →
      (session'.history observer' kept)[i]? = some entry' →
      Agree entry.answers entry'.answers) :
    session'.history observer' kept = entries := by
  induction pruned generalizing session' with
  | nil session => rfl
  | @edit session change rest kept entries pruned ih =>
    have changed : (session'.edit change).apart = (session.edit change).apart :=
      congrArg change alike
    exact ih changed agree
  | keep pruned ih =>
    obtain ⟨entry, after⟩ := entry_eq_of_agree alike (agree 0 _ _ rfl rfl)
    refine congr (congrArg List.cons entry) (ih after fun i first second found found' => ?_)
    exact agree (i + 1) first second found found'
  | drop failed pruned ih => exact ih (alike.trans (apart_of_error failed).symm) agree

/-- An observer that keeps more of what it sees makes the same history. -/
theorem history_view {fine : Observer F τ} {coarse : Observer F σ} {view : τ → σ}
    (refines : fine.Refines coarse view) (actions : List (Action F)) (session : Session F τ) :
    (session.withListener (view session.listener)).history coarse actions =
      session.history fine actions := by
  induction actions generalizing session with
  | nil => rfl
  | cons action rest ih =>
    cases action with
    | edit change => exact ih (session.edit change)
    | solve problem eps =>
      obtain ⟨solved, answers⟩ :=
        Request.solve_view refines (session.request problem eps) session.listener
      have entry : (session.withListener (view session.listener)).entry coarse problem eps =
          session.entry fine problem eps := by
        show Entry.mk _ _ _ _ = Entry.mk _ _ _ _
        exact congr (congr (congrArg _ answers) (congrArg Outcome.result solved))
          (congrArg Outcome.buffers solved)
      have after : ((session.withListener (view session.listener)).solve coarse problem eps).1 =
          (session.solve fine problem eps).1.withListener
            (view (session.solve fine problem eps).1.listener) :=
        congrArg (fun outcome : Outcome F _ σ => Session.mk session.params outcome.buffers
          session.sigma outcome.listener) solved
      show _ :: Session.history _ coarse rest = _ :: Session.history _ fine rest
      rw [entry, after, ih (session.solve fine problem eps).1]

end Session

/-! ## Problems and observers at second hand -/

/-- The problem at second hand. A reference to a problem passes every method on to what it refers
to and adds nothing, so that field by field it is that problem. -/
def Problem.forwarding (problem : Problem F ε) : Problem F ε where
  numVars := problem.numVars
  numConstraints := problem.numConstraints
  oracles :=
    { f := fun x => problem.oracles.f x
      gradF := fun x => problem.oracles.gradF x
      g := fun x => problem.oracles.g x
      gradG := fun x y => problem.oracles.gradG x y }
  dimC := problem.dimC
  dimD := problem.dimD
  C := problem.C
  D := problem.D

/-- The same actions with problems at second hand. -/
def Action.forwarding : Action F → Action F
  | .edit change => .edit change
  | .solve problem eps => .solve problem.forwarding eps

/-- The observer at second hand: its state is a part of a larger one, and it is passed
everything on. -/
def Observer.borrowed (observer : Observer F σ) : Observer F (σ × ρ) where
  observe state event := (observer.observe state.1 event, state.2)
  wantsStop state iteration :=
    let (stop, listener) := observer.wantsStop state.1 iteration
    (stop, listener, state.2)

namespace Session

theorem history_forwarding (session : Session F σ) (observer : Observer F σ)
    (actions : List (Action F)) :
    session.history observer (actions.map Action.forwarding) =
      session.history observer actions := by
  induction actions generalizing session with
  | nil => rfl
  | cons action rest ih =>
    cases action with
    | edit change => exact ih (session.edit change)
    | solve problem eps =>
      exact congrArg (session.entry observer problem eps :: ·)
        (ih (session.solve observer problem eps).1)

/-- Nothing passes from one solve of a session to the next but what the caller hands on. -/
structure Independent (session : Session F σ) (observer : Observer F σ)
    (actions : List (Action F)) : Prop where
  /-- A solve that fails leaves the buffers as they were. -/
  atomic : ∀ entry ∈ session.history observer actions, ∀ error, entry.result = .error error →
    entry.buffers = entry.request.buffers
  /-- A solve is made anew from its request, under any observer whose answers agree. -/
  fresh : ∀ entry ∈ session.history observer actions, ∀ (τ : Type) (observer' : Observer F τ)
    (listener : τ), Agree entry.answers (entry.request.answers observer' listener) →
      (entry.request.solve observer' listener).result = entry.result ∧
        (entry.request.solve observer' listener).buffers = entry.buffers
  /-- The solves that fail can be left out, in the same session or in one that differs in its
  observer. -/
  prunable : ∀ kept entries, Prunes observer session actions kept entries →
    ∀ (τ : Type) (observer' : Observer F τ) (session' : Session F τ),
      session'.apart = session.apart →
      (∀ (i : Nat) (entry entry' : Entry F), entries[i]? = some entry →
        (session'.history observer' kept)[i]? = some entry' →
        Agree entry.answers entry'.answers) →
      session'.history observer' kept = entries
  /-- A solve that is not stopped is made as if nobody listened. -/
  silent : ∀ entry ∈ session.history observer actions, true ∉ entry.answers →
    (entry.request.solve Observer.silent ()).result = entry.result ∧
      (entry.request.solve Observer.silent ()).buffers = entry.buffers
  /-- Problems may be passed on. -/
  forwarded : session.history observer (actions.map Action.forwarding) =
    session.history observer actions
  /-- The observer may be passed on. -/
  borrowed : ∀ (ρ : Type) (rest : ρ),
    (session.withListener (session.listener, rest)).history observer.borrowed actions =
      session.history observer actions

/-- The entries of a history are those of solves of sessions. -/
theorem of_mem_history {observer : Observer F σ} {actions : List (Action F)} {entry : Entry F}
    (Holds : Entry F → Prop)
    (solved : ∀ (session : Session F σ) (ε : Type) (problem : Problem F ε) (eps : F),
      Holds (session.entry observer problem eps))
    {session : Session F σ} (member : entry ∈ session.history observer actions) : Holds entry := by
  induction actions generalizing session with
  | nil => cases member
  | cons action rest ih =>
    cases action with
    | edit change => exact ih member
    | solve problem eps =>
      rcases List.mem_cons.mp member with rfl | later
      · exact solved session _ problem eps
      · exact ih later

/-- **Failure is atomic, and a session has no memory.** In every history of solves, of any
problems and with any changes in between, a solve that fails leaves the buffers as they
were; and what a solve returns is decided by the settings, the buffers and the weights that
it finds and by the answers of the observer. -/
theorem history_independent (session : Session F σ) (observer : Observer F σ)
    (actions : List (Action F)) : session.Independent observer actions where
  atomic entry member := by
    refine of_mem_history (fun entry => ∀ error, entry.result = .error error →
      entry.buffers = entry.request.buffers) ?_ member
    intro session ε problem eps error failed
    exact Request.buffers_of_error failed
  fresh entry member := by
    refine of_mem_history (fun entry => ∀ (τ : Type) (observer' : Observer F τ) (listener : τ),
      Agree entry.answers (entry.request.answers observer' listener) →
      (entry.request.solve observer' listener).result = entry.result ∧
        (entry.request.solve observer' listener).buffers = entry.buffers) ?_ member
    intro session ε problem eps τ observer' listener agree
    obtain ⟨result, buffers, -⟩ := Request.solve_of_agree agree
    exact ⟨result.symm, buffers.symm⟩
  prunable kept entries pruned τ observer' session' alike agree := pruned.history_eq alike agree
  silent entry member := by
    refine of_mem_history (fun entry => true ∉ entry.answers →
      (entry.request.solve Observer.silent ()).result = entry.result ∧
        (entry.request.solve Observer.silent ()).buffers = entry.buffers) ?_ member
    intro session ε problem eps undisturbed
    exact Request.solve_of_undisturbed undisturbed
  forwarded := session.history_forwarding observer actions
  borrowed ρ rest := by
    have refines : (observer.borrowed : Observer F (σ × ρ)).Refines observer Prod.fst :=
      ⟨fun _ _ => rfl, fun _ _ => rfl⟩
    exact (history_view refines actions (session.withListener (session.listener, rest))).symm

end Session

/-! ## A second attempt -/

/-- The parabola is to be solved within one iteration. -/
def parabolaSession : Session Float Unit where
  params := (parabolaRequest 1).params
  buffers := (parabolaRequest 1).buffers
  sigma := (parabolaRequest 1).sigma
  listener := ()

/-- Ten iterations are permitted. -/
def permitMore (session : Session Float Unit) : Session Float Unit :=
  { session with params := { session.params with maxIter := 10 } }

/-- The first attempt fails and leaves no trace: without it, the second one has the same
entry. -/
theorem history_independent_parabola : ∃ error first second,
    (parabolaSession.solve Observer.silent parabolaProblem 1e-3).2 = .error error ∧
    parabolaSession.history Observer.silent
      [.solve parabolaProblem 1e-3, .edit permitMore, .solve parabolaProblem 1e-3] =
        [first, second] ∧
    parabolaSession.history Observer.silent [.edit permitMore, .solve parabolaProblem 1e-3] =
      [second] := by
  have limited : (match (parabolaSession.solve Observer.silent parabolaProblem 1e-3).2 with
      | .error (.iterationLimit _ _) => true
      | _ => false) = true := by
    decide +kernel
  split at limited
  · rename_i iterations residual failed
    have law := parabolaSession.history_independent Observer.silent
      [.solve parabolaProblem 1e-3, .edit permitMore, .solve parabolaProblem 1e-3]
    refine ⟨_, _, _, failed, rfl, ?_⟩
    refine law.prunable _ _ (.drop failed (.edit (.keep (.nil _)))) Unit Observer.silent
      parabolaSession rfl ?_
    intro i entry entry' found found'
    cases i with
    | zero =>
      cases found
      cases found'
      exact agree_of_forall_eq (Request.answers_silent _) (Request.answers_silent _)
    | succ i => cases found
  · cases limited

end ProximalNewton
