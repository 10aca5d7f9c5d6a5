import ProximalNewton.Proofs.Course
import ProximalNewton.Proofs.Evaluation

/-!
# The protocol of a solve

What an observer hears of a solve is a list of signals: it is asked before an
iteration whether to stop, and told of every event. `Job.transcript` is that
list. It consists of complete blocks, one for each iteration that was completed
and in their order, and of what was heard of one more iteration.

* `Search.backtrack_shape`, `Job.adapt_shape` and `Job.iterate_shape` say what a
  search, an adaptation and an iteration report.
* `Job.run_transcript` strings iterations together: the transcript of a run ends
  as `Job.Closes` says, which also gives the answer.
* `Job.transcript_protocol` reads the answer of a solve off its transcript.
-/

namespace ProximalNewton

/-! ## Blocks of reports -/

/-- The reports of an iteration up to the last trial that its search rejected. -/
structure Draft (F : Type) where
  opening : IterationReport F
  tightenings : List (TighteningReport F)
  retries : List (TrialReport F)

/-- The reports of a complete iteration, whose search ended with the trial `last`. -/
structure Block (F : Type) extends Draft F where
  last : TrialReport F
  accepted : Bool

section Blocks

variable {F : Type}

def Draft.events (draft : Draft F) : List (Event F) :=
  .iteration draft.opening ::
    (draft.tightenings.map .tightened ++ draft.retries.map .rejected)

/-- How the search of an iteration ends. -/
def verdict (accepted : Bool) (last : TrialReport F) : Event F :=
  if accepted then .accepted last else .stalled last

def Block.events (block : Block F) : List (Event F) :=
  block.toDraft.events ++ [verdict block.accepted block.last]

/-- The estimate of the Lipschitz constant after tightenings of an estimate. -/
def lipschitzAfter (initial : F) (tightenings : List (TighteningReport F)) : F :=
  (tightenings.getLast?.map fun report => report.step.lipschitz).getD initial

/-- The estimate of the Lipschitz constant that an iteration has reported last. -/
def Draft.lipschitz (draft : Draft F) : F :=
  lipschitzAfter draft.opening.lipschitz draft.tightenings

/-- Tightenings of one iteration, counted from `first` on. -/
structure Numbered (iteration first : Nat) (tightenings : List (TighteningReport F)) : Prop where
  own : ∀ report ∈ tightenings, report.iteration = iteration
  updates : tightenings.map (·.update) = List.range' first tightenings.length

/-- The reports are those of iteration `k`: its tightenings are counted from one
and are at most `limit`, and then come trials that were rejected. -/
structure Draft.IsOf (limit k : Nat) (draft : Draft F) : Prop where
  opening : draft.opening.iteration = k
  tightenings : Numbered k 1 draft.tightenings
  permitted : draft.tightenings.length ≤ limit
  retries : ∀ report ∈ draft.retries, report.iteration = k

/-- The reports are all those of iteration `k`. -/
structure Block.IsOf (limit k : Nat) (block : Block F) : Prop extends
    Draft.IsOf limit k block.toDraft where
  last : block.last.iteration = k

/-- The blocks of the first iterations, in their order. -/
def InOrder (limit : Nat) (blocks : List (Block F)) : Prop :=
  ∀ (k : Nat) (block : Block F), blocks[k]? = some block → block.IsOf limit k

theorem lipschitzAfter_cons (initial : F) (first : TighteningReport F)
    (rest : List (TighteningReport F)) :
    lipschitzAfter initial (first :: rest) = lipschitzAfter first.step.lipschitz rest := by
  unfold lipschitzAfter
  rw [List.getLast?_cons]
  cases rest.getLast? with
  | none => rfl
  | some last => rfl

theorem numbered_nil (iteration first : Nat) :
    Numbered iteration first ([] : List (TighteningReport F)) :=
  ⟨List.forall_mem_nil _, rfl⟩

theorem Numbered.cons {iteration update : Nat} {first : TighteningReport F}
    {rest : List (TighteningReport F)} (own : first.iteration = iteration)
    (count : first.update = update) (numbered : Numbered iteration (update + 1) rest) :
    Numbered iteration update (first :: rest) := by
  constructor
  · intro report member
    rcases List.mem_cons.mp member with rfl | later
    · exact own
    · exact numbered.own report later
  · rw [List.map_cons, List.length_cons, List.range'_succ, numbered.updates, count]

theorem inOrder_nil (limit : Nat) : InOrder limit ([] : List (Block F)) := by
  intro k block found
  cases found

theorem InOrder.append {limit : Nat} {blocks : List (Block F)} {block : Block F}
    (inOrder : InOrder limit blocks) (next : block.IsOf limit blocks.length) :
    InOrder limit (blocks ++ [block]) := by
  intro k found at_k
  rw [List.getElem?_append] at at_k
  split at at_k
  · exact inOrder k found at_k
  · obtain ⟨inside, rfl⟩ := List.getElem?_eq_some_iff.mp at_k
    have latest : k = blocks.length := by
      rw [List.length_singleton] at inside
      omega
    subst latest
    simpa using next

end Blocks

variable {F ε : Type} [Scalar F] {n m : Nat}

/-! ## What a search, an adaptation and an iteration report -/

/-- A search reports the trials that it rejects and then the one that it ends with. -/
theorem Search.backtrack_shape (search : Search F ε n m) (halvings : Nat) (tau : F)
    (ledger : Ledger F m) :
    (search.backtrack halvings tau ledger).Ensures
      (fun reported result => ∃ (retries : List (TrialReport F)) (last : TrialReport F),
        (∀ report ∈ retries, report.iteration = search.iteration) ∧
        last.iteration = search.iteration ∧
        reported = retries.map .rejected ++ [verdict result.accepted last])
      (fun reported _ => ∃ retries : List (TrialReport F),
        (∀ report ∈ retries, report.iteration = search.iteration) ∧
        reported = retries.map .rejected) := by
  have none_retried : ∀ report ∈ ([] : List (TrialReport F)), report.iteration = search.iteration :=
    List.forall_mem_nil _
  induction halvings generalizing tau ledger with
  | zero =>
    unfold Search.backtrack
    refine Traced.ensures_ofExcept_bind (fun error _ => ⟨[], none_retried, rfl⟩) ?_
    intro answer tried
    rcases answer with ⟨trial, ledger'⟩
    dsimp only
    split
    · exact Traced.ensures_emit_bind (Traced.ensures_pure ⟨[], _, none_retried, rfl, rfl⟩)
    · exact Traced.ensures_emit_bind (Traced.ensures_pure ⟨[], _, none_retried, rfl, rfl⟩)
  | succ left ih =>
    unfold Search.backtrack
    refine Traced.ensures_ofExcept_bind (fun error _ => ⟨[], none_retried, rfl⟩) ?_
    intro answer tried
    rcases answer with ⟨trial, ledger'⟩
    dsimp only
    split
    · exact Traced.ensures_emit_bind (Traced.ensures_pure ⟨[], _, none_retried, rfl, rfl⟩)
    · split
      · exact Traced.ensures_emit_bind (Traced.ensures_pure ⟨[], _, none_retried, rfl, rfl⟩)
      · refine Traced.ensures_emit_bind ((ih (tau * 0.5) ledger').mono ?_ ?_)
        · intro reported result shape
          obtain ⟨retries, last, own, own_last, rfl⟩ := shape
          exact ⟨_ :: retries, last, List.forall_mem_cons.mpr ⟨rfl, own⟩, own_last, rfl⟩
        · intro reported error shape
          obtain ⟨retries, own, rfl⟩ := shape
          exact ⟨_ :: retries, List.forall_mem_cons.mpr ⟨rfl, own⟩, rfl⟩

namespace Job

/-- An adaptation reports its tightenings, of which there are no more than are
permitted. It gives up only after all of these. -/
theorem adapt_shape (job : Job F ε n m) (iteration updates left : Nat)
    (state : State F n m job.depth) (psiHat : F) :
    (job.adapt iteration updates left state psiHat).Ensures
      (fun reported _ => ∃ tightenings, Numbered iteration (updates + 1) tightenings ∧
        tightenings.length ≤ left ∧ reported = tightenings.map .tightened)
      (fun reported error => ∃ tightenings, Numbered iteration (updates + 1) tightenings ∧
        tightenings.length ≤ left ∧ reported = tightenings.map .tightened ∧
        ((∃ cause, error = .oracle cause) ∨
          tightenings.length = left ∧ error = .stepSize iteration (updates + left)
            (lipschitzAfter state.step.lipschitz tightenings))) := by
  induction left generalizing updates state psiHat with
  | zero =>
    unfold Job.adapt
    split
    · exact Traced.ensures_fail
        ⟨[], numbered_nil _ _, Nat.le_refl 0, rfl, Or.inr ⟨rfl, rfl⟩⟩
    · exact Traced.ensures_pure ⟨[], numbered_nil _ _, Nat.le_refl 0, rfl⟩
  | succ left ih =>
    unfold Job.adapt
    split
    · refine Traced.ensures_emit_bind (Traced.ensures_ofExcept_mapError_bind ?_ ?_)
      · intro cause failed
        exact ⟨[_], (numbered_nil _ _).cons rfl rfl, Nat.succ_pos left, rfl,
          Or.inl ⟨cause, rfl⟩⟩
      · intro answer evaluated
        rcases answer with ⟨value, ledger⟩
        refine (ih (updates + 1) { job.tighten state with ledger } value.psi).mono ?_ ?_
        · intro reported adapted shape
          obtain ⟨rest, numbered, permitted, rfl⟩ := shape
          exact ⟨_ :: rest, numbered.cons rfl rfl, Nat.succ_le_succ permitted, rfl⟩
        · intro reported error shape
          obtain ⟨rest, numbered, permitted, rfl, ended⟩ := shape
          refine ⟨_ :: rest, numbered.cons rfl rfl, Nat.succ_le_succ permitted, rfl, ?_⟩
          refine ended.imp_right ?_
          intro exhausted
          rcases exhausted with ⟨all, rfl⟩
          refine ⟨congrArg (· + 1) all, ?_⟩
          rw [lipschitzAfter_cons, Nat.add_right_comm, Nat.add_assoc]
    · exact Traced.ensures_pure ⟨[], numbered_nil _ _, Nat.zero_le _, rfl⟩

/-- The reports of an iteration that goes on after its first report: its residual
did not meet the tolerance. -/
structure Drafts (job : Job F ε n m) (k : Nat) (draft : Draft F) : Prop where
  isOf : draft.IsOf job.params.estimate.maxUpdates k
  unmet : ¬ draft.opening.residual ≤ job.eps

/-- What an iteration reports and how it ends. -/
inductive IterationShape (job : Job F ε n m) (k : Nat) :
    List (Event F) → Except (SolveError F ε) (Progress F n m job.depth) → Prop
  | unmeasured {cause} : IterationShape job k [] (.error (.oracle cause))
  | converged {opening : IterationReport F} {solution : Solution F n m} :
    opening.iteration = k → opening.residual ≤ job.eps →
    solution.summary.iterations = k → solution.summary.residual = opening.residual →
    IterationShape job k [.iteration opening, .finished solution.summary]
      (.ok (.converged solution))
  | failed {draft cause} : job.Drafts k draft →
    IterationShape job k draft.events (.error (.oracle cause))
  | stepSize {draft} : job.Drafts k draft → draft.retries = [] →
    draft.tightenings.length = job.params.estimate.maxUpdates →
    IterationShape job k draft.events
      (.error (.stepSize k job.params.estimate.maxUpdates draft.lipschitz))
  | advanced {block : Block F} {next} : job.Drafts k block.toDraft → block.last.iteration = k →
    IterationShape job k block.events (.ok (.advanced block.opening.residual next))

theorem iterate_shape (job : Job F ε n m) (k : Nat) (state : State F n m job.depth) :
    job.IterationShape k (job.iterate k state).events (job.iterate k state).result := by
  have judged : (job.iterate k state).Ensures
      (fun reported progress => job.IterationShape k reported (.ok progress))
      (fun reported error => job.IterationShape k reported (.error error)) := by
    unfold Job.iterate
    refine Traced.ensures_ofExcept_mapError_bind (fun cause _ => .unmeasured) ?_
    intro answer evaluated
    rcases answer with ⟨atHat, ledger⟩
    refine Traced.ensures_emit_bind ?_
    dsimp only
    generalize ProximalNewton.residual state.step.gamma state.current.r atHat.gradPsi
      state.current.gradPsi = measured
    split
    · exact Traced.ensures_emit_bind (Traced.ensures_pure (.converged rfl ‹_› rfl rfl))
    · rename_i unmet
      refine Traced.ensures_bind ((job.adapt_shape k 0 _ _ _).mono ?_ ?_)
      · intro adapted searching shape
        obtain ⟨tightenings, numbered, permitted, rfl⟩ := shape
        have searched := (job.search k searching).backtrack_shape
          (Scalar.halvings (job.search k searching).tauMin) 1 searching.ledger
        refine Traced.ensures_bind (Traced.ensures_mapError (searched.mono ?_ ?_))
        · intro reported result shape
          obtain ⟨retries, last, own, own_last, rfl⟩ := shape
          have drafts : job.Drafts k
              ⟨job.report k { state with ledger } measured, tightenings, retries⟩ :=
            ⟨⟨rfl, numbered, permitted, own⟩, unmet⟩
          have advanced : job.IterationShape k
              (Block.mk ⟨_, tightenings, retries⟩ last result.accepted).events
              (.ok (.advanced _ (job.advance searching result))) := .advanced drafts own_last
          refine Traced.ensures_pure ?_
          simp only [Block.events, Draft.events, List.cons_append, List.append_assoc] at advanced
          rw [List.append_nil]
          exact advanced
        · intro reported cause shape
          obtain ⟨retries, own, rfl⟩ := shape
          have drafts : job.Drafts k
              ⟨job.report k { state with ledger } measured, tightenings, retries⟩ :=
            ⟨⟨rfl, numbered, permitted, own⟩, unmet⟩
          exact .failed drafts
      · intro reported error shape
        obtain ⟨tightenings, numbered, permitted, rfl, ended⟩ := shape
        have drafts : job.Drafts k ⟨job.report k { state with ledger } measured, tightenings, []⟩ :=
          ⟨⟨rfl, numbered, permitted, nofun⟩, unmet⟩
        rcases ended with ⟨cause, rfl⟩ | ⟨all, rfl⟩
        · have failed : job.IterationShape k _ (.error (.oracle cause)) := .failed drafts
          simpa [Draft.events] using failed
        · have exhausted := IterationShape.stepSize drafts rfl all
          simpa [Draft.events, Draft.lipschitz, Job.report] using exhausted
  unfold Traced.Ensures at judged
  split at judged
  · rename_i ok
    rw [ok]
    exact judged
  · rename_i failed
    rw [failed]
    exact judged

end Job

/-! ## What an observer hears -/

/-- What an observer hears of a solve: the question whether to stop before an
iteration, with its answer, or an event. -/
inductive Signal (F : Type) where
  | asked (iteration : Nat) (stop : Bool)
  | told (event : Event F)

/-- The event that an observer is told of. -/
def Signal.event? {F : Type} : Signal F → Option (Event F)
  | .asked _ _ => none
  | .told event => some event

/-- What is heard of a complete iteration. -/
def Block.signals {F : Type} (block : Block F) : List (Signal F) :=
  .asked block.opening.iteration false :: block.events.map .told

namespace Observer

variable {σ : Type}

/-- The observer that also keeps what it hears, in its order. -/
def attending (observer : Observer F σ) : Observer F (σ × List (Signal F)) where
  observe heard event := (observer.observe heard.1 event, heard.2 ++ [.told event])
  wantsStop heard iteration :=
    let (stop, listener) := observer.wantsStop heard.1 iteration
    (stop, listener, heard.2 ++ [.asked iteration stop])

omit [Scalar F] in
theorem attending_refines (observer : Observer F σ) :
    observer.attending.Refines observer Prod.fst :=
  ⟨fun _ _ => rfl, fun _ _ => rfl⟩

omit [Scalar F] in
/-- The events among the signals are those that are noted. -/
theorem attending_refines_noting (observer : Observer F σ) :
    observer.attending.Refines observer.noting
      fun heard => (heard.1, heard.2.filterMap Signal.event?) := by
  constructor
  · intro heard event
    simp [attending, noting, Signal.event?]
  · intro heard iteration
    simp [attending, noting, Signal.event?]

omit [Scalar F] in
theorem heard_of_asked {observer : Observer F σ} {heard after : σ × List (Signal F)}
    {iteration : Nat} {stop : Bool}
    (asked : observer.attending.wantsStop heard iteration = (stop, after)) :
    after.2 = heard.2 ++ [.asked iteration stop] := by
  cases asked
  rfl

omit [Scalar F] in
theorem heard_observeAll (observer : Observer F σ) (heard : σ × List (Signal F))
    (events : List (Event F)) :
    (observer.attending.observeAll heard events).2 = heard.2 ++ events.map .told := by
  induction events generalizing heard with
  | nil => exact (List.append_nil _).symm
  | cons event events ih =>
    have rest := ih (observer.attending.observe heard event)
    simp only [attending, List.append_assoc, List.singleton_append] at rest
    exact rest

omit [Scalar F] in
/-- What has been heard when an iteration has been told. -/
theorem heard_iteration {observer : Observer F σ} {heard after : σ × List (Signal F)}
    {iteration : Nat} (asked : observer.attending.wantsStop heard iteration = (false, after))
    (events : List (Event F)) :
    (observer.attending.observeAll after events).2 =
      heard.2 ++ .asked iteration false :: events.map .told := by
  rw [observer.heard_observeAll, heard_of_asked asked, List.append_assoc, List.singleton_append]

end Observer

namespace Job

variable {σ : Type}

/-- What an observer hears of a solve, in its order. -/
def transcript (job : Job F ε n m) (observer : Observer F σ) (listener : σ) : List (Signal F) :=
  (job.solve observer.attending (listener, [])).1.2

/-- A solve is answered the same whether or not its signals are kept. -/
theorem solve_attending (job : Job F ε n m) (observer : Observer F σ) (listener : σ) :
    (job.solve observer.attending (listener, [])).2 = (job.solve observer listener).2 := by
  have same := job.solve_view observer.attending_refines (listener, [])
  exact (congrArg Prod.snd same).symm

/-- The events of a solve are those in its transcript. -/
theorem events_eq_transcript (job : Job F ε n m) (observer : Observer F σ) (listener : σ) :
    job.events observer listener = (job.transcript observer listener).filterMap Signal.event? := by
  have same := job.solve_view observer.attending_refines_noting (listener, [])
  exact congrArg (fun answer => answer.1.2) same

/-- The blocks of completed iterations, none of which met the tolerance. -/
structure Completed (job : Job F ε n m) (blocks : List (Block F)) : Prop where
  inOrder : InOrder job.params.estimate.maxUpdates blocks
  unmet : ∀ block ∈ blocks, ¬ block.opening.residual ≤ job.eps

theorem completed_nil (job : Job F ε n m) : job.Completed [] :=
  ⟨inOrder_nil _, List.forall_mem_nil _⟩

theorem Completed.append {job : Job F ε n m} {blocks : List (Block F)} {block : Block F}
    (completed : job.Completed blocks) (drafts : job.Drafts blocks.length block.toDraft)
    (own : block.last.iteration = blocks.length) : job.Completed (blocks ++ [block]) := by
  refine ⟨completed.inOrder.append { drafts.isOf with last := own }, ?_⟩
  intro other member
  rcases List.mem_append.mp member with before | latest
  · exact completed.unmet other before
  · cases List.mem_singleton.mp latest
    exact drafts.unmet

/-- What is heard after the complete blocks of a solve, and the answer to it. -/
inductive Closes (job : Job F ε n m) :
    List (Block F) → List (Signal F) → Except (SolveError F ε) (Solution F n m) → Prop
  | unstarted {cause} : Closes job [] [] (.error (.oracle cause))
  | unbounded {lipschitz} : job.InitialEstimate lipschitz → Scalar.isFinite lipschitz = false →
    Closes job [] [] (.error (.stepSize 0 0 lipschitz))
  | interrupted {blocks} : blocks.length < job.params.maxIter →
    Closes job blocks [.asked blocks.length true] (.error (.interrupted blocks.length))
  | unmeasured {blocks cause} : blocks.length < job.params.maxIter →
    Closes job blocks [.asked blocks.length false] (.error (.oracle cause))
  | converged {blocks} {opening : IterationReport F} {solution : Solution F n m} :
    blocks.length < job.params.maxIter →
    opening.iteration = blocks.length → opening.residual ≤ job.eps →
    solution.summary.iterations = blocks.length → solution.summary.residual = opening.residual →
    Closes job blocks [.asked blocks.length false, .told (.iteration opening),
      .told (.finished solution.summary)] (.ok solution)
  | failed {blocks draft cause} : blocks.length < job.params.maxIter →
    job.Drafts blocks.length draft →
    Closes job blocks (.asked blocks.length false :: draft.events.map .told)
      (.error (.oracle cause))
  | stepSize {blocks draft} : blocks.length < job.params.maxIter →
    job.Drafts blocks.length draft → draft.retries = [] →
    draft.tightenings.length = job.params.estimate.maxUpdates →
    Closes job blocks (.asked blocks.length false :: draft.events.map .told)
      (.error (.stepSize blocks.length job.params.estimate.maxUpdates draft.lipschitz))
  | iterationLimit {blocks last} : blocks.length + 1 = job.params.maxIter →
    Closes job (blocks ++ [last]) []
      (.error (.iterationLimit job.params.maxIter last.opening.residual))

/-- An iteration that fails closes the transcript. -/
theorem IterationShape.closes_error {job : Job F ε n m} {blocks : List (Block F)}
    {events : List (Event F)} {error : SolveError F ε}
    (shape : job.IterationShape blocks.length events (.error error))
    (permitted : blocks.length < job.params.maxIter) :
    job.Closes blocks (.asked blocks.length false :: events.map .told) (.error error) := by
  cases shape with
  | unmeasured => exact .unmeasured permitted
  | failed drafts => exact .failed permitted drafts
  | stepSize drafts none_rejected all => exact .stepSize permitted drafts none_rejected all

/-- An iteration that converges closes the transcript. -/
theorem IterationShape.closes_converged {job : Job F ε n m} {blocks : List (Block F)}
    {events : List (Event F)} {solution : Solution F n m}
    (shape : job.IterationShape blocks.length events (.ok (.converged solution)))
    (permitted : blocks.length < job.params.maxIter) :
    job.Closes blocks (.asked blocks.length false :: events.map .told) (.ok solution) := by
  cases shape with
  | converged own met iterations residual => exact .converged permitted own met iterations residual

/-- An iteration that is completed adds a block. -/
theorem IterationShape.block {job : Job F ε n m} {k : Nat} {events : List (Event F)} {residual : F}
    {next : State F n m job.depth}
    (shape : job.IterationShape k events (.ok (.advanced residual next))) :
    ∃ block : Block F, job.Drafts k block.toDraft ∧ block.last.iteration = k ∧
      .asked k false :: events.map .told = block.signals ∧ block.opening.residual = residual := by
  cases shape with
  | @advanced block _ drafts own =>
    refine ⟨block, drafts, own, ?_, rfl⟩
    rw [Block.signals, drafts.isOf.opening]

/-- The transcript of a run is that of complete blocks and of how it closes. -/
theorem run_transcript {job : Job F ε n m} {blocks : List (Block F)}
    {heard : σ × List (Signal F)} {left iteration : Nat} (state : State F n m job.depth)
    (completed : job.Completed blocks) (own : blocks.length = iteration)
    (signals : heard.2 = blocks.flatMap Block.signals) (observer : Observer F σ)
    (permitted : iteration + left + 1 = job.params.maxIter) :
    ∃ blocks' closing, job.Completed blocks' ∧
      (job.run observer.attending left iteration state heard).1.2 =
        blocks'.flatMap Block.signals ++ closing ∧
      job.Closes blocks' closing (job.run observer.attending left iteration state heard).2 := by
  fun_induction Job.run job observer.attending left iteration state heard generalizing blocks with
  | case1 left iteration state heard after asked =>
    subst own
    exact ⟨blocks, _, completed, signals ▸ Observer.heard_of_asked asked,
      .interrupted (by omega)⟩
  | case2 left iteration state heard after asked block told error =>
    rename_i failed
    subst own
    have shape := job.iterate_shape blocks.length state
    rw [failed] at shape
    exact ⟨blocks, _, completed, signals ▸ Observer.heard_iteration asked _,
      shape.closes_error (by omega)⟩
  | case3 left iteration state heard after asked block told solution =>
    rename_i converged
    subst own
    have shape := job.iterate_shape blocks.length state
    rw [converged] at shape
    exact ⟨blocks, _, completed, signals ▸ Observer.heard_iteration asked _,
      shape.closes_converged (by omega)⟩
  | case4 iteration state heard after asked block told residual next =>
    rename_i advanced
    subst own
    have shape := job.iterate_shape blocks.length state
    rw [advanced] at shape
    obtain ⟨last, drafts, own, signals_last, rfl⟩ := shape.block
    refine ⟨blocks ++ [last], [], completed.append drafts own, ?_, ?_⟩
    · rw [List.flatMap_append, List.flatMap_singleton, ← signals_last, List.append_nil, ← signals]
      exact Observer.heard_iteration asked _
    · rw [show blocks.length + 1 = job.params.maxIter from permitted]
      exact .iterationLimit permitted
  | case5 iteration state heard after asked block told residual next =>
    rename_i advanced left ih
    subst own
    have shape := job.iterate_shape blocks.length state
    rw [advanced] at shape
    obtain ⟨last, drafts, own, signals_last, rfl⟩ := shape.block
    refine ih (completed.append drafts own) List.length_append ?_ (by omega)
    rw [List.flatMap_append, List.flatMap_singleton, ← signals_last, ← signals]
    exact Observer.heard_iteration asked _

/-- The transcript of a solve is that of complete blocks and of how it closes. -/
theorem solve_transcript (job : Job F ε n m) (observer : Observer F σ) (listener : σ) :
    ∃ blocks closing, job.Completed blocks ∧
      job.transcript observer listener = blocks.flatMap Block.signals ++ closing ∧
      job.Closes blocks closing (job.solve observer listener).2 := by
  rw [← job.solve_attending observer listener]
  unfold transcript Job.solve
  cases started : job.start with
  | error error =>
    rcases start_eq_error started with ⟨cause, rfl⟩ | ⟨lipschitz, estimate, unbounded, rfl⟩
    · exact ⟨[], [], job.completed_nil, rfl, .unstarted⟩
    · exact ⟨[], [], job.completed_nil, rfl, .unbounded estimate unbounded⟩
  | ok state =>
    have positive : 0 < job.params.maxIter := job.params_valid .maxIter
    have permitted : 0 + (job.params.maxIter - 1) + 1 = job.params.maxIter := by omega
    exact run_transcript state job.completed_nil rfl rfl observer permitted

end Job

/-! ## Reading the answer off the transcript -/

/-- The signal is the last one of a complete block. -/
def Signal.endsBlock {F : Type} : Signal F → Bool
  | .told (.accepted _) => true
  | .told (.stalled _) => true
  | _ => false

/-- The report that opens an iteration. -/
def Signal.opening? {F : Type} : Signal F → Option (IterationReport F)
  | .told (.iteration report) => some report
  | _ => none

section Signals

variable {F : Type}

@[simp]
theorem endsBlock_verdict (accepted : Bool) (last : TrialReport F) :
    Signal.endsBlock (.told (verdict accepted last)) = true := by
  cases accepted <;> rfl

@[simp]
theorem opening?_verdict (accepted : Bool) (last : TrialReport F) :
    Signal.opening? (.told (verdict accepted last)) = none := by
  cases accepted <;> rfl

/-- No signal before the end of its search ends a block. -/
theorem countP_endsBlock_draft (draft : Draft F) :
    (draft.events.map Signal.told).countP Signal.endsBlock = 0 := by
  simp [Draft.events, Signal.endsBlock, List.countP_eq_zero]

theorem filterMap_opening_draft (draft : Draft F) :
    (draft.events.map Signal.told).filterMap Signal.opening? = [draft.opening] := by
  have others : (draft.tightenings.map Event.tightened ++
      draft.retries.map Event.rejected).filterMap (Signal.opening? ∘ .told) = [] := by
    simp [List.filterMap_eq_nil_iff, Signal.opening?]
  rw [Draft.events, List.filterMap_map, List.filterMap_cons, others]
  rfl

/-- As many signals end a block as there are blocks. -/
theorem countP_endsBlock_blocks (blocks : List (Block F)) :
    (blocks.flatMap Block.signals).countP Signal.endsBlock = blocks.length := by
  induction blocks with
  | nil => rfl
  | cons block rest ih =>
    have own : block.signals.countP Signal.endsBlock = 1 := by
      rw [Block.signals, Block.events, List.map_append, List.countP_cons, List.countP_append,
        countP_endsBlock_draft, List.map_singleton, List.countP_singleton, endsBlock_verdict]
      rfl
    rw [List.flatMap_cons, List.countP_append, ih, own, List.length_cons, Nat.add_comm]

/-- The openings among the signals of blocks are those of the blocks. -/
theorem filterMap_opening (blocks : List (Block F)) :
    (blocks.flatMap Block.signals).filterMap Signal.opening? = blocks.map (·.opening) := by
  induction blocks with
  | nil => rfl
  | cons block rest ih =>
    have own : block.signals.filterMap Signal.opening? = [block.opening] := by
      rw [Block.signals, Block.events, List.map_append, List.filterMap_cons, List.filterMap_append,
        filterMap_opening_draft, List.map_singleton, List.filterMap_cons, opening?_verdict]
      rfl
    rw [List.flatMap_cons, List.filterMap_append, ih, own, List.map_cons, List.singleton_append]

theorem told_finished_not_mem (blocks : List (Block F)) (summary : Summary F) :
    .told (.finished summary) ∉ blocks.flatMap Block.signals := by
  intro member
  obtain ⟨block, -, own⟩ := List.mem_flatMap.mp member
  cases accepted : block.accepted <;>
    simp [Block.signals, Block.events, Draft.events, verdict, accepted] at own

theorem asked_true_not_mem (blocks : List (Block F)) (k : Nat) :
    .asked k true ∉ blocks.flatMap Block.signals := by
  intro member
  obtain ⟨block, -, own⟩ := List.mem_flatMap.mp member
  simp [Block.signals] at own

theorem told_iteration_mem_iff (blocks : List (Block F)) (report : IterationReport F) :
    .told (.iteration report) ∈ blocks.flatMap Block.signals ↔
      report ∈ blocks.map (·.opening) := by
  rw [← filterMap_opening, List.mem_filterMap]
  constructor
  · intro member
    exact ⟨_, member, rfl⟩
  · intro found
    obtain ⟨signal, member, opens⟩ := found
    unfold Signal.opening? at opens
    split at opens
    · cases opens
      exact member
    · cases opens

end Signals

namespace Job

variable {job : Job F ε n m} {blocks : List (Block F)} {closing : List (Signal F)}
  {answer : Except (SolveError F ε) (Solution F n m)}

/-- Only a solve that converges is told to have finished. -/
theorem Closes.of_finished (closes : job.Closes blocks closing answer) {summary : Summary F}
    (member : .told (.finished summary) ∈ closing) :
    ∃ solution, answer = .ok solution ∧ solution.summary = summary := by
  cases closes with
  | converged =>
    simp only [List.mem_cons, Signal.told.injEq, Event.finished.injEq, reduceCtorEq, false_or,
      List.not_mem_nil, or_false] at member
    exact ⟨_, rfl, member.symm⟩
  | failed => simp [Draft.events] at member
  | stepSize => simp [Draft.events] at member
  | _ => simp at member

/-- Only a solve that is interrupted has been told to stop. -/
theorem Closes.of_asked_true (closes : job.Closes blocks closing answer) {k : Nat}
    (member : .asked k true ∈ closing) :
    answer = .error (.interrupted k) ∧ blocks.length = k ∧ closing = [.asked k true] := by
  cases closes with
  | interrupted =>
    simp only [List.mem_singleton, Signal.asked.injEq, and_true] at member
    subst member
    exact ⟨rfl, rfl, rfl⟩
  | failed => simp at member
  | stepSize => simp at member
  | _ => simp at member

/-- No block ends after the complete ones. -/
theorem Closes.countP_endsBlock (closes : job.Closes blocks closing answer) :
    closing.countP Signal.endsBlock = 0 := by
  cases closes with
  | failed => exact countP_endsBlock_draft _
  | stepSize => exact countP_endsBlock_draft _
  | _ => rfl

/-- As many blocks as iterations are permitted are complete only at the limit. -/
theorem Closes.of_length (closes : job.Closes blocks closing answer)
    (all : blocks.length = job.params.maxIter) :
    ∃ earlier last, blocks = earlier ++ [last] ∧ closing = [] ∧
      answer = .error (.iterationLimit job.params.maxIter last.opening.residual) := by
  have positive : 0 < job.params.maxIter := job.params_valid .maxIter
  cases closes with
  | iterationLimit => exact ⟨_, _, rfl, rfl, rfl⟩
  | unstarted =>
    rw [List.length_nil] at all
    omega
  | unbounded =>
    rw [List.length_nil] at all
    omega
  | _ => omega

/-- What is heard of an iteration that is not completed. -/
inductive Fragment (limit k : Nat) : List (Signal F) → Prop
  | nothing : Fragment limit k []
  | asked {stop} : Fragment limit k [.asked k stop]
  | draft {draft : Draft F} : draft.IsOf limit k →
    Fragment limit k (.asked k false :: draft.events.map .told)
  | finished {opening : IterationReport F} {summary} : opening.iteration = k →
    Fragment limit k [.asked k false, .told (.iteration opening), .told (.finished summary)]

theorem Closes.fragment (closes : job.Closes blocks closing answer) :
    Fragment job.params.estimate.maxUpdates blocks.length closing := by
  cases closes with
  | unstarted => exact .nothing
  | unbounded => exact .nothing
  | interrupted => exact .asked
  | unmeasured => exact .asked
  | converged _ own => exact .finished own
  | failed _ drafts => exact .draft drafts.isOf
  | stepSize _ drafts => exact .draft drafts.isOf
  | iterationLimit => exact .nothing

theorem Closes.converged_iff (closes : job.Closes blocks closing answer) (summary : Summary F) :
    (∃ solution, answer = .ok solution ∧ solution.summary = summary) ↔
      ∃ before opening, blocks.flatMap Block.signals ++ closing =
          before ++ [.told (.iteration opening), .told (.finished summary)] ∧
        opening.residual ≤ job.eps ∧ summary.iterations = opening.iteration ∧
        summary.residual = opening.residual := by
  constructor
  · intro succeeded
    obtain ⟨solution, rfl, rfl⟩ := succeeded
    cases closes with
    | @converged _ opening _ permitted own met iterations residual =>
      refine ⟨blocks.flatMap Block.signals ++ [.asked blocks.length false], opening, ?_, met,
        iterations.trans own.symm, residual⟩
      rw [List.append_assoc, List.singleton_append]
  · intro ends
    obtain ⟨before, opening, same, -⟩ := ends
    have member : .told (.finished summary) ∈ blocks.flatMap Block.signals ++ closing := by
      rw [same]
      simp
    rcases List.mem_append.mp member with inside | after
    · exact absurd inside (told_finished_not_mem blocks summary)
    · exact closes.of_finished after

theorem Closes.iterationLimit_iff (closes : job.Closes blocks closing answer)
    (inOrder : InOrder job.params.estimate.maxUpdates blocks) (iterations : Nat) (residual : F) :
    answer = .error (.iterationLimit iterations residual) ↔
      iterations = job.params.maxIter ∧ ∃ earlier last,
        InOrder job.params.estimate.maxUpdates (earlier ++ [last]) ∧
        blocks.flatMap Block.signals ++ closing = (earlier ++ [last]).flatMap Block.signals ∧
        (earlier ++ [last]).length = job.params.maxIter ∧ last.opening.residual = residual := by
  constructor
  · intro failed
    subst failed
    cases closes with
    | @iterationLimit earlier last all =>
      refine ⟨rfl, earlier, last, inOrder, List.append_nil _, ?_, rfl⟩
      rw [List.length_append]
      exact all
  · intro complete
    obtain ⟨rfl, earlier, last, -, same, all, rfl⟩ := complete
    -- both splits have as many blocks as there are signals that end one
    have count := congrArg (·.countP Signal.endsBlock) same
    simp only [List.countP_append, countP_endsBlock_blocks, closes.countP_endsBlock,
      Nat.add_zero] at count
    obtain ⟨earlier', last', rfl, rfl, rfl⟩ := closes.of_length (count.trans all)
    have openings := congrArg (·.filterMap Signal.opening?) same
    simp only [List.append_nil, filterMap_opening, List.map_append, List.map_singleton] at openings
    have same_last := (List.append_inj' openings rfl).2
    rw [List.singleton_inj.mp same_last]

theorem Closes.unmet (closes : job.Closes blocks closing answer) (completed : job.Completed blocks)
    {iterations : Nat} {residual : F}
    (failed : answer = .error (.iterationLimit iterations residual)) {opening : IterationReport F}
    (member : .told (.iteration opening) ∈ blocks.flatMap Block.signals ++ closing) :
    ¬ opening.residual ≤ job.eps := by
  subst failed
  cases closes with
  | iterationLimit =>
    rw [List.append_nil, told_iteration_mem_iff] at member
    obtain ⟨block, inside, rfl⟩ := List.mem_map.mp member
    exact completed.unmet block inside

theorem Closes.interrupted_iff (closes : job.Closes blocks closing answer) (k : Nat) :
    answer = .error (.interrupted k) ↔
      .asked k true ∈ blocks.flatMap Block.signals ++ closing := by
  constructor
  · intro failed
    subst failed
    cases closes with
    | interrupted => simp
  · intro member
    rcases List.mem_append.mp member with inside | after
    · exact absurd inside (asked_true_not_mem blocks k)
    · exact (closes.of_asked_true after).1

theorem Closes.stopped (closes : job.Closes blocks closing answer) {k : Nat}
    (member : .asked k true ∈ blocks.flatMap Block.signals ++ closing) :
    blocks.length = k ∧ closing = [.asked k true] := by
  rcases List.mem_append.mp member with inside | after
  · exact absurd inside (asked_true_not_mem blocks k)
  · exact (closes.of_asked_true after).2

theorem Closes.of_stepSize {k updates : Nat} {lipschitz : F}
    (closes : job.Closes blocks closing (.error (.stepSize k updates lipschitz))) :
    (blocks = [] ∧ closing = [] ∧ k = 0 ∧ updates = 0 ∧ job.InitialEstimate lipschitz ∧
      Scalar.isFinite lipschitz = false) ∨
    ∃ draft : Draft F, blocks.length = k ∧
      closing = .asked k false :: draft.events.map .told ∧
      draft.IsOf job.params.estimate.maxUpdates k ∧ draft.retries = [] ∧
      draft.tightenings.length = job.params.estimate.maxUpdates ∧
      updates = job.params.estimate.maxUpdates ∧ lipschitz = draft.lipschitz := by
  cases closes with
  | unbounded estimate unbounded => exact Or.inl ⟨rfl, rfl, rfl, rfl, estimate, unbounded⟩
  | @stepSize _ draft permitted drafts none_rejected all =>
    exact Or.inr ⟨draft, rfl, rfl, drafts.isOf, none_rejected, all, rfl, rfl⟩

/-- A run begins by asking before the first iteration, whatever it comes to. -/
theorem Closes.begun (closes : job.Closes blocks closing answer)
    (inOrder : InOrder job.params.estimate.maxUpdates blocks) :
    (∃ stop rest, blocks.flatMap Block.signals ++ closing = .asked 0 stop :: rest) ∨
      (blocks.flatMap Block.signals ++ closing = [] ∧
        ((∃ cause, answer = .error (.oracle cause)) ∨
          ∃ lipschitz, answer = .error (.stepSize 0 0 lipschitz))) := by
  cases complete : blocks with
  | cons first rest =>
    subst complete
    have own : first.opening.iteration = 0 := (inOrder 0 first rfl).opening
    rw [List.flatMap_cons, Block.signals, own]
    exact Or.inl ⟨false, _, rfl⟩
  | nil =>
    cases closes with
    | unstarted => exact Or.inr ⟨rfl, Or.inl ⟨_, rfl⟩⟩
    | unbounded => exact Or.inr ⟨rfl, Or.inr ⟨_, rfl⟩⟩
    | interrupted =>
      subst complete
      exact Or.inl ⟨true, _, rfl⟩
    | iterationLimit => exact absurd complete (List.append_ne_nil_of_right_ne_nil _ nofun)
    | _ =>
      subst complete
      exact Or.inl ⟨false, _, rfl⟩

theorem Closes.answered (closes : job.Closes blocks closing answer) :
    (∃ solution, answer = .ok solution) ∨
      (∃ iterations residual, answer = .error (.iterationLimit iterations residual)) ∨
      (∃ k updates lipschitz, answer = .error (.stepSize k updates lipschitz)) ∨
      (∃ k, answer = .error (.interrupted k)) ∨ ∃ cause, answer = .error (.oracle cause) := by
  cases closes with
  | converged => exact Or.inl ⟨_, rfl⟩
  | iterationLimit => exact Or.inr (Or.inl ⟨_, _, rfl⟩)
  | unbounded => exact Or.inr (Or.inr (Or.inl ⟨_, _, _, rfl⟩))
  | stepSize => exact Or.inr (Or.inr (Or.inl ⟨_, _, _, rfl⟩))
  | interrupted => exact Or.inr (Or.inr (Or.inr (Or.inl ⟨_, rfl⟩)))
  | _ => exact Or.inr (Or.inr (Or.inr (Or.inr ⟨_, rfl⟩)))

theorem Closes.of_oracle {cause : ε} (closes : job.Closes blocks closing (.error (.oracle cause))) :
    (blocks = [] ∧ closing = []) ∨ blocks.length < job.params.maxIter ∧
      (closing = [.asked blocks.length false] ∨
        ∃ draft : Draft F, draft.IsOf job.params.estimate.maxUpdates blocks.length ∧
          closing = .asked blocks.length false :: draft.events.map .told) := by
  cases closes with
  | unstarted => exact Or.inl ⟨rfl, rfl⟩
  | unmeasured permitted => exact Or.inr ⟨permitted, Or.inl rfl⟩
  | failed permitted drafts => exact Or.inr ⟨permitted, Or.inr ⟨_, drafts.isOf, rfl⟩⟩

/-- What the signals of a solve and its answer say of each other. -/
structure Protocol (job : Job F ε n m) (signals : List (Signal F))
    (answer : Except (SolveError F ε) (Solution F n m)) : Prop where
  /-- The signals are those of the blocks of the first iterations and then of a
  part of one more iteration. -/
  framed : ∃ blocks rest, InOrder job.params.estimate.maxUpdates blocks ∧
    signals = blocks.flatMap Block.signals ++ rest ∧
    Fragment job.params.estimate.maxUpdates blocks.length rest
  /-- A run begins by asking whether to stop before its first iteration. A solve without a
  signal has failed because a function of the problem did, or for its first step size. -/
  begun : (∃ stop rest, signals = .asked 0 stop :: rest) ∨
    (signals = [] ∧ ((∃ cause, answer = .error (.oracle cause)) ∨
      ∃ lipschitz, answer = .error (.stepSize 0 0 lipschitz)))
  /-- A solve that does not succeed fails in one of four ways. -/
  answered : (∃ solution, answer = .ok solution) ∨
    (∃ iterations residual, answer = .error (.iterationLimit iterations residual)) ∨
    (∃ k updates lipschitz, answer = .error (.stepSize k updates lipschitz)) ∨
    (∃ k, answer = .error (.interrupted k)) ∨ ∃ cause, answer = .error (.oracle cause)
  /-- A solve succeeds exactly when it ends by reporting a residual within the
  tolerance and that it has finished. -/
  converged : ∀ summary, (∃ solution, answer = .ok solution ∧ solution.summary = summary) ↔
    ∃ before opening,
      signals = before ++ [.told (.iteration opening), .told (.finished summary)] ∧
      opening.residual ≤ job.eps ∧ summary.iterations = opening.iteration ∧
      summary.residual = opening.residual
  /-- A solve fails for the number of iterations exactly when all that are
  permitted are complete, and then with the residual of the last one. -/
  iterationLimit : ∀ iterations residual,
    answer = .error (.iterationLimit iterations residual) ↔
      iterations = job.params.maxIter ∧ ∃ earlier last,
        InOrder job.params.estimate.maxUpdates (earlier ++ [last]) ∧
        signals = (earlier ++ [last]).flatMap Block.signals ∧
        (earlier ++ [last]).length = job.params.maxIter ∧ last.opening.residual = residual
  /-- It has then met the tolerance in no iteration. -/
  unmet : ∀ iterations residual, answer = .error (.iterationLimit iterations residual) →
    ∀ opening, .told (.iteration opening) ∈ signals → ¬ opening.residual ≤ job.eps
  /-- A solve is interrupted exactly when it has been told to stop. -/
  interrupted : ∀ k, answer = .error (.interrupted k) ↔ .asked k true ∈ signals
  /-- It is told to stop at most once, after which there are no more signals. -/
  stopped : ∀ k, .asked k true ∈ signals →
    ∃ blocks, InOrder job.params.estimate.maxUpdates blocks ∧ blocks.length = k ∧
      signals = blocks.flatMap Block.signals ++ [.asked k true]
  /-- A solve fails for the step size only before its first signal, with an initial
  estimate that is not finite, or after the last tightening that an iteration is
  permitted, with the estimate reported last. -/
  stepSize : ∀ k updates lipschitz, answer = .error (.stepSize k updates lipschitz) →
    (signals = [] ∧ k = 0 ∧ updates = 0 ∧ job.InitialEstimate lipschitz ∧
      Scalar.isFinite lipschitz = false) ∨
    ∃ (blocks : List (Block F)) (draft : Draft F),
      InOrder job.params.estimate.maxUpdates blocks ∧ blocks.length = k ∧
      signals = blocks.flatMap Block.signals ++ .asked k false :: draft.events.map .told ∧
      draft.IsOf job.params.estimate.maxUpdates k ∧ draft.retries = [] ∧
      draft.tightenings.length = job.params.estimate.maxUpdates ∧
      updates = job.params.estimate.maxUpdates ∧ lipschitz = draft.lipschitz
  /-- A function of the problem fails before the first signal, or in an iteration that is
  permitted: before it reports anything, or after a part of its reports. -/
  oracle : ∀ cause, answer = .error (.oracle cause) → signals = [] ∨
    ∃ blocks, InOrder job.params.estimate.maxUpdates blocks ∧
      blocks.length < job.params.maxIter ∧
      (signals = blocks.flatMap Block.signals ++ [.asked blocks.length false] ∨
        ∃ draft : Draft F, draft.IsOf job.params.estimate.maxUpdates blocks.length ∧
          signals = blocks.flatMap Block.signals ++
            .asked blocks.length false :: draft.events.map .told)

/-- **The protocol of a solve.** Under every observer and whatever the functions of
the problem answer, what is heard of a solve consists of the blocks of its
iterations in their order, and its answer is determined by it. -/
theorem transcript_protocol (job : Job F ε n m) {σ : Type} (observer : Observer F σ)
    (listener : σ) :
    job.events observer listener = (job.transcript observer listener).filterMap Signal.event? ∧
      job.Protocol (job.transcript observer listener) (job.solve observer listener).2 := by
  refine ⟨job.events_eq_transcript observer listener, ?_⟩
  obtain ⟨blocks, closing, completed, signals, closes⟩ := job.solve_transcript observer listener
  rw [signals]
  refine ⟨⟨blocks, closing, completed.inOrder, rfl, closes.fragment⟩,
    closes.begun completed.inOrder, closes.answered, closes.converged_iff,
    closes.iterationLimit_iff completed.inOrder, ?unmet, closes.interrupted_iff, ?stopped,
    ?stepSize, ?oracle⟩
  case unmet =>
    intro iterations residual failed opening member
    exact closes.unmet completed failed member
  case stopped =>
    intro k member
    obtain ⟨count, rfl⟩ := closes.stopped member
    exact ⟨blocks, completed.inOrder, count, rfl⟩
  case stepSize =>
    intro k updates lipschitz failed
    rw [failed] at closes
    rcases closes.of_stepSize with ⟨rfl, rfl, rest⟩ | ⟨draft, count, rfl, rest⟩
    · exact Or.inl ⟨rfl, rest⟩
    · exact Or.inr ⟨blocks, draft, completed.inOrder, count, rfl, rest⟩
  case oracle =>
    intro cause failed
    rw [failed] at closes
    rcases closes.of_oracle with ⟨rfl, rfl⟩ | ⟨permitted, rfl | ⟨draft, own, rfl⟩⟩
    · exact Or.inl rfl
    · exact Or.inr ⟨blocks, completed.inOrder, permitted, Or.inl rfl⟩
    · exact Or.inr ⟨blocks, completed.inOrder, permitted, Or.inr ⟨draft, own, rfl⟩⟩

end Job

end ProximalNewton
