import ProximalNewton.Proofs.Coherence
import ProximalNewton.Proofs.RecentPairs

/-!
# What the curvature memory remembers

The pairs in the memory are offered to it one by one, forgotten together when
the step size is tightened, and dropped when newer ones need their room. Which
pairs it holds can nevertheless be read off the points of the iterations alone.
The `stretch` of a point of control holds the points visited since the step size
was last tightened. The memory holds the pairs of consecutive points of the
stretch that were admitted, at most `depth` of them and the latest, each computed
from scratch for the step size in force.

`PairCounts` says what this leaves of the memory in a stream of events.
-/

namespace ProximalNewton

variable {F ε : Type} {n m : Nat}

/-! ## The points since the last tightening -/

section Stretch

variable {depth : Nat}

/-- The points of the iterations back to the last one that tightened the step
size, latest first. -/
def Lap.stretch : List (Lap F n m depth) → List (Vector F n)
  | [] => []
  | lap :: earlier =>
    lap.state.current.x :: if lap.updates = 0 then stretch earlier else []

namespace Point

/-- How often the iteration under way has tightened the step size. -/
def updates : Point F n m depth → Nat
  | ready _ => 0
  | measured .. => 0
  | adapting attempt .. => attempt.updates
  | tightened attempt _ => attempt.updates
  | searching attempt => attempt.updates
  | trying attempt .. => attempt.updates
  | searched attempt _ => attempt.updates
  | converged .. => 0

/-- The points visited since the step size was last tightened, latest first. The
point at which it was tightened is one of them. -/
def stretch (laps : List (Lap F n m depth)) (point : Point F n m depth) : List (Vector F n) :=
  point.state.current.x :: if point.updates = 0 then Lap.stretch laps else []

end Point

end Stretch

/-! ## Pair counts in a stream of events -/

/-- An iteration reports a tightening of the step size. -/
def TightenedIn (events : List (Event F)) (iteration : Nat) : Prop :=
  ∃ report, .tightened report ∈ events ∧ report.iteration = iteration

/-- The number of pairs that may be held after an iteration with this report. -/
structure CountAfter (depth : Nat) (events : List (Event F)) (report : IterationReport F)
    (pairs : Nat) : Prop where
  forgotten : TightenedIn events report.iteration → pairs ≤ 1
  grown : ¬ TightenedIn events report.iteration →
    pairs = report.pairs ∨ pairs = min (report.pairs + 1) depth

/-- What the reports of a run say of the number of pairs held. -/
structure PairCounts (depth : Nat) (events : List (Event F)) : Prop where
  first : ∀ report, .iteration report ∈ events → report.iteration = 0 → report.pairs = 0
  bounded : ∀ report, .iteration report ∈ events → report.pairs ≤ depth
  next : ∀ before after, .iteration before ∈ events → .iteration after ∈ events →
    after.iteration = before.iteration + 1 → CountAfter depth events before after.pairs

theorem CountAfter.of_tightened_iff {depth pairs : Nat} {events events' : List (Event F)}
    {report : IterationReport F} (after : CountAfter depth events report pairs)
    (same : TightenedIn events' report.iteration ↔ TightenedIn events report.iteration) :
    CountAfter depth events' report pairs :=
  ⟨fun tightened => after.forgotten (same.mp tightened),
    fun kept => after.grown fun tightened => kept (same.mpr tightened)⟩

/-- What a stream of events says of the pairs after `done` iterations, when the
memory holds `size` of them. -/
structure CountedBefore (depth done : Nat) (events : List (Event F)) (size : Nat) : Prop where
  counts : PairCounts depth events
  iteration_lt : ∀ report, .iteration report ∈ events → report.iteration < done
  tightened_lt : ∀ report, .tightened report ∈ events → report.iteration < done
  initial : done = 0 → size = 0
  last : ∀ report, .iteration report ∈ events → report.iteration + 1 = done →
    CountAfter depth events report size

/-- What a stream of events says of the pairs during the iteration after `done`
others, once it has reported, when the memory holds `size` of them. -/
structure CountedDuring (depth done : Nat) (events : List (Event F)) (size : Nat) : Prop where
  counts : PairCounts depth events
  iteration_le : ∀ report, .iteration report ∈ events → report.iteration ≤ done
  tightened_le : ∀ report, .tightened report ∈ events → report.iteration ≤ done
  forgotten : TightenedIn events done → size = 0
  kept : ¬ TightenedIn events done →
    ∀ report, .iteration report ∈ events → report.iteration = done → size = report.pairs

section Streams

variable {depth done size : Nat} {events : List (Event F)}

/-- A run without events is before its first iteration. -/
theorem countedBefore_nil : CountedBefore depth 0 ([] : List (Event F)) 0 := by
  refine ⟨⟨?_, ?_, ?_⟩, ?_, ?_, fun _ => rfl, ?_⟩
  all_goals
    intros
    contradiction

/-- An iteration that begins reports the size of the memory. -/
theorem CountedBefore.measure {report : IterationReport F}
    (counted : CountedBefore depth done events size) (room : size ≤ depth)
    (own : report.iteration = done) (pairs_eq : report.pairs = size) :
    CountedDuring depth done (events ++ [.iteration report]) size := by
  obtain ⟨⟨first, bounded, next⟩, iteration_lt, tightened_lt, initial, last⟩ := counted
  have member_iff : ∀ other, Event.iteration other ∈ events ++ [.iteration report] ↔
      .iteration other ∈ events ∨ other = report := by
    intro other
    simp
  have tightened_iff : ∀ iteration, TightenedIn (events ++ [.iteration report]) iteration ↔
      TightenedIn events iteration := by
    intro iteration
    simp [TightenedIn]
  refine ⟨⟨?first, ?bounded, ?next⟩, ?iteration_le, ?tightened_le, ?forgotten, ?kept⟩
  case first =>
    intro other member zero
    rcases (member_iff other).mp member with earlier | rfl
    · exact first other earlier zero
    · rw [pairs_eq]
      exact initial (own.symm.trans zero)
  case bounded =>
    intro other member
    rcases (member_iff other).mp member with earlier | rfl
    · exact bounded other earlier
    · rw [pairs_eq]
      exact room
  case next =>
    intro before after member_before member_after follows
    refine CountAfter.of_tightened_iff ?_ (tightened_iff _)
    rcases (member_iff before).mp member_before with earlier_before | rfl
    · rcases (member_iff after).mp member_after with earlier_after | rfl
      · exact next before after earlier_before earlier_after follows
      · rw [pairs_eq]
        exact last before earlier_before (follows.symm.trans own)
    · -- no report is of a later iteration than the latest
      rcases (member_iff after).mp member_after with earlier_after | rfl
      · have := iteration_lt after earlier_after
        omega
      · omega
  case iteration_le =>
    intro other member
    rcases (member_iff other).mp member with earlier | rfl
    · exact Nat.le_of_lt (iteration_lt other earlier)
    · exact Nat.le_of_eq own
  case tightened_le =>
    intro other member
    exact Nat.le_of_lt (tightened_lt other (by simpa using member))
  case forgotten =>
    intro tightened
    obtain ⟨other, member, same⟩ := (tightened_iff done).mp tightened
    exact absurd same (Nat.ne_of_lt (tightened_lt other member))
  case kept =>
    intro _ other member same
    rcases (member_iff other).mp member with earlier | rfl
    · exact absurd same (Nat.ne_of_lt (iteration_lt other earlier))
    · exact pairs_eq.symm

/-- A tightening is reported for the iteration under way and leaves no pair. -/
theorem CountedDuring.tighten {report : TighteningReport F}
    (counted : CountedDuring depth done events size) (own : report.iteration = done) :
    CountedDuring depth done (events ++ [.tightened report]) 0 := by
  obtain ⟨⟨first, bounded, next⟩, iteration_le, tightened_le, -, -⟩ := counted
  have member_iff : ∀ other, Event.iteration other ∈ events ++ [.tightened report] ↔
      .iteration other ∈ events := by
    intro other
    simp
  refine ⟨⟨?first, ?bounded, ?next⟩, ?iteration_le, ?tightened_le, ?forgotten, ?kept⟩
  case first =>
    intro other member
    exact first other ((member_iff other).mp member)
  case bounded =>
    intro other member
    exact bounded other ((member_iff other).mp member)
  case next =>
    intro before after member_before member_after follows
    have after_le := iteration_le after ((member_iff after).mp member_after)
    refine (next before after ((member_iff before).mp member_before)
      ((member_iff after).mp member_after) follows).of_tightened_iff ?_
    -- an iteration with a successor is not the one that tightens now
    constructor
    · intro tightened
      rcases tightened with ⟨other, member, same⟩
      rcases List.mem_append.mp member with earlier | latest
      · exact ⟨other, earlier, same⟩
      · cases List.mem_singleton.mp latest
        omega
    · intro tightened
      rcases tightened with ⟨other, member, same⟩
      exact ⟨other, List.mem_append_left _ member, same⟩
  case iteration_le =>
    intro other member
    exact iteration_le other ((member_iff other).mp member)
  case tightened_le =>
    intro other member
    rcases List.mem_append.mp member with earlier | latest
    · exact tightened_le other earlier
    · cases List.mem_singleton.mp latest
      exact Nat.le_of_eq own
  case forgotten =>
    intro _
    rfl
  case kept =>
    intro untightened
    exact absurd ⟨report, List.mem_append_right _ (List.mem_singleton.mpr rfl), own⟩ untightened

/-- Other events say nothing of the pairs. -/
theorem CountedDuring.append {event : Event F} (counted : CountedDuring depth done events size)
    (no_iteration : ∀ report, event ≠ .iteration report)
    (no_tightening : ∀ report, event ≠ .tightened report) :
    CountedDuring depth done (events ++ [event]) size := by
  have iteration_iff : ∀ report, Event.iteration report ∈ events ++ [event] ↔
      .iteration report ∈ events := by
    intro report
    simp [(no_iteration report).symm]
  have tightening_iff : ∀ report, Event.tightened report ∈ events ++ [event] ↔
      .tightened report ∈ events := by
    intro report
    simp [(no_tightening report).symm]
  have tightened_iff : ∀ iteration, TightenedIn (events ++ [event]) iteration ↔
      TightenedIn events iteration := by
    intro iteration
    simp only [TightenedIn, tightening_iff]
  obtain ⟨⟨first, bounded, next⟩, iteration_le, tightened_le, forgotten, kept⟩ := counted
  refine ⟨⟨?_, ?_, ?_⟩, ?_, ?_, ?_, ?_⟩
  · simpa only [iteration_iff] using first
  · simpa only [iteration_iff] using bounded
  · intro before after member_before member_after follows
    exact (next before after ((iteration_iff before).mp member_before)
      ((iteration_iff after).mp member_after) follows).of_tightened_iff (tightened_iff _)
  · simpa only [iteration_iff] using iteration_le
  · simpa only [tightening_iff] using tightened_le
  · simpa only [tightened_iff] using forgotten
  · simpa only [tightened_iff, iteration_iff] using kept

/-- An iteration ends with at most one pair more. -/
theorem CountedDuring.advance {size' : Nat} (counted : CountedDuring depth done events size)
    (offered : size' = size ∨ size' = min (size + 1) depth) :
    CountedBefore depth (done + 1) events size' := by
  obtain ⟨counts, iteration_le, tightened_le, forgotten, kept⟩ := counted
  refine ⟨counts, ?_, ?_, nofun, ?_⟩
  · intro report member
    exact Nat.lt_succ_of_le (iteration_le report member)
  · intro report member
    exact Nat.lt_succ_of_le (tightened_le report member)
  · intro report member latest
    have own : report.iteration = done := Nat.succ.inj latest
    constructor
    · intro tightened
      have empty := forgotten (own ▸ tightened)
      omega
    · intro untightened
      rw [← kept (own ▸ untightened) report member own]
      exact offered

end Streams

variable [Scalar F]

/-! ## What an offer changes -/

namespace CurvatureMemory

variable {depth : Nat}

/-- An offer adds at most one pair, and none that there is no room for. -/
theorem size_offer (memory : CurvatureMemory F n depth) (s y : Vector F n) :
    (memory.offer s y).size = memory.size ∨
      (memory.offer s y).size = min (memory.size + 1) depth := by
  unfold offer
  split
  · exact Or.inr rfl
  · exact Or.inl rfl

end CurvatureMemory

namespace Job

/-! ## The pairs along a stretch -/

/-- The step `R(x) = x - Proj_C(x - γ∇ψ(x))` at a point, from scratch. -/
def proximalStep (job : Job F ε n m) (gamma : F) (x : Vector F n) : Except ε (Vector F n) := do
  let iterate ← job.iterateAt gamma x
  return iterate.r

/-- The pair of two consecutive points. -/
def change (job : Job F ε n m) (gamma : F) (before after : Vector F n) :
    Except ε (CurvaturePair F n) := do
  let stepBefore ← job.proximalStep gamma before
  let stepAfter ← job.proximalStep gamma after
  return .ofChanges (after - before) (stepAfter - stepBefore)

/-- The pairs of consecutive points, latest first. -/
def changes (job : Job F ε n m) (gamma : F) :
    List (Vector F n) → Except ε (List (CurvaturePair F n))
  | after :: before :: earlier => do
    let pair ← job.change gamma before after
    let pairs ← job.changes gamma (before :: earlier)
    return pair :: pairs
  | _ => return []

/-- The curvature along a pair is finite and exceeds `tol ‖s‖ ‖y‖`. -/
def Admits (job : Job F ε n m) (pair : CurvaturePair F n) : Prop :=
  Scalar.isFinite (dot pair.s pair.y) = true ∧
    ¬ dot pair.s pair.y ≤ job.params.memory.curvatureTol * norm pair.s * norm pair.y

instance decidableAdmits (job : Job F ε n m) : DecidablePred job.Admits :=
  fun _ => inferInstanceAs (Decidable (_ ∧ _))

/-- Of pairs latest first, the latest admitted ones that there is room for,
oldest first. -/
def kept (job : Job F ε n m) (pairs : List (CurvaturePair F n)) : List (CurvaturePair F n) :=
  ((pairs.filter fun pair => job.Admits pair).take job.depth).reverse

variable {job : Job F ε n m}

theorem changes_cons_eq_ok {gamma : F} {before after : Vector F n} {earlier : List (Vector F n)}
    {answer : List (CurvaturePair F n)} :
    job.changes gamma (after :: before :: earlier) = .ok answer ↔
      ∃ pair pairs, job.change gamma before after = .ok pair ∧
        job.changes gamma (before :: earlier) = .ok pairs ∧ answer = pair :: pairs := by
  rw [changes]
  simp only [bind_eq_ok]
  constructor
  · intro answered
    rcases answered with ⟨pair, first, pairs, rest, ⟨⟩⟩
    exact ⟨pair, pairs, first, rest, rfl⟩
  · intro made
    rcases made with ⟨pair, pairs, first, rest, rfl⟩
    exact ⟨pair, first, pairs, rest, rfl⟩

/-- Two iterates computed from scratch have the pair of their points. -/
theorem change_of_iterates {gamma : F} {before after : Iterate F n}
    (fresh_before : job.iterateAt gamma before.x = .ok before)
    (fresh_after : job.iterateAt gamma after.x = .ok after) :
    job.change gamma before.x after.x =
      .ok (.ofChanges (after.x - before.x) (after.r - before.r)) := by
  have step_before : job.proximalStep gamma before.x = .ok before.r :=
    bind_eq_ok.mpr ⟨before, fresh_before, rfl⟩
  have step_after : job.proximalStep gamma after.x = .ok after.r :=
    bind_eq_ok.mpr ⟨after, fresh_after, rfl⟩
  unfold change
  simp only [bind_eq_ok]
  exact ⟨_, step_before, _, step_after, rfl⟩

@[simp]
theorem kept_nil (job : Job F ε n m) : job.kept [] = [] := by
  simp [kept]

theorem kept_eq_rtake (pairs : List (CurvaturePair F n)) :
    job.kept pairs = (pairs.filter fun pair => job.Admits pair).reverse.rtake job.depth := by
  unfold kept
  rw [List.rtake_eq_reverse_take_reverse, List.reverse_reverse]

/-! ## The content of the memory -/

/-- The memory at a point holds the admitted pairs of its stretch that there is
room for. -/
def Remembers (job : Job F ε n m) (laps : List (Lap F n m job.depth))
    (point : Point F n m job.depth) : Prop :=
  ∃ pairs, job.changes point.state.step.gamma (point.stretch laps) = .ok pairs ∧
    point.state.memory.pairs.toList = job.kept pairs

variable {laps : List (Lap F n m job.depth)} {events : List (Event F)}
  {point : Point F n m job.depth}

/-- The bound for admission is the one of the settings throughout a run. -/
theorem Reaches.curvatureTol (reached : job.Reaches laps events point) :
    point.state.memory.curvatureTol = job.params.memory.curvatureTol := by
  refine reached.state_invariant
    (fun state => state.memory.curvatureTol = job.params.memory.curvatureTol) ?_ ?_ ?_ ?_
  · intro state started
    obtain ⟨initial, ledger, lipschitz, ledger', -, -, -, rfl⟩ := start_eq_ok started
    rfl
  · intro state ledger same
    exact same
  · intro state same
    exact same
  · intro state result same
    exact (CurvatureMemory.curvatureTol_offer _ _ _).trans same

/-- Offering the pair of two points to the memory keeps it if it is admitted. -/
theorem toList_advance {state : State F n m job.depth} {result : SearchResult F n m}
    {pairs : List (CurvaturePair F n)}
    (same_tol : state.memory.curvatureTol = job.params.memory.curvatureTol)
    (remembered : state.memory.pairs.toList = job.kept pairs) :
    (job.advance state result).memory.pairs.toList =
      job.kept (.ofChanges (result.trial.x - state.current.x) (result.trial.r - state.current.r)
        :: pairs) := by
  have admits_iff : Admissible state.memory.curvatureTol (result.trial.x - state.current.x)
      (result.trial.r - state.current.r) ↔ job.Admits
        (.ofChanges (result.trial.x - state.current.x) (result.trial.r - state.current.r)) := by
    rw [same_tol]
    exact Iff.rfl
  rw [kept_eq_rtake] at remembered ⊢
  unfold advance
  rw [CurvatureMemory.toList_offer_of_held remembered]
  split
  · have admitted := admits_iff.mp ‹_›
    rw [List.filter_cons_of_pos (by simpa using admitted), List.reverse_cons]
  · have refused := mt admits_iff.mpr ‹_›
    rw [List.filter_cons_of_neg (by simpa using refused)]

/-- Wherever a run gets, the memory holds what the stretch says. -/
theorem Reaches.remembers (reached : job.Reaches laps events point) :
    job.Remembers laps point := by
  induction reached with
  | start started =>
    obtain ⟨initial, ledger, lipschitz, ledger', -, -, -, rfl⟩ := start_eq_ok started
    exact ⟨[], rfl, job.kept_nil.symm⟩
  | measure _ _ ih => exact ih
  | converge _ _ ih => exact ih
  | enter _ _ ih => exact ih
  | tighten _ _ _ =>
    -- the stretch starts again at the point of this iteration
    exact ⟨[], rfl, job.kept_nil.symm⟩
  | revalue _ _ ih => exact ih
  | search _ _ ih => exact ih
  | begin _ ih => exact ih
  | reject _ _ _ _ ih => exact ih
  | accept _ _ _ ih => exact ih
  | stall _ _ _ _ ih => exact ih
  | @advance laps events attempt result searched ih =>
    obtain ⟨pairs, changed, remembered⟩ := ih
    have same_tol := searched.curvatureTol
    obtain ⟨fresh_current, fresh_trial⟩ := searched.coherent
    refine ⟨_, ?_, toList_advance same_tol remembered⟩
    -- the stretch grows by the point of the trial
    refine changes_cons_eq_ok.mpr ⟨_, pairs, ?_, changed, rfl⟩
    exact change_of_iterates fresh_current fresh_trial

/-! ## The counts that a run reports -/

/-- What the events reported up to a point say of the memory there. -/
def Counted (laps : List (Lap F n m job.depth)) (events : List (Event F)) :
    Point F n m job.depth → Prop
  | .ready state => CountedBefore job.depth laps.length events state.memory.size
  | point => CountedDuring job.depth laps.length events point.state.memory.size

/-- The reports of a run count the pairs. -/
theorem Reaches.counted (reached : job.Reaches laps events point) :
    Counted laps events point := by
  induction reached with
  | start started =>
    obtain ⟨initial, ledger, lipschitz, ledger', -, -, -, rfl⟩ := start_eq_ok started
    exact countedBefore_nil
  | @measure _ _ state _ _ _ _ ih =>
    exact CountedBefore.measure ih state.memory.pairs.size_le rfl rfl
  | converge _ _ ih => exact CountedDuring.append ih nofun nofun
  | enter _ _ ih => exact ih
  | tighten _ _ ih => exact CountedDuring.tighten ih rfl
  | revalue _ _ ih => exact ih
  | search _ _ ih => exact ih
  | begin _ ih => exact ih
  | reject _ _ _ _ ih => exact CountedDuring.append ih nofun nofun
  | accept _ _ _ ih => exact CountedDuring.append ih nofun nofun
  | stall _ _ _ _ ih => exact CountedDuring.append ih nofun nofun
  | advance _ ih => exact CountedDuring.advance ih (CurvatureMemory.size_offer _ _ _)

theorem Reaches.pairCounts (reached : job.Reaches laps events point) :
    PairCounts job.depth events := by
  have counted := reached.counted
  cases point with
  | ready state => exact CountedBefore.counts counted
  | _ => exact CountedDuring.counts counted

/-- **Content of the curvature memory over whole runs.** Wherever a run gets, and
so where the direction of a search is made, the memory holds, oldest first, the
latest admitted pairs of the points since the last tightening, each computed from
scratch for the step size in force. The counts that a solve reports start at
zero, stay within the depth, fall to at most one after a tightening, and
otherwise stay or grow by one. -/
theorem memory_holds_recent_changes (job : Job F ε n m) :
    (∀ laps events point, job.Reaches laps events point →
      ∃ pairs, job.changes point.state.step.gamma (point.stretch laps) = .ok pairs ∧
        point.state.memory.pairs.toList = job.kept pairs) ∧
    ∀ {σ : Type} (observer : Observer F σ) (listener : σ),
      PairCounts job.depth (job.events observer listener) := by
  refine ⟨fun laps events point reached => reached.remembers, ?_⟩
  intro σ observer listener
  rcases job.solve_ends observer listener with ⟨error, -, none, -⟩ | ⟨laps, point, reached, -⟩
  · rw [none]
    exact (countedBefore_nil).counts
  · exact reached.pairCounts

end Job

end ProximalNewton
