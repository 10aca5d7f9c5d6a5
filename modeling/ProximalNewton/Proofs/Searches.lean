import ProximalNewton.Proofs.CurvatureHistory

/-!
# The searches of a run

An iteration that does not end the run gets to its search, unless its adaptation fails.
`Point.searches` lists the searches that a run has begun on its way to a point, and
`Point.ended` those of them that it has ended, both by iteration. Every report of a trial
then belongs to the search of its iteration (`Job.Reaches.trial_of`), and the last one to
the result of that search (`Job.Reaches.closing_of`).

`Job.Reaches.began` takes a run back to the beginning of one of its searches, and
`Job.Reaches.resumed` compares a search with the one before it: without a tightening in
between it begins with the last trial of that one, at the same step size.
-/

namespace ProximalNewton

variable {F ε : Type} {n m : Nat}

/-! ## Trials in a stream of events -/

section Streams

/-- The trial that an event reports. -/
def Event.trial? : Event F → Option (TrialReport F)
  | .rejected report => some report
  | .accepted report => some report
  | .stalled report => some report
  | .iteration _ => none
  | .tightened _ => none
  | .finished _ => none

/-- The trial that an event reports as the last one of a search. -/
def Event.closing? : Event F → Option (TrialReport F)
  | .accepted report => some report
  | .stalled report => some report
  | .rejected _ => none
  | .iteration _ => none
  | .tightened _ => none
  | .finished _ => none

/-- The events report the trial. -/
def TrialIn (events : List (Event F)) (report : TrialReport F) : Prop :=
  ∃ event ∈ events, event.trial? = some report

/-- The events report the trial as the last one of its search. -/
def ClosingIn (events : List (Event F)) (report : TrialReport F) : Prop :=
  ∃ event ∈ events, event.closing? = some report

/-- The events report that the search of an iteration has stalled. -/
def StalledIn (events : List (Event F)) (iteration : Nat) : Prop :=
  ∃ report, .stalled report ∈ events ∧ report.iteration = iteration

/-- No iteration up to `k` is opened, and none tightens the step size. -/
structure Later (k : Nat) (events : List (Event F)) : Prop where
  iteration : ∀ report, .iteration report ∈ events → k < report.iteration
  tightened : ∀ report, .tightened report ∈ events → k < report.iteration

variable {events : List (Event F)} {event : Event F} {report : TrialReport F} {k : Nat}

theorem trialIn_append_singleton :
    TrialIn (events ++ [event]) report ↔ TrialIn events report ∨ event.trial? = some report := by
  simp [TrialIn, or_and_right, exists_or]

theorem closingIn_append_singleton :
    ClosingIn (events ++ [event]) report ↔
      ClosingIn events report ∨ event.closing? = some report := by
  simp [ClosingIn, or_and_right, exists_or]

theorem tightenedIn_append_singleton :
    TightenedIn (events ++ [event]) k ↔
      TightenedIn events k ∨ ∃ report, event = .tightened report ∧ report.iteration = k := by
  simp [TightenedIn, or_and_right, exists_or, eq_comm]

theorem later_nil : Later k ([] : List (Event F)) :=
  ⟨nofun, nofun⟩

theorem Later.append {more : List (Event F)} (first : Later k events) (second : Later k more) :
    Later k (events ++ more) := by
  constructor
  · intro report member
    rcases List.mem_append.mp member with before | after
    · exact first.iteration report before
    · exact second.iteration report after
  · intro report member
    rcases List.mem_append.mp member with before | after
    · exact first.tightened report before
    · exact second.tightened report after

theorem later_singleton (iteration : ∀ report, event = .iteration report → k < report.iteration)
    (tightened : ∀ report, event = .tightened report → k < report.iteration) :
    Later k [event] := by
  constructor
  · intro report member
    exact iteration report (List.mem_singleton.mp member).symm
  · intro report member
    exact tightened report (List.mem_singleton.mp member).symm

end Streams

/-! ## Searches up to a point -/

namespace Point

variable {depth : Nat}

/-- The completed iteration of a search that has just ended. -/
def ended? : Point F n m depth → Option (Lap F n m depth)
  | searched attempt result => some { attempt with result }
  | _ => none

/-- The search that is under way. -/
def ongoing? : Point F n m depth → Option (Attempt F n m depth)
  | searching attempt => some attempt
  | trying attempt .. => some attempt
  | _ => none

/-- The iterations whose searches have ended, in their order. -/
def ended (laps : List (Lap F n m depth)) (point : Point F n m depth) : List (Lap F n m depth) :=
  laps.reverse ++ point.ended?.toList

/-- The iterations whose searches have begun, in their order, each as its search found
it. -/
def searches (laps : List (Lap F n m depth)) (point : Point F n m depth) :
    List (Attempt F n m depth) :=
  (point.ended laps).map (·.toAttempt) ++ point.ongoing?.toList

variable {laps : List (Lap F n m depth)} {point : Point F n m depth}
  {attempt : Attempt F n m depth} {k : Nat}

theorem ended_of_none (unended : point.ended? = none) : point.ended laps = laps.reverse := by
  unfold ended
  rw [unended, Option.toList_none, List.append_nil]

theorem searches_of_none (idle : point.ongoing? = none) :
    point.searches laps = (point.ended laps).map (·.toAttempt) := by
  unfold searches
  rw [idle, Option.toList_none, List.append_nil]

theorem ended_searched (result : SearchResult F n m) :
    (searched attempt result).ended laps = laps.reverse ++ [{ attempt with result }] :=
  rfl

theorem ended_ready (state : State F n m depth) (result : SearchResult F n m) :
    (ready state).ended ({ attempt with result } :: laps) =
      (searched attempt result).ended laps := by
  rw [ended_of_none rfl, ended_searched, List.reverse_cons]

theorem ended_prefix_searched (result : SearchResult F n m) :
    laps.reverse <+: (searched attempt result).ended laps :=
  List.prefix_append _ _

theorem ended_searched_getElem?_iff {result : SearchResult F n m} {lap : Lap F n m depth} :
    ((searched attempt result).ended laps)[k]? = some lap ↔
      laps.reverse[k]? = some lap ∨ k = laps.length ∧ lap = { attempt with result } := by
  rw [ended_searched, getElem?_concat_eq_some_iff, List.length_reverse]

/-- A search that has ended is the one that was under way. -/
theorem searches_searched (result : SearchResult F n m) :
    (searched attempt result).searches laps = (searching attempt).searches laps := by
  rw [searches_of_none rfl, ended_searched, List.map_append]
  unfold searches
  rw [ended_of_none rfl]
  rfl

/-- When no search has begun in the iteration under way, the searches are those of the
completed iterations. -/
theorem lt_of_searches_found (unended : point.ended? = none) (idle : point.ongoing? = none)
    (found : (point.searches laps)[k]? = some attempt) : k < laps.length := by
  obtain ⟨inside, -⟩ := List.getElem?_eq_some_iff.mp found
  rw [searches_of_none idle, ended_of_none unended, List.length_map, List.length_reverse] at inside
  exact inside

/-- The search that is under way is the latest one. -/
theorem searches_latest (unended : point.ended? = none) (ongoing : point.ongoing? = some attempt) :
    (point.searches laps)[laps.length]? = some attempt := by
  unfold searches
  rw [ended_of_none unended, ongoing]
  simp

theorem searches_searching (next : Attempt F n m depth) :
    (searching next).searches laps = laps.reverse.map (·.toAttempt) ++ [next] := by
  unfold searches
  rw [ended_of_none rfl]
  rfl

/-- The search that begins is the one of the iteration under way. -/
theorem searches_searching_getElem?_iff {next : Attempt F n m depth} :
    ((searching next).searches laps)[k]? = some attempt ↔
      (laps.reverse.map (·.toAttempt))[k]? = some attempt ∨ k = laps.length ∧ attempt = next := by
  rw [searches_searching, getElem?_concat_eq_some_iff, List.length_map, List.length_reverse]

/-- A search that is followed by another one has ended. -/
theorem ended_of_followed (followed : k + 1 < (point.searches laps).length)
    (found : (point.searches laps)[k]? = some attempt) :
    ∃ lap : Lap F n m depth, (point.ended laps)[k]? = some lap ∧ lap.toAttempt = attempt := by
  have single : point.ongoing?.toList.length ≤ 1 := by
    cases point.ongoing? with
    | none => exact Nat.zero_le 1
    | some ongoing => exact le_rfl
  unfold searches at followed found
  rw [List.length_append, List.length_map] at followed
  rw [List.getElem?_append_left (by rw [List.length_map]; omega)] at found
  simpa only [List.getElem?_map, Option.map_eq_some_iff] using found

end Point

variable [Scalar F]

/-- The report is one of a trial of the search. -/
def Search.Tries (search : Search F ε n m) (report : TrialReport F) : Prop :=
  ∃ tau ledger trial ledger', search.trial tau ledger = .ok (trial, ledger') ∧
    report = search.report tau trial

namespace Search.Tries

variable {search : Search F ε n m} {report : TrialReport F}

theorem phi_eq (tries : search.Tries report) : report.phi = search.phi := by
  obtain ⟨tau, ledger, trial, ledger', -, rfl⟩ := tries
  rfl

theorem threshold_eq (tries : search.Tries report) : report.threshold = search.threshold := by
  obtain ⟨tau, ledger, trial, ledger', -, rfl⟩ := tries
  rfl

end Search.Tries

/-- The report of the last trial of a completed iteration. -/
def Job.lastTrial (job : Job F ε n m) (k : Nat) (lap : Lap F n m job.depth) : TrialReport F :=
  (job.search k lap.state).report lap.result.tau lap.result.trial

/-! ## When the first trial is acceptable -/

/-- A search whose first trial is acceptable ends with it. -/
theorem Search.run_of_accepted {search : Search F ε n m} {ledger ledger' : Ledger F m}
    {trial : Iterate F n} (tried : search.trial 1 ledger = .ok (trial, ledger'))
    (accepted : trial.envelope search.step ≤ search.threshold) :
    search.run ledger =
      ⟨[.accepted (search.report 1 trial)],
        .ok { tau := 1, accepted := true, trial, ledger := ledger' }⟩ :=
  backtrack_of_acceptable tried accepted _

/-- An iteration that does not converge, leaves the step size as it is and accepts its first
trial. -/
theorem Job.iterate_of_accepted {job : Job F ε n m} {state : State F n m job.depth}
    {atHat : Evaluation F n m} {ledger ledger' : Ledger F m} {trial : Iterate F n} {k : Nat}
    (evaluated : job.merit.evaluate state.current.xHat state.ledger = .ok (atHat, ledger))
    (unmet : ¬ state.residual atHat ≤ job.eps)
    (descends : ¬ state.current.descentLimit state.step < atHat.psi)
    (tried : (job.search k state).trial 1 ledger = .ok (trial, ledger'))
    (accepted : trial.envelope state.step ≤ (job.search k state).threshold) :
    job.iterate k state =
      ⟨[.iteration (job.report k { state with ledger } (state.residual atHat)),
        .accepted ((job.search k state).report 1 trial)],
        .ok (.advanced (state.residual atHat) (job.advance { state with ledger }
          { tau := 1, accepted := true, trial, ledger := ledger' }))⟩ := by
  let measured : State F n m job.depth := { state with ledger }
  have descends_measured : ¬ measured.current.descentLimit measured.step < atHat.psi := descends
  have adapted := job.adapt_of_le descends_measured k 0 job.params.estimate.maxUpdates
  have searched : (job.search k measured).run ledger = _ := Search.run_of_accepted tried accepted
  rw [iterate_of_unmet job evaluated unmet, adapted, Traced.emit_bind, Traced.pure_bind, searched]
  rfl

namespace Job

/-! ## Back to the beginning and to the end of a search -/

/-- A run that has ended the iterations `ended` and reported the events began the search
of iteration `k` in this state. -/
def Began (job : Job F ε n m) (ended : List (Lap F n m job.depth)) (events : List (Event F))
    (k : Nat) (attempt : Attempt F n m job.depth) : Prop :=
  ∃ earlier before after, earlier.length = k ∧ job.Reaches earlier before (.searching attempt) ∧
    events = before ++ after ∧ Later k after ∧ earlier.reverse <+: ended

variable {job : Job F ε n m} {laps : List (Lap F n m job.depth)} {events : List (Event F)}
  {point : Point F n m job.depth} {attempt : Attempt F n m job.depth}
  {lap : Lap F n m job.depth} {k : Nat}

theorem Began.append {ended : List (Lap F n m job.depth)}
    (began : job.Began ended events k attempt) {more : List (Event F)} (later : Later k more) :
    job.Began ended (events ++ more) k attempt := by
  obtain ⟨earlier, before, after, number, reached, rfl, since, listed⟩ := began
  exact ⟨earlier, before, after ++ more, number, reached, List.append_assoc .., since.append later,
    listed⟩

theorem Began.mono {ended ended' : List (Lap F n m job.depth)}
    (began : job.Began ended events k attempt) (grown : ended <+: ended') :
    job.Began ended' events k attempt := by
  obtain ⟨earlier, before, after, number, reached, split, since, listed⟩ := began
  exact ⟨earlier, before, after, number, reached, split, since, listed.trans grown⟩

/-- Every search that a run has begun was begun at a point that it got to. -/
theorem Reaches.began (reached : job.Reaches laps events point)
    (found : (point.searches laps)[k]? = some attempt) :
    job.Began (point.ended laps) events k attempt := by
  induction reached with
  | start => cases found
  | measure _ _ ih =>
    have earlier := Point.lt_of_searches_found rfl rfl found
    refine (ih found).append (later_singleton ?_ nofun)
    rintro report ⟨⟩
    exact earlier
  | converge _ _ ih => exact (ih found).append (later_singleton nofun nofun)
  | enter _ _ ih => exact ih found
  | tighten _ _ ih =>
    have earlier := Point.lt_of_searches_found rfl rfl found
    refine (ih found).append (later_singleton nofun ?_)
    rintro report ⟨⟩
    exact earlier
  | revalue _ _ ih => exact ih found
  | @search laps events next _ _ adapting descends ih =>
    rcases Point.searches_searching_getElem?_iff.mp found with before | ⟨rfl, rfl⟩
    · refine ih ?_
      rw [Point.searches_of_none rfl, Point.ended_of_none rfl]
      exact before
    · exact ⟨laps, events, [], rfl, .search adapting descends, (List.append_nil _).symm, later_nil,
        List.prefix_append _ _⟩
  | begin _ ih => exact ih found
  | reject _ _ _ _ ih => exact (ih found).append (later_singleton nofun nofun)
  | accept _ _ _ ih =>
    rw [Point.searches_searched] at found
    refine Began.mono (Began.append (ih found) (later_singleton ?_ ?_)) ?_
    · exact nofun
    · exact nofun
    · rw [Point.ended_of_none rfl]
      exact Point.ended_prefix_searched _
  | stall _ _ _ _ ih =>
    rw [Point.searches_searched] at found
    refine Began.mono (Began.append (ih found) (later_singleton ?_ ?_)) ?_
    · exact nofun
    · exact nofun
    · rw [Point.ended_of_none rfl]
      exact Point.ended_prefix_searched _
  | advance _ ih =>
    rw [Point.searches_of_none rfl, Point.ended_ready] at found
    rw [Point.ended_ready]
    exact ih (by rwa [Point.searches_of_none rfl])

/-- The events close the search of iteration `k`, with a stall unless its last trial was
acceptable. -/
structure Settled (job : Job F ε n m) (events : List (Event F)) (k : Nat)
    (lap : Lap F n m job.depth) : Prop where
  closing : ClosingIn events (job.lastTrial k lap)
  accepted : ¬ StalledIn events k →
    lap.result.trial.envelope lap.state.step ≤ (job.search k lap.state).threshold

theorem Settled.append {event : Event F} (settled : job.Settled events k lap) :
    job.Settled (events ++ [event]) k lap := by
  refine ⟨closingIn_append_singleton.mpr (Or.inl settled.closing), ?_⟩
  intro unstalled
  refine settled.accepted (mt ?_ unstalled)
  rintro ⟨report, member, same⟩
  exact ⟨report, List.mem_append_left _ member, same⟩

/-- Every search that a run has ended is closed by its events. -/
theorem Reaches.settled (reached : job.Reaches laps events point)
    (found : (point.ended laps)[k]? = some lap) : job.Settled events k lap := by
  induction reached with
  | start => cases found
  | measure _ _ ih => exact (ih found).append
  | converge _ _ ih => exact (ih found).append
  | enter _ _ ih => exact ih found
  | tighten _ _ ih => exact (ih found).append
  | revalue _ _ ih => exact ih found
  | search _ _ ih => exact ih found
  | begin _ ih => exact ih found
  | reject _ _ _ _ ih => exact (ih found).append
  | accept _ _ below ih =>
    rcases Point.ended_searched_getElem?_iff.mp found with before | ⟨rfl, rfl⟩
    · exact (ih (by rwa [Point.ended_of_none rfl])).append
    · exact ⟨closingIn_append_singleton.mpr (Or.inr rfl), fun _ => below⟩
  | stall _ _ _ _ ih =>
    rcases Point.ended_searched_getElem?_iff.mp found with before | ⟨rfl, rfl⟩
    · exact (ih (by rwa [Point.ended_of_none rfl])).append
    · refine ⟨closingIn_append_singleton.mpr (Or.inr rfl), ?_⟩
      intro unstalled
      exact absurd ⟨_, List.mem_append_right _ (List.mem_singleton.mpr rfl), rfl⟩ unstalled
  | advance _ ih =>
    rw [Point.ended_ready] at found
    exact ih found

/-! ## Reports of trials -/

/-- Every trial that a run reports is one of the search of its iteration. -/
theorem Reaches.trial_of (reached : job.Reaches laps events point) {report : TrialReport F}
    (reported : TrialIn events report) :
    ∃ attempt, (point.searches laps)[report.iteration]? = some attempt ∧
      (job.search report.iteration attempt.state).Tries report := by
  induction reached with
  | start => simp [TrialIn] at reported
  | measure _ _ ih => exact ih (by simpa [trialIn_append_singleton, Event.trial?] using reported)
  | converge _ _ ih => exact ih (by simpa [trialIn_append_singleton, Event.trial?] using reported)
  | enter _ _ ih => exact ih reported
  | tighten _ _ ih => exact ih (by simpa [trialIn_append_singleton, Event.trial?] using reported)
  | revalue _ _ ih => exact ih reported
  | search _ _ ih =>
    obtain ⟨attempt, found, tries⟩ := ih reported
    rw [Point.searches_of_none rfl, Point.ended_of_none rfl] at found
    exact ⟨attempt, Point.searches_searching_getElem?_iff.mpr (Or.inl found), tries⟩
  | begin _ ih => exact ih reported
  | reject _ tried _ _ ih =>
    rcases trialIn_append_singleton.mp reported with before | latest
    · exact ih before
    · cases latest
      exact ⟨_, Point.searches_latest rfl rfl, _, _, _, _, tried, rfl⟩
  | accept _ tried _ ih =>
    rw [Point.searches_searched]
    rcases trialIn_append_singleton.mp reported with before | latest
    · exact ih before
    · cases latest
      exact ⟨_, Point.searches_latest rfl rfl, _, _, _, _, tried, rfl⟩
  | stall _ tried _ _ ih =>
    rw [Point.searches_searched]
    rcases trialIn_append_singleton.mp reported with before | latest
    · exact ih before
    · cases latest
      exact ⟨_, Point.searches_latest rfl rfl, _, _, _, _, tried, rfl⟩
  | advance _ ih =>
    rw [Point.searches_of_none rfl, Point.ended_ready, ← Point.searches_of_none rfl]
    exact ih reported

/-- A solve that reports a trial stops at a point that it reaches. -/
theorem reaches_of_trialIn (job : Job F ε n m) {σ : Type} {observer : Observer F σ} {listener : σ}
    {report : TrialReport F} (reported : TrialIn (job.events observer listener) report) :
    ∃ laps point, job.Reaches laps (job.events observer listener) point := by
  rcases job.solve_ends observer listener with ⟨error, -, none, -⟩ | ⟨laps, point, reached, -⟩
  · simp [none, TrialIn] at reported
  · exact ⟨laps, point, reached⟩

/-- The last trial that a run reports of a search is the one that the search resulted
in. -/
theorem Reaches.closing_of (reached : job.Reaches laps events point) {report : TrialReport F}
    (reported : ClosingIn events report) :
    ∃ lap, (point.ended laps)[report.iteration]? = some lap ∧
      report = job.lastTrial report.iteration lap := by
  induction reached with
  | start => simp [ClosingIn] at reported
  | measure _ _ ih =>
    exact ih (by simpa [closingIn_append_singleton, Event.closing?] using reported)
  | converge _ _ ih =>
    exact ih (by simpa [closingIn_append_singleton, Event.closing?] using reported)
  | enter _ _ ih => exact ih reported
  | tighten _ _ ih =>
    exact ih (by simpa [closingIn_append_singleton, Event.closing?] using reported)
  | revalue _ _ ih => exact ih reported
  | search _ _ ih => exact ih reported
  | begin _ ih => exact ih reported
  | reject _ _ _ _ ih =>
    exact ih (by simpa [closingIn_append_singleton, Event.closing?] using reported)
  | accept _ _ _ ih =>
    rcases closingIn_append_singleton.mp reported with before | latest
    · obtain ⟨lap, found, last⟩ := ih before
      rw [Point.ended_of_none rfl] at found
      exact ⟨lap, Point.ended_searched_getElem?_iff.mpr (Or.inl found), last⟩
    · cases latest
      exact ⟨_, Point.ended_searched_getElem?_iff.mpr (Or.inr ⟨rfl, rfl⟩), rfl⟩
  | stall _ _ _ _ ih =>
    rcases closingIn_append_singleton.mp reported with before | latest
    · obtain ⟨lap, found, last⟩ := ih before
      rw [Point.ended_of_none rfl] at found
      exact ⟨lap, Point.ended_searched_getElem?_iff.mpr (Or.inl found), last⟩
    · cases latest
      exact ⟨_, Point.ended_searched_getElem?_iff.mpr (Or.inr ⟨rfl, rfl⟩), rfl⟩
  | advance _ ih =>
    rw [Point.ended_ready]
    exact ih reported

/-! ## From one search to the next -/

/-- An iteration has tightened the step size if and only if it has reported so. -/
theorem Reaches.tightenedIn_iff (reached : job.Reaches laps events point) :
    TightenedIn events laps.length ↔ point.updates ≠ 0 := by
  induction reached with
  | start => simp [TightenedIn, Point.updates]
  | measure _ _ ih => simpa [tightenedIn_append_singleton, Point.updates] using ih
  | converge _ _ ih => simpa [tightenedIn_append_singleton, Point.updates] using ih
  | enter _ _ ih => exact ih
  | tighten _ _ _ =>
    refine iff_of_true ?_ (Nat.succ_ne_zero _)
    exact ⟨_, List.mem_append_right _ (List.mem_singleton.mpr rfl), rfl⟩
  | revalue _ _ ih => exact ih
  | search _ _ ih => exact ih
  | begin _ ih => exact ih
  | reject _ _ _ _ ih => simpa [tightenedIn_append_singleton, Point.updates] using ih
  | accept _ _ _ ih => simpa [tightenedIn_append_singleton, Point.updates] using ih
  | stall _ _ _ _ ih => simpa [tightenedIn_append_singleton, Point.updates] using ih
  | advance searched _ =>
    refine iff_of_false ?_ (fun moved => moved rfl)
    rintro ⟨report, member, next⟩
    have within := CountedDuring.tightened_le searched.counted report member
    rw [next, List.length_cons] at within
    omega

/-- Unless it tightens the step size, an iteration stays with the last trial of the one
before it. -/
theorem Reaches.carried (reached : job.Reaches laps events point)
    (untightened : point.updates = 0) :
    ∀ lap ∈ laps.head?, point.state.step = lap.state.step ∧
      point.state.current = lap.result.trial := by
  induction reached with
  | start => exact nofun
  | measure _ _ ih => exact ih rfl
  | converge _ _ ih => exact ih rfl
  | enter _ _ ih => exact ih rfl
  | tighten _ _ _ => cases untightened
  | revalue _ _ ih => exact ih untightened
  | search _ _ ih => exact ih untightened
  | begin _ ih => exact ih untightened
  | reject _ _ _ _ ih => exact ih untightened
  | accept _ _ _ ih => exact ih untightened
  | stall _ _ _ _ ih => exact ih untightened
  | advance _ _ =>
    rintro lap ⟨⟩
    exact ⟨rfl, rfl⟩

/-- A search was preceded by tightenings in its iteration if and only if the events report
one. -/
theorem Reaches.tightenedIn_search_iff (reached : job.Reaches laps events point)
    (found : (point.searches laps)[k]? = some attempt) :
    TightenedIn events k ↔ attempt.updates ≠ 0 := by
  obtain ⟨earlier, before, after, rfl, searching, rfl, later, -⟩ := reached.began found
  refine Iff.trans ?_ searching.tightenedIn_iff
  constructor
  · rintro ⟨report, member, own⟩
    rcases List.mem_append.mp member with first | second
    · exact ⟨report, first, own⟩
    · exact absurd own (Nat.ne_of_gt (later.tightened report second))
  · rintro ⟨report, member, own⟩
    exact ⟨report, List.mem_append_left _ member, own⟩

/-- Without a tightening in between, a search begins with the last trial of the one before
it, at the same step size. -/
theorem Reaches.resumed (reached : job.Reaches laps events point)
    (before : (point.ended laps)[k]? = some lap)
    (found : (point.searches laps)[k + 1]? = some attempt)
    (untightened : ¬ TightenedIn events (k + 1)) :
    attempt.state.step = lap.state.step ∧ attempt.state.current = lap.result.trial := by
  have still : attempt.updates = 0 :=
    not_not.mp (mt (reached.tightenedIn_search_iff found).mpr untightened)
  obtain ⟨earlier, _, _, number, searching, -, -, listed⟩ := reached.began found
  refine searching.carried still lap ?_
  -- the search before this one is the last of those that its run had ended
  cases earlier with
  | nil => cases number
  | cons latest rest =>
    have at_k : ((latest :: rest).reverse)[k]? = some latest := by
      have own : k = rest.length := (Nat.succ.inj number).symm
      simp [own]
    obtain ⟨inside, value⟩ := List.getElem?_eq_some_iff.mp at_k
    rw [List.prefix_iff_getElem?.mp listed k inside, value] at before
    exact before

end Job

end ProximalNewton
