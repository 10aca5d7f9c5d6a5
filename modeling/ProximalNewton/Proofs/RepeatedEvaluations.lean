import ProximalNewton.MeritStore
import ProximalNewton.Proofs.Success

/-!
# Evaluations of one merit function

The three evaluations of a merit function write different parts of the same buffers, over
whatever is there. Nothing of that is seen in what they give, as long as the functions of the
problem write over the whole of a vector and do not look at it (`Writers.Overwrites`).

* `StoredMerit.value_eq_ok`, `StoredMerit.gradient_eq_ok` and `StoredMerit.evaluate_eq_ok` say
  what is on the desk after an evaluation.
* `StoredMerit.perform_eq_ok` goes from a call on a store to the merit function without buffers:
  the reply and the record are those that `Merit.reply` makes of the record alone.
* `Merit.Records` is the course of several calls, and what is recorded at its end is read off
  the calls.
* `StoredMerit.performAll_pure` puts these together.
-/

namespace ProximalNewton

variable {F ε : Type} {n m : Nat}

/-! ## Programs with state and failure -/

/-- A composition succeeds when its first part does and the rest does in the state that the
first part leaves. -/
theorem run_bind_eq_ok {σ α β : Type} {first : EStateM ε σ α} {next : α → EStateM ε σ β}
    {before after : σ} {answer : β} :
    (first >>= next) before = .ok answer after ↔
      ∃ value between, first before = .ok value between ∧ next value between = .ok answer after := by
  have bound : (first >>= next) before = EStateM.bind first next before := rfl
  rw [bound, EStateM.bind]
  cases first before with
  | ok value between =>
    constructor
    · intro answered
      exact ⟨value, between, rfl, answered⟩
    · rintro ⟨_, _, ⟨⟩, answered⟩
      exact answered
  | error cause between =>
    constructor
    · exact nofun
    · rintro ⟨_, _, ⟨⟩, _⟩

theorem run_map_eq_ok {σ α β : Type} {make : α → β} {program : EStateM ε σ α}
    {before after : σ} {answer : β} :
    (make <$> program) before = .ok answer after ↔
      ∃ value, program before = .ok value after ∧ make value = answer := by
  have mapped : (make <$> program) before = EStateM.map make program before := rfl
  rw [mapped, EStateM.map]
  cases program before with
  | ok value between =>
    constructor
    · rintro ⟨⟩
      exact ⟨value, rfl, rfl⟩
    · rintro ⟨_, ⟨⟩, rfl⟩
      rfl
  | error cause between =>
    constructor
    · exact nofun
    · rintro ⟨_, ⟨⟩, _⟩

theorem run_modify_eq_ok {σ : Type} {change : σ → σ} {before after : σ} {done : PUnit} :
    (modify change : EStateM ε σ PUnit) before = .ok done after ↔ after = change before := by
  have modified : (modify change : EStateM ε σ PUnit) before = .ok ⟨⟩ (change before) := rfl
  rw [modified]
  constructor
  · rintro ⟨⟩
    rfl
  · rintro rfl
    rfl

/-! ## Functions that overwrite -/

/-- Where it succeeds, the function writes the same over everything. -/
def Rewrites {α : Type} (write : α → α × Except ε Unit) : Prop :=
  ∀ ⦃out new : α⦄, write out = (new, .ok ()) → ∀ out', write out' = (new, .ok ())

theorem written_eq_ok {α : Type} {wrote : α × Except ε Unit} {value : α} :
    written wrote = .ok value ↔ wrote = (value, .ok ()) := by
  rcases wrote with ⟨out, cause | _⟩
  · simp [written, Except.map]
  · simp [written, Except.map]

/-- A vector that is given is written over everything. -/
theorem rewrites_overwrite {α : Type} (answer : Except ε α) : Rewrites (overwrite answer) := by
  intro out new wrote out'
  cases answer with
  | ok value => exact wrote
  | error cause => cases wrote

/-- Every function that writes a vector writes over the whole of it, and does not look at what
was there. -/
structure Writers.Overwrites (writers : Writers F ε n m) : Prop where
  gradF : ∀ x, Rewrites (writers.gradF x)
  g : ∀ x, Rewrites (writers.g x)
  gradG : ∀ x y, Rewrites (writers.gradG x y)

theorem Oracles.writers_overwrites (oracles : Oracles F ε n m) : oracles.writers.Overwrites where
  gradF x := rewrites_overwrite (oracles.gradF x)
  g x := rewrites_overwrite (oracles.g x)
  gradG x y := rewrites_overwrite (oracles.gradG x y)

variable [Scalar F]

/-! ## The desk after an evaluation -/

omit [Scalar F] in
theorem Desk.writeOver_eq_ok {α : Type} {part : Desk F n m → α}
    {replace : Desk F n m → α → Desk F n m} {write : α → α × Except ε Unit}
    (rewrites : Rewrites write) (out : α) {desk after : Desk F n m} {done : Unit} :
    Desk.writeOver part replace write desk = .ok done after ↔
      ∃ new, written (write out) = .ok new ∧ after = replace desk new := by
  unfold writeOver
  cases wrote : write (part desk) with
  | mk new success =>
    cases success with
    | ok _ =>
      rw [rewrites wrote out]
      constructor
      · rintro ⟨⟩
        exact ⟨new, rfl, rfl⟩
      · rintro ⟨_, ⟨⟩, rfl⟩
        rfl
    | error cause =>
      constructor
      · exact nofun
      · rintro ⟨new', anew, -⟩
        have again := rewrites (written_eq_ok.mp anew) (part desk)
        rw [wrote] at again
        cases again

namespace StoredMerit

variable {stored : StoredMerit F ε n m} {x : Vector F n} {desk after : Desk F n m}

theorem psi_eq_ok {psi : F} : stored.psi x desk = .ok psi after ↔
    meritValue stored.merit.oracles x desk.constraint stored.merit.shift desk.z stored.sigma =
        .ok psi ∧
      after = { desk with fEvals := desk.fEvals + 1 } := by
  have at_x : stored.merit.oracles.f x = stored.writers.f x := rfl
  rw [meritValue, at_x]
  cases found : stored.writers.f x with
  | ok f =>
    have computed : stored.psi x desk =
        .ok (f + 0.5 * distanceSq desk.constraint stored.merit.shift desk.z stored.sigma)
          { desk with fEvals := desk.fEvals + 1 } := by
      unfold StoredMerit.psi objective
      rw [found]
      rfl
    rw [computed]
    simp [pure, Except.pure, bind, Except.bind, eq_comm]
  | error cause =>
    have failed : stored.psi x desk = .error cause { desk with fEvals := desk.fEvals + 1 } := by
      unfold StoredMerit.psi objective
      rw [found]
      rfl
    rw [failed]
    simp [bind, Except.bind]

theorem writeSlack_eq_ok (overwrites : stored.writers.Overwrites) {done : Unit} :
    stored.writeSlack x desk = .ok done after ↔
      ∃ g, stored.merit.oracles.g x = .ok g ∧
        after = { desk with constraint := g, z := stored.merit.slackOf g } := by
  unfold writeSlack writeConstraint
  simp only [run_bind_eq_ok, run_modify_eq_ok, slackInto_eq,
    Desk.writeOver_eq_ok (overwrites.g x) (Vector.replicate m 0)]
  constructor
  · rintro ⟨-, -, ⟨g, at_x, rfl⟩, rfl⟩
    exact ⟨g, at_x, rfl⟩
  · rintro ⟨g, at_x, rfl⟩
    exact ⟨(), _, ⟨g, at_x, rfl⟩, rfl⟩

theorem value_eq_ok (overwrites : stored.writers.Overwrites) {psi : F} :
    stored.value x desk = .ok psi after ↔
      ∃ g, stored.merit.oracles.g x = .ok g ∧ stored.merit.psi x g = .ok psi ∧
        after = { desk with
          constraint := g
          z := stored.merit.slackOf g
          fEvals := desk.fEvals + 1 } := by
  unfold StoredMerit.value
  simp only [run_bind_eq_ok, writeSlack_eq_ok overwrites, psi_eq_ok]
  constructor
  · rintro ⟨-, -, ⟨g, at_x, rfl⟩, psi_at, rfl⟩
    exact ⟨g, at_x, psi_at, rfl⟩
  · rintro ⟨g, at_x, psi_at, rfl⟩
    exact ⟨(), _, ⟨g, at_x, rfl⟩, psi_at, rfl⟩

theorem writeAdjoint_eq_ok (overwrites : stored.writers.Overwrites) {done : Unit} :
    stored.writeAdjoint x desk = .ok done after ↔
      ∃ adjoint, stored.merit.oracles.gradG x desk.multipliers = .ok adjoint ∧
        after = { desk with adjoint } := by
  have write_here : stored.writeAdjoint x desk = Desk.writeOver (·.adjoint)
      (fun desk adjoint => { desk with adjoint }) (stored.writers.gradG x desk.multipliers) desk :=
    rfl
  rw [write_here,
    Desk.writeOver_eq_ok (overwrites.gradG x desk.multipliers) (Vector.replicate n 0)]
  rfl

theorem gradient_eq_ok (overwrites : stored.writers.Overwrites) {done : Unit} :
    stored.gradient x desk = .ok done after ↔
      ∃ g grad, stored.merit.oracles.g x = .ok g ∧
        meritGradient stored.merit.oracles x (stored.merit.multipliersOf g) = .ok grad ∧
        after = { desk with
          constraint := g
          adjoint := grad.adjoint
          multipliers := stored.merit.multipliersOf g
          gradEvals := desk.gradEvals + 1
          z := stored.merit.slackOf g
          gradPsi := grad.total } := by
  unfold StoredMerit.gradient writeGradF
  simp only [run_bind_eq_ok, run_modify_eq_ok, writeSlack_eq_ok overwrites, multipliersInto_eq,
    Desk.writeOver_eq_ok (overwrites.gradF x) (Vector.replicate n 0),
    writeAdjoint_eq_ok overwrites, addInto_eq, meritGradient_eq_ok]
  constructor
  · rintro ⟨-, -, ⟨g, at_x, rfl⟩, -, -, rfl, -, -, ⟨gradF, slope, rfl⟩, -, -,
      ⟨adjoint, transposed, rfl⟩, rfl⟩
    exact ⟨g, { adjoint, total := gradF + adjoint }, at_x, ⟨gradF, adjoint, slope, transposed, rfl⟩,
      rfl⟩
  · rintro ⟨g, -, at_x, ⟨gradF, adjoint, slope, transposed, rfl⟩, rfl⟩
    exact ⟨(), _, ⟨g, at_x, rfl⟩, ⟨⟩, _, rfl, (), _, ⟨gradF, slope, rfl⟩, (), _,
      ⟨adjoint, transposed, rfl⟩, rfl⟩

theorem evaluate_eq_ok (overwrites : stored.writers.Overwrites) {psi : F} :
    stored.evaluate x desk = .ok psi after ↔
      ∃ g grad, stored.merit.oracles.g x = .ok g ∧
        meritGradient stored.merit.oracles x (stored.merit.multipliersOf g) = .ok grad ∧
        stored.merit.psi x g = .ok psi ∧
        after = { desk with
          constraint := g
          adjoint := grad.adjoint
          multipliers := stored.merit.multipliersOf g
          fEvals := desk.fEvals + 1
          gradEvals := desk.gradEvals + 1
          z := stored.merit.slackOf g
          gradPsi := grad.total } := by
  unfold StoredMerit.evaluate
  simp only [run_bind_eq_ok, gradient_eq_ok overwrites, psi_eq_ok]
  constructor
  · rintro ⟨-, -, ⟨g, grad, at_x, slope, rfl⟩, psi_at, rfl⟩
    exact ⟨g, grad, at_x, slope, psi_at, rfl⟩
  · rintro ⟨g, grad, at_x, slope, psi_at, rfl⟩
    exact ⟨(), _, ⟨g, grad, at_x, slope, rfl⟩, psi_at, rfl⟩

end StoredMerit

/-! ## Calls, without the buffers -/

/-- The record after a call at a point with this constraint value. -/
def Ledger.recording (ledger : Ledger F m) (merit : Merit F ε n m) (call : MeritCall F n m)
    (g : Vector F m) : Ledger F m where
  constraint := g
  multipliers := if call.query.wantsGradient then merit.multipliersOf g else ledger.multipliers
  fEvals := ledger.fEvals + if call.query.wantsValue then 1 else 0
  gradEvals := ledger.gradEvals + if call.query.wantsGradient then 1 else 0

namespace Merit

/-- The reply to a call and what is recorded then, made of what was recorded before. -/
def reply (merit : Merit F ε n m) (call : MeritCall F n m) (ledger : Ledger F m) :
    Except ε (MeritReply F n m × Ledger F m) :=
  match call.query with
  | .value => do
    let (value, ledger) ← merit.value call.x ledger
    return ({ z := value.z, gradPsi := call.gradPsi, psi := some value.psi }, ledger)
  | .gradient => do
    let (gradient, ledger) ← merit.gradient call.x ledger
    return ({ z := gradient.z, gradPsi := gradient.gradPsi, psi := none }, ledger)
  | .both => do
    let (both, ledger) ← merit.evaluate call.x ledger
    return ({ z := both.z, gradPsi := both.gradPsi, psi := some both.psi }, ledger)

/-- What a reply consists of when the constraint value at the point is `g`. A gradient that was
not asked for is left as it was lent. -/
structure Replies (merit : Merit F ε n m) (call : MeritCall F n m) (g : Vector F m)
    (reply : MeritReply F n m) : Prop where
  constraint : merit.oracles.g call.x = .ok g
  slack : reply.z = merit.slackOf g
  value : call.query.wantsValue = true →
    ∃ psi, merit.psi call.x g = .ok psi ∧ reply.psi = some psi
  no_value : call.query.wantsValue = false → reply.psi = none
  gradient : call.query.wantsGradient = true → ∃ grad,
    meritGradient merit.oracles call.x (merit.multipliersOf g) = .ok grad ∧
      reply.gradPsi = grad.total
  no_gradient : call.query.wantsGradient = false → reply.gradPsi = call.gradPsi

variable {merit : Merit F ε n m} {call : MeritCall F n m} {reply : MeritReply F n m}
  {ledger after : Ledger F m}

theorem reply_eq_ok : merit.reply call ledger = .ok (reply, after) ↔
    ∃ g, merit.Replies call g reply ∧ after = ledger.recording merit call g := by
  rcases call with ⟨query, x, z, gradPsi⟩
  unfold Merit.reply
  constructor
  · intro replied
    cases query with
    | value =>
      obtain ⟨⟨value, after⟩, evaluated, ⟨⟩⟩ := bind_eq_ok.mp replied
      obtain ⟨g, psi, at_x, psi_at, ⟨⟩⟩ := value_eq_ok.mp evaluated
      exact ⟨g, ⟨at_x, rfl, fun _ => ⟨psi, psi_at, rfl⟩, nofun, nofun, fun _ => rfl⟩, rfl⟩
    | gradient =>
      obtain ⟨⟨gradient, after⟩, evaluated, ⟨⟩⟩ := bind_eq_ok.mp replied
      obtain ⟨g, grad, at_x, slope, ⟨⟩⟩ := gradient_eq_ok.mp evaluated
      exact ⟨g, ⟨at_x, rfl, nofun, fun _ => rfl, fun _ => ⟨grad, slope, rfl⟩, nofun⟩, rfl⟩
    | both =>
      obtain ⟨⟨both, after⟩, evaluated, ⟨⟩⟩ := bind_eq_ok.mp replied
      obtain ⟨g, grad, psi, at_x, slope, psi_at, ⟨⟩⟩ := evaluate_eq_ok.mp evaluated
      exact ⟨g, ⟨at_x, rfl, fun _ => ⟨psi, psi_at, rfl⟩, nofun, fun _ => ⟨grad, slope, rfl⟩,
        nofun⟩, rfl⟩
  · rintro ⟨g, replies, rfl⟩
    rcases reply with ⟨z', gradPsi', psi'⟩
    obtain ⟨at_x, rfl, value, no_value, gradient, no_gradient⟩ := replies
    cases query with
    | value =>
      obtain ⟨psi, psi_at, rfl⟩ := value rfl
      cases no_gradient rfl
      exact bind_eq_ok.mpr ⟨_, value_eq_ok.mpr ⟨g, psi, at_x, psi_at, rfl⟩, rfl⟩
    | gradient =>
      obtain ⟨grad, slope, rfl⟩ := gradient rfl
      cases no_value rfl
      exact bind_eq_ok.mpr ⟨_, gradient_eq_ok.mpr ⟨g, grad, at_x, slope, rfl⟩, rfl⟩
    | both =>
      obtain ⟨psi, psi_at, rfl⟩ := value rfl
      obtain ⟨grad, slope, rfl⟩ := gradient rfl
      exact bind_eq_ok.mpr ⟨_, evaluate_eq_ok.mpr ⟨g, grad, psi, at_x, slope, psi_at, rfl⟩, rfl⟩

/-- Calls at one point agree in what both of them were asked for. -/
theorem Replies.agree {call' : MeritCall F n m} {reply' : MeritReply F n m} {g g' : Vector F m}
    (replies : merit.Replies call g reply) (replies' : merit.Replies call' g' reply')
    (same : call.x = call'.x) :
    reply.z = reply'.z ∧
    (call.query.wantsValue = true → call'.query.wantsValue = true → reply.psi = reply'.psi) ∧
    (call.query.wantsGradient = true → call'.query.wantsGradient = true →
      reply.gradPsi = reply'.gradPsi) := by
  have constraint := replies.constraint
  rw [same, replies'.constraint] at constraint
  cases constraint
  refine ⟨replies.slack.trans replies'.slack.symm, ?_, ?_⟩
  · intro wanted wanted'
    obtain ⟨psi, psi_at, given⟩ := replies.value wanted
    obtain ⟨psi', psi_at', given'⟩ := replies'.value wanted'
    rw [same, psi_at'] at psi_at
    cases psi_at
    rw [given, given']
  · intro wanted wanted'
    obtain ⟨grad, slope, given⟩ := replies.gradient wanted
    obtain ⟨grad', slope', given'⟩ := replies'.gradient wanted'
    rw [same, slope'] at slope
    cases slope
    rw [given, given']

end Merit

/-! ## Calls on a store -/

namespace StoredMerit

variable {stored : StoredMerit F ε n m} {call : MeritCall F n m} {reply : MeritReply F n m}
  {store after : MeritStore F n m}

theorem perform_eq_answer : stored.perform call store = .ok reply after ↔
    ∃ psi desk, stored.answer call.x call.query
        { store with z := call.z, gradPsi := call.gradPsi } = .ok psi desk ∧
      reply = { z := desk.z, gradPsi := desk.gradPsi, psi } ∧ after = desk.toMeritStore := by
  unfold perform
  cases stored.answer call.x call.query { store with z := call.z, gradPsi := call.gradPsi } with
  | ok psi desk =>
    constructor
    · rintro ⟨⟩
      exact ⟨psi, desk, rfl, rfl, rfl⟩
    · rintro ⟨_, _, ⟨⟩, rfl, rfl⟩
      rfl
  | error cause desk =>
    constructor
    · exact nofun
    · rintro ⟨_, _, ⟨⟩, _⟩

/-- A call on a store succeeds with the reply that it has without the buffers, and leaves what
is recorded then. -/
theorem perform_eq_ok (overwrites : stored.writers.Overwrites) {ledger : Ledger F m} :
    (∃ after, stored.perform call store = .ok reply after ∧ after.ledger = ledger) ↔
      stored.merit.reply call store.ledger = .ok (reply, ledger) := by
  rcases call with ⟨query, x, z, gradPsi⟩
  unfold Merit.reply
  simp only [perform_eq_answer]
  cases query with
  | value =>
    simp only [answer, run_map_eq_ok, value_eq_ok overwrites, bind_eq_ok, Merit.value_eq_ok]
    constructor
    · rintro ⟨-, ⟨-, -, ⟨psi, ⟨g, at_x, psi_at, rfl⟩, rfl⟩, rfl, rfl⟩, rfl⟩
      exact ⟨_, ⟨g, psi, at_x, psi_at, rfl⟩, rfl⟩
    · rintro ⟨-, ⟨g, psi, at_x, psi_at, rfl⟩, ⟨⟩⟩
      exact ⟨_, ⟨_, _, ⟨psi, ⟨g, at_x, psi_at, rfl⟩, rfl⟩, rfl, rfl⟩, rfl⟩
  | gradient =>
    simp only [answer, run_map_eq_ok, gradient_eq_ok overwrites, bind_eq_ok,
      Merit.gradient_eq_ok]
    constructor
    · rintro ⟨-, ⟨-, -, ⟨-, ⟨g, grad, at_x, slope, rfl⟩, rfl⟩, rfl, rfl⟩, rfl⟩
      exact ⟨_, ⟨g, grad, at_x, slope, rfl⟩, rfl⟩
    · rintro ⟨-, ⟨g, grad, at_x, slope, rfl⟩, ⟨⟩⟩
      exact ⟨_, ⟨_, _, ⟨(), ⟨g, grad, at_x, slope, rfl⟩, rfl⟩, rfl, rfl⟩, rfl⟩
  | both =>
    simp only [answer, run_map_eq_ok, evaluate_eq_ok overwrites, bind_eq_ok,
      Merit.evaluate_eq_ok]
    constructor
    · rintro ⟨-, ⟨-, -, ⟨psi, ⟨g, grad, at_x, slope, psi_at, rfl⟩, rfl⟩, rfl, rfl⟩, rfl⟩
      exact ⟨_, ⟨g, grad, psi, at_x, slope, psi_at, rfl⟩, rfl⟩
    · rintro ⟨-, ⟨g, grad, psi, at_x, slope, psi_at, rfl⟩, ⟨⟩⟩
      exact ⟨_, ⟨_, _, ⟨psi, ⟨g, grad, at_x, slope, psi_at, rfl⟩, rfl⟩, rfl, rfl⟩, rfl⟩

end StoredMerit

/-! ## Several calls -/

namespace Merit

variable {merit : Merit F ε n m} {past : List (MeritCall F n m × MeritReply F n m)}
  {ledger : Ledger F m}

/-- Calls with their replies, and what is recorded after them. -/
inductive Records (merit : Merit F ε n m) :
    List (MeritCall F n m × MeritReply F n m) → Ledger F m → Prop
  | blank : Records merit [] .blank
  | call {past ledger call reply after} : Records merit past ledger →
    merit.reply call ledger = .ok (reply, after) → Records merit (past ++ [(call, reply)]) after

theorem Records.replies (records : merit.Records past ledger) :
    ∀ entry ∈ past, ∃ g, merit.Replies entry.1 g entry.2 := by
  induction records with
  | blank => exact List.forall_mem_nil _
  | call records replied ih =>
    intro entry member
    rcases List.mem_append.mp member with earlier | latest
    · exact ih entry earlier
    · cases List.mem_singleton.mp latest
      obtain ⟨g, replies, -⟩ := reply_eq_ok.mp replied
      exact ⟨g, replies⟩

/-- The constraint value that is recorded is that of the last call. -/
theorem Records.constraint_eq (records : merit.Records past ledger) :
    ∀ entry ∈ past.getLast?, merit.oracles.g entry.1.x = .ok ledger.constraint := by
  cases records with
  | blank => exact nofun
  | call records replied =>
    intro entry last
    rw [List.getLast?_concat] at last
    cases last
    obtain ⟨g, replies, rfl⟩ := reply_eq_ok.mp replied
    exact replies.constraint

/-- The multiplier estimate that is recorded is that of the last call that asked for a
gradient. -/
theorem Records.multipliers_eq (records : merit.Records past ledger) :
    ∀ entry ∈ (past.filter (·.1.query.wantsGradient)).getLast?,
      ∃ g, merit.oracles.g entry.1.x = .ok g ∧ ledger.multipliers = merit.multipliersOf g := by
  induction records with
  | blank => exact nofun
  | @call past ledger call reply after records replied ih =>
    intro entry last
    obtain ⟨g, replies, rfl⟩ := reply_eq_ok.mp replied
    rw [List.filter_append] at last
    cases wanted : call.query.wantsGradient with
    | false =>
      simp only [List.filter_cons, wanted, List.filter_nil, Bool.false_eq_true, if_false,
        List.append_nil] at last
      unfold Ledger.recording
      rw [if_neg (by simp [wanted])]
      exact ih entry last
    | true =>
      simp only [List.filter_cons, wanted, List.filter_nil, if_true,
        List.getLast?_concat] at last
      cases last
      exact ⟨g, replies.constraint, if_pos wanted⟩

/-- The counts that are recorded are those of the calls that asked for the one or the other. -/
theorem Records.evals_eq (records : merit.Records past ledger) :
    ledger.fEvals = past.countP (·.1.query.wantsValue) ∧
      ledger.gradEvals = past.countP (·.1.query.wantsGradient) := by
  induction records with
  | blank => exact ⟨rfl, rfl⟩
  | call records replied ih =>
    obtain ⟨g, replies, rfl⟩ := reply_eq_ok.mp replied
    simp only [Ledger.recording, List.countP_append, List.countP_singleton, ih, and_self]

end Merit

namespace StoredMerit

variable {stored : StoredMerit F ε n m} {calls : List (MeritCall F n m)}
  {replies : List (MeritReply F n m)} {store after : MeritStore F n m}

/-- Calls on one store are answered and recorded as they are without the buffers. -/
theorem records_of_performAll (overwrites : stored.writers.Overwrites)
    {past : List (MeritCall F n m × MeritReply F n m)}
    (records : stored.merit.Records past store.ledger)
    (performed : stored.performAll calls store = .ok replies after) :
    replies.length = calls.length ∧
      stored.merit.Records (past ++ calls.zip replies) after.ledger := by
  induction calls generalizing past store replies with
  | nil =>
    cases performed
    rw [List.zip_nil_left, List.append_nil]
    exact ⟨rfl, records⟩
  | cons call calls ih =>
    obtain ⟨reply, between, first, rest⟩ := run_bind_eq_ok.mp performed
    obtain ⟨replies', last, others, ⟨⟩⟩ := run_bind_eq_ok.mp rest
    have replied := (perform_eq_ok overwrites).mp ⟨between, first, rfl⟩
    obtain ⟨same, records'⟩ := ih (records.call replied) others
    rw [List.append_assoc, List.singleton_append] at records'
    exact ⟨congrArg (· + 1) same, records'⟩

/-- What several calls on one store amount to. -/
structure PureCourse (stored : StoredMerit F ε n m) (calls : List (MeritCall F n m))
    (replies : List (MeritReply F n m)) (after : MeritStore F n m) : Prop where
  /-- Every call has a reply. -/
  replied : replies.length = calls.length
  /-- The value is in the reply when it was asked for. -/
  valued : ∀ entry ∈ calls.zip replies, entry.2.psi.isSome = entry.1.query.wantsValue
  /-- Every call gives what it gives on a store of its own. -/
  alone : ∀ entry ∈ calls.zip replies, ∃ left, stored.perform entry.1 .blank = .ok entry.2 left
  /-- Calls at one point agree in what both of them were asked for. -/
  agree : ∀ entry ∈ calls.zip replies, ∀ entry' ∈ calls.zip replies, entry.1.x = entry'.1.x →
    entry.2.z = entry'.2.z ∧
    (entry.1.query.wantsValue = true → entry'.1.query.wantsValue = true →
      entry.2.psi = entry'.2.psi) ∧
    (entry.1.query.wantsGradient = true → entry'.1.query.wantsGradient = true →
      entry.2.gradPsi = entry'.2.gradPsi)
  /-- The constraint value is that at the last point. -/
  constraint : ∀ call ∈ calls.getLast?, stored.merit.oracles.g call.x = .ok after.constraint
  /-- The multiplier estimate is that at the last point where a gradient was asked for. -/
  multipliers : ∀ call ∈ (calls.filter (·.query.wantsGradient)).getLast?,
    ∃ g, stored.merit.oracles.g call.x = .ok g ∧ after.multipliers = stored.merit.multipliersOf g
  fEvals : after.fEvals = calls.countP (·.query.wantsValue)
  gradEvals : after.gradEvals = calls.countP (·.query.wantsGradient)

/-- **The evaluations of one merit function are pure and agree with each other.** In any
arithmetic, and for functions of the problem that overwrite what they are given, calls that
succeed on one store give what each of them gives on a store of its own, whatever was evaluated
before and whatever is in the vectors that they write. What the store holds in the end is read
off the calls. -/
theorem performAll_pure (overwrites : stored.writers.Overwrites)
    (performed : stored.performAll calls .blank = .ok replies after) :
    stored.PureCourse calls replies after := by
  obtain ⟨same, records⟩ := records_of_performAll overwrites Merit.Records.blank performed
  rw [List.nil_append] at records
  have every := records.replies
  have firsts : (calls.zip replies).map Prod.fst = calls :=
    List.map_fst_zip (Nat.le_of_eq same.symm)
  constructor
  case replied => exact same
  case valued =>
    intro entry member
    obtain ⟨g, given⟩ := every entry member
    cases wanted : entry.1.query.wantsValue with
    | true =>
      obtain ⟨psi, -, there⟩ := given.value wanted
      rw [there]
      rfl
    | false =>
      rw [given.no_value wanted]
      rfl
  case alone =>
    intro entry member
    obtain ⟨g, given⟩ := every entry member
    have replied : stored.merit.reply entry.1 (MeritStore.blank : MeritStore F n m).ledger =
        .ok (entry.2, _) := Merit.reply_eq_ok.mpr ⟨g, given, rfl⟩
    obtain ⟨left, performed, -⟩ := (perform_eq_ok overwrites).mpr replied
    exact ⟨left, performed⟩
  case agree =>
    intro entry member entry' member' same_x
    obtain ⟨g, given⟩ := every entry member
    obtain ⟨g', given'⟩ := every entry' member'
    exact given.agree given' same_x
  case constraint =>
    intro call last
    rw [← firsts, List.getLast?_map] at last
    obtain ⟨entry, found, rfl⟩ := Option.map_eq_some_iff.mp last
    exact records.constraint_eq entry found
  case multipliers =>
    intro call last
    rw [← firsts, List.filter_map, List.getLast?_map] at last
    obtain ⟨entry, found, rfl⟩ := Option.map_eq_some_iff.mp last
    exact records.multipliers_eq entry found
  case fEvals =>
    rw [← firsts, List.countP_map]
    exact records.evals_eq.1
  case gradEvals =>
    rw [← firsts, List.countP_map]
    exact records.evals_eq.2

end StoredMerit

/-! ## Evaluations of the parabola -/

/-- The merit function of the parabola, whose functions write over what they are given. -/
def parabolaStored : StoredMerit Float Unit 1 1 where
  writers := parabolaProblem.oracles.writers
  D := parabolaProblem.D
  sigma := .replicate 1 1
  y := .replicate 1 0.5

/-- Calls at two points in turn, with vectors of other contents lent to each. -/
def parabolaCalls : List (MeritCall Float 1 1) :=
  [⟨.value, .replicate 1 2, .replicate 1 7, .replicate 1 (-1)⟩,
    ⟨.both, .replicate 1 0, .replicate 1 (-3), .replicate 1 8⟩,
    ⟨.gradient, .replicate 1 2, .replicate 1 5, .replicate 1 5⟩,
    ⟨.value, .replicate 1 0, .replicate 1 9, .replicate 1 4⟩]

/-- The calls succeed. In the end the constraint value is that at the origin, and the multiplier
estimate still that at two. -/
theorem StoredMerit.performAll_pure_parabola :
    ∃ replies after, parabolaStored.performAll parabolaCalls .blank = .ok replies after ∧
      parabolaStored.PureCourse parabolaCalls replies after ∧
      after.constraint = #v[0] ∧ after.multipliers = #v[1.5] ∧
      after.fEvals = 3 ∧ after.gradEvals = 2 := by
  have performed : ∃ replies after,
      parabolaStored.performAll parabolaCalls .blank = .ok replies after := ⟨_, _, rfl⟩
  obtain ⟨replies, after, performed⟩ := performed
  have overwrites : parabolaStored.writers.Overwrites := parabolaProblem.oracles.writers_overwrites
  have course := StoredMerit.performAll_pure overwrites performed
  have at_origin := course.constraint ⟨.value, #v[0], #v[9], #v[4]⟩ rfl
  obtain ⟨g, at_two, estimate⟩ := course.multipliers ⟨.gradient, #v[2], #v[5], #v[5]⟩ rfl
  have constraint : after.constraint = #v[0] := (Except.ok.inj at_origin).symm
  have multipliers : after.multipliers = #v[1.5] := by
    rw [estimate, ← Except.ok.inj at_two]
    decide +kernel
  exact ⟨replies, after, performed, course, constraint, multipliers, course.fEvals,
    course.gradEvals⟩

end ProximalNewton
