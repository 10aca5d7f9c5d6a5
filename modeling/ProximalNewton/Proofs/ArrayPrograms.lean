import ProximalNewton.ArrayRun
import ProximalNewton.Proofs.CheckedOperations

/-!
# Programs on an arena

A program on an arena marks each arena that it leaves. `ArrayProgram.Keeps` says that all of them
fit and that the value which it finds, if it finds one, is good. `ArrayProgram.Sound` says besides
that it does not panic. Both hold of a composition if they hold of its parts.

The search is the first example. It puts its trials in the arrays of the candidate, and leaves
those of the current iterate and of the direction as they were.

* `ArrayProgram.Keeps.bind` and `ArrayProgram.Sound.bind`: compositions.
* `ArrayRequest.keeps_aim_backtrack`: what a search does not write over.
-/

namespace ProximalNewton

variable {F ε τ α β : Type}

/-! ## Compositions -/

namespace ArrayProgram

/-- Each arena that the program leaves fits, and what it finds is good. -/
structure Keeps (program : ArrayProgram F ε τ α) (fits : Arena F τ → Prop) (good : α → Prop) :
    Prop where
  arenas : ∀ arena ∈ program.arenas, fits arena
  found : ∀ value, program.result = .ok value → good value

/-- The program keeps what fits, and does not panic. -/
structure Sound (program : ArrayProgram F ε τ α) (fits : Arena F τ → Prop) (good : α → Prop) :
    Prop extends program.Keeps fits good where
  no_panic : ∀ why, program.result ≠ .error (.panic why)

variable {fits : Arena F τ → Prop} {good : α → Prop} {between : β → Prop}

theorem mem_arenas_append {earlier later : List (Mark F τ)} {arena : Arena F τ}
    (result : Except (Halt (SolveError F ε)) α)
    (member : arena ∈ arenas ⟨earlier ++ later, result⟩) :
    arena ∈ earlier.filterMap Mark.arena? ∨ arena ∈ later.filterMap Mark.arena? := by
  unfold arenas at member
  rw [List.filterMap_append] at member
  exact List.mem_append.mp member

theorem Keeps.bind {first : ArrayProgram F ε τ β} {next : β → ArrayProgram F ε τ α}
    (begins : first.Keeps fits between)
    (rest : ∀ value, between value → (next value).Keeps fits good) :
    Keeps (first >>= next) fits good := by
  cases ended : first.result with
  | error halt =>
    rw [Traced.bind_of_error ended]
    exact ⟨begins.arenas, fun _ same => nomatch same⟩
  | ok value =>
    have goes_on := rest value (begins.found value ended)
    rw [Traced.bind_of_ok ended]
    refine ⟨?_, goes_on.found⟩
    intro arena member
    exact (mem_arenas_append _ member).elim (begins.arenas arena) (goes_on.arenas arena)

theorem Sound.bind {first : ArrayProgram F ε τ β} {next : β → ArrayProgram F ε τ α}
    (begins : first.Sound fits between)
    (rest : ∀ value, between value → (next value).Sound fits good) :
    Sound (first >>= next) fits good := by
  refine ⟨begins.toKeeps.bind fun value holds => (rest value holds).toKeeps, ?_⟩
  cases ended : first.result with
  | error halt =>
    rw [Traced.bind_of_error ended]
    intro why panics
    cases panics
    exact begins.no_panic why ended
  | ok value =>
    rw [Traced.bind_of_ok ended]
    exact (rest value (begins.found value ended)).no_panic

/-! ## Parts -/

theorem sound_pure {value : α} (holds : good value) :
    Sound (pure value : ArrayProgram F ε τ α) fits good where
  arenas _ member := absurd member List.not_mem_nil
  found _ same := Except.ok.inj same ▸ holds
  no_panic _ same := nomatch same

theorem keeps_pure {value : α} (holds : good value) :
    Keeps (pure value : ArrayProgram F ε τ α) fits good :=
  (sound_pure holds).toKeeps

theorem sound_fail (error : SolveError F ε) :
    Sound (fail error : ArrayProgram F ε τ α) fits good where
  arenas _ member := absurd member List.not_mem_nil
  found _ same := nomatch same
  no_panic _ same := nomatch same

theorem sound_tell (event : Event F) :
    Sound (tell event : ArrayProgram F ε τ Unit) fits fun _ => True where
  arenas _ member := absurd member List.not_mem_nil
  found _ _ := trivial
  no_panic _ same := nomatch same

theorem keeps_tell (event : Event F) :
    Keeps (tell event : ArrayProgram F ε τ Unit) fits fun _ => True :=
  (sound_tell event).toKeeps

/-- A program that halts at once leaves nothing behind. -/
theorem keeps_error (halt : Halt (SolveError F ε)) :
    Keeps (⟨[], .error halt⟩ : ArrayProgram F ε τ α) fits good :=
  ⟨fun _ member => absurd member List.not_mem_nil, fun _ same => nomatch same⟩

theorem keeps_step {made : Checked (SolveError F ε) (Arena F τ)}
    (keeps : ∀ arena, made = .ok arena → fits arena) : (step made).Keeps fits fits := by
  cases made with
  | error halt => exact keeps_error halt
  | ok arena =>
    have holds := keeps arena rfl
    exact ⟨fun _ member => List.mem_singleton.mp member ▸ holds,
      fun _ same => Except.ok.inj same ▸ holds⟩

theorem keeps_find {made : Checked (SolveError F ε) (α × Arena F τ)}
    (keeps : ∀ found, made = .ok found → fits found.2) :
    (find made).Keeps fits fun found => fits found.2 := by
  cases made with
  | error halt => exact keeps_error halt
  | ok found =>
    have holds := keeps found rfl
    exact ⟨fun _ member => List.mem_singleton.mp member ▸ holds,
      fun _ same => Except.ok.inj same ▸ holds⟩

theorem sound_step {made : Checked (SolveError F ε) (Arena F τ)} (sound : made.Sound fits) :
    (step made).Sound fits fits := by
  rcases made with (why | error) | arena
  · exact sound.elim
  · exact sound_fail error
  · exact ⟨keeps_step fun _ same => Except.ok.inj same ▸ sound, fun _ same => nomatch same⟩

theorem sound_find {made : Checked (SolveError F ε) (α × Arena F τ)}
    (sound : made.Sound fun found => fits found.2) :
    (find made).Sound fits fun found => fits found.2 := by
  rcases made with (why | error) | found
  · exact sound.elim
  · exact sound_fail error
  · exact ⟨keeps_find fun _ same => Except.ok.inj same ▸ sound, fun _ same => nomatch same⟩

theorem result_step_bind {made : Checked (SolveError F ε) (Arena F τ)} {arena : Arena F τ}
    (made_eq : made = .ok arena) (next : Arena F τ → ArrayProgram F ε τ α) :
    (step made >>= next).result = (next arena).result := by
  subst made_eq
  rfl

theorem step_bind_of_error {made : Checked (SolveError F ε) (Arena F τ)}
    {halt : Halt (SolveError F ε)} (halts : made = .error halt)
    (next : Arena F τ → ArrayProgram F ε τ α) : step made >>= next = ⟨[], .error halt⟩ := by
  subst halts
  rfl

end ArrayProgram

/-! ## The arrays that a search reads -/

namespace Arena

/-- Both arenas have the same current iterate and the same direction. -/
structure SameAim (arena left : Arena F τ) : Prop where
  current : left.current = arena.current
  direction : left.direction = arena.direction

theorem SameAim.refl (arena : Arena F τ) : arena.SameAim arena :=
  ⟨rfl, rfl⟩

theorem SameAim.trans {origin arena left : Arena F τ} (before : origin.SameAim arena)
    (after : arena.SameAim left) : origin.SameAim left :=
  ⟨after.current.trans before.current, after.direction.trans before.direction⟩

variable {E : Type} [Scalar F] {arena left : Arena F τ}

theorem sameAim_of_place {tau : F} (placed : (arena.place tau : Checked E _) = .ok left) :
    arena.SameAim left := by
  unfold place at placed
  cases between : (Checked.between tau arena.candidate.x arena.current.x arena.current.r
      arena.direction : Checked E _) with
  | error halt =>
    rw [between] at placed
    cases placed
  | ok x =>
    rw [between] at placed
    cases placed
    exact ⟨rfl, rfl⟩

theorem sameAim_of_stepCandidate {C : Bounds F} {gamma : F}
    (stepped : (arena.stepCandidate C gamma : Checked E _) = .ok left) : arena.SameAim left := by
  unfold stepCandidate at stepped
  cases made : (arena.candidate.gradientStep C gamma : Checked E _) with
  | error halt =>
    rw [made] at stepped
    cases stepped
  | ok candidate =>
    rw [made] at stepped
    cases stepped
    exact ⟨rfl, rfl⟩

end Arena

namespace ArrayRequest

open ArrayProgram

variable [Scalar F] (request : ArrayRequest F ε τ) {origin arena left : Arena F τ}

theorem sameAim_of_evaluateCandidate (evaluated : request.evaluateCandidate arena = .ok left) :
    arena.SameAim left := by
  unfold evaluateCandidate at evaluated
  cases made : arena.candidate.evaluate request.merit arena.merit with
  | error halt =>
    rw [made] at evaluated
    cases evaluated
  | ok found =>
    rw [made] at evaluated
    cases evaluated
    exact ⟨rfl, rfl⟩

/-- A trial is placed, evaluated and stepped from in the arrays of the candidate. -/
theorem keeps_aim_tryPoint (iteration : Nat) (size : StepSize F) (tau : F)
    (same : origin.SameAim arena) :
    (request.tryPoint iteration size tau arena).Keeps origin.SameAim
      (fun found => origin.SameAim found.2) := by
  unfold tryPoint
  refine (keeps_step fun left placed => same.trans (Arena.sameAim_of_place placed)).bind ?_
  intro arena same
  refine (keeps_step fun left evaluated =>
    same.trans (request.sameAim_of_evaluateCandidate evaluated)).bind ?_
  intro arena same
  refine (keeps_step fun left stepped =>
    same.trans (Arena.sameAim_of_stepCandidate stepped)).bind ?_
  intro arena same
  exact keeps_pure same

/-- Whatever the routines do, a search writes over neither the current iterate nor the direction.
Each trial begins with those of the trial before. -/
theorem keeps_aim_backtrack (iteration : Nat) (size : StepSize F) (halvings : Nat) (tau : F)
    (same : origin.SameAim arena) :
    (request.backtrack iteration size halvings tau arena).Keeps origin.SameAim
      (fun result => origin.SameAim result.arena) := by
  induction halvings generalizing tau arena with
  | zero =>
    unfold backtrack
    refine (request.keeps_aim_tryPoint iteration size tau same).bind ?_
    intro found same
    dsimp only
    split
    · exact (keeps_tell _).bind fun _ _ => keeps_pure same
    · exact (keeps_tell _).bind fun _ _ => keeps_pure same
  | succ left ih =>
    rw [backtrack]
    refine (request.keeps_aim_tryPoint iteration size tau same).bind ?_
    intro found same
    dsimp only
    split
    · exact (keeps_tell _).bind fun _ _ => keeps_pure same
    · split
      · exact (keeps_tell _).bind fun _ _ => keeps_pure same
      · exact (keeps_tell _).bind fun _ _ => ih _ same

end ArrayRequest

end ProximalNewton
