import Mathlib.Data.List.DropRight
import ProximalNewton.CurvatureStore

/-!
# The curvature store is a bounded list

A curvature store keeps its pairs and coefficients in slots that are used again and
again and never wiped. What it shows can nevertheless be read off the calls made to
it: it holds the `recent` pairs, which are the last of those admitted since it was
cleared, at most `depth` of them, and it applies the two-loop recursion over this
list.

* `RingBuffer.live_iff`: the walk over the live entries meets each live slot once.
* `CurvatureStore.apply_eq`: the coefficients that the second loop reads are those
  that the first loop noted, so that an application gives what the list of its pairs
  determines (`twoLoop`).
* `CurvatureStore.after_shows_recent`: what a store shows after any calls.
-/

namespace ProximalNewton

/-! ## The last entries of a list -/

theorem length_rtake {α : Type} (list : List α) (count : Nat) :
    (list.rtake count).length = min count list.length := by
  unfold List.rtake
  rw [List.length_drop]
  omega

/-- The last entries, when another one comes: it goes to the end, and if there were
as many as are wanted, the oldest one makes way. -/
theorem rtake_concat {α : Type} (list : List α) (entry : α) (count : Nat) :
    (list ++ [entry]).rtake count =
      (list.rtake count ++ [entry]).drop ((list.rtake count).length + 1 - count) := by
  have dropped : list.rtake count ++ [entry] =
      (list ++ [entry]).drop (list.length - count) :=
    (List.drop_append_of_le_length (Nat.sub_le _ _)).symm
  rw [length_rtake, dropped, List.drop_drop]
  unfold List.rtake
  rw [List.length_append, List.length_singleton]
  congr 1
  omega

/-! ## Live slots -/

namespace RingBuffer

variable {α : Type} {cap : Nat}

/-- How many pushes ago a slot was written, the latest push not counted. -/
def age (ring : RingBuffer α cap) (j : Nat) : Nat :=
  (ring.head + cap - 1 - j) % cap

/-- The slot is one of those written last, as many as there are live entries. -/
def Live (ring : RingBuffer α cap) (j : Nat) : Prop :=
  j < cap ∧ ring.age j < ring.size

theorem age_eq (ring : RingBuffer α cap) {j : Nat} (inside : j < cap) :
    ring.age j = if j < ring.head then ring.head - 1 - j else ring.head + cap - 1 - j := by
  have head_lt := ring.head_lt
  rw [age, mod_of_lt_two_mul (by omega)]
  split <;> split <;> omega

/-- The newest entry is of age zero, and every older one a push older. -/
theorem age_slot (ring : RingBuffer α cap) {k : Nat} (live : k < ring.size) :
    ring.age (ring.slot k) = ring.size - 1 - k := by
  have head_lt := ring.head_lt
  have size_le := ring.size_le
  have slot_eq := ring.slot_eq live
  rw [ring.age_eq (ring.slot_lt k)]
  split at slot_eq <;> split <;> omega

/-- The slot of an entry is live. -/
theorem live_slot (ring : RingBuffer α cap) {k : Nat} (live : k < ring.size) :
    ring.Live (ring.slot k) := by
  refine ⟨ring.slot_lt k, ?_⟩
  rw [ring.age_slot live]
  omega

/-- A live slot holds the entry of its age. -/
theorem slot_of_live (ring : RingBuffer α cap) {j : Nat} (live : ring.Live j) :
    ring.slot (ring.size - 1 - ring.age j) = j := by
  obtain ⟨inside, young⟩ := live
  have head_lt := ring.head_lt
  have size_le := ring.size_le
  have age_eq := ring.age_eq inside
  rw [ring.slot_eq (by omega)]
  split at age_eq <;> split <;> omega

/-- The entries are found in the live slots, and each of these holds one entry. -/
theorem live_iff (ring : RingBuffer α cap) (j : Nat) :
    ring.Live j ↔ ∃! k, k < ring.size ∧ ring.slot k = j := by
  constructor
  · intro live
    have found := ring.slot_of_live live
    have young := live.2
    have in_window : ring.size - 1 - ring.age j < ring.size := by omega
    refine ⟨_, ⟨in_window, found⟩, ?_⟩
    intro k other
    exact ring.slot_injective other.1 in_window (other.2.trans found.symm)
  · intro found
    obtain ⟨k, ⟨live, rfl⟩, -⟩ := found
    exact ring.live_slot live

/-- The rings agree in the window of the live entries, whatever the other slots
hold. -/
structure SameWindow (ring other : RingBuffer α cap) : Prop where
  head : other.head = ring.head
  size : other.size = ring.size
  live : ∀ j (inside : j < cap), ring.Live j → other.slots[j] = ring.slots[j]

/-- Slots outside the window never show. -/
theorem SameWindow.toList_eq {ring other : RingBuffer α cap} (same : ring.SameWindow other) :
    other.toList = ring.toList := by
  apply List.ext_getElem
  · simp [same.size]
  · intro k live _
    have live : k < ring.size := by simpa [same.size] using live
    have slot_eq : other.slot k = ring.slot k := by
      unfold slot
      rw [same.head, same.size]
    rw [getElem_toList, getElem_toList, get, get]
    simp only [slot_eq]
    exact same.live _ _ (ring.live_slot live)

end RingBuffer

variable {F : Type} [Scalar F] {n depth : Nat}

/-! ## The two-loop recursion over a list -/

/-- The two-loop recursion over pairs, the newest first, around an initial estimate:
down to the oldest pair, through the initial estimate, and back to the newest. -/
def twoLoop (initial : Vector F n → Vector F n) :
    List (CurvaturePair F n) → Vector F n → Vector F n
  | [], q => initial q
  | newest :: older, q =>
    let alpha := newest.rho * dot newest.s q
    let q := twoLoop initial older (q + (-alpha) * newest.y)
    let beta := newest.rho * dot newest.y q
    q + (alpha - beta) * newest.s

/-- The initial estimate of the recursion: every component is multiplied by `(1 / ρ) / y·y` of
the newest pair. Without pairs, or if `y·y` is not positive, it is the identity. -/
def initialEstimate (pairs : List (CurvaturePair F n)) (q : Vector F n) : Vector F n :=
  match pairs.getLast? with
  | some newest =>
    if 0 < dot newest.y newest.y then
      q.map fun component => component * (1 / newest.rho / dot newest.y newest.y)
    else q
  | none => q

/-- The inverse estimate of a list of pairs, oldest first, applied to a vector, times
`scale`. -/
def inverseOf (pairs : List (CurvaturePair F n)) (scale : F) (v : Vector F n) : Vector F n :=
  (twoLoop (initialEstimate pairs) pairs.reverse v).map (· * scale)

/-- A memory scales by its newest pair. -/
theorem CurvatureMemory.scaleInitially_eq (pairs : List (CurvaturePair F n)) :
    scaleInitially pairs.getLast? = initialEstimate pairs := by
  funext q
  unfold scaleInitially initialEstimate
  cases pairs.getLast? with
  | none => rfl
  | some newest => rfl

/-- Noting coefficients on the way to the oldest pair and using them up on the way
back is the recursion; coefficients noted before are used after it. -/
theorem foldl_ascend_foldl_descend (initial : Vector F n → Vector F n)
    (newestFirst : List (CurvaturePair F n)) (v : Vector F n)
    (noted : List (CurvaturePair F n × F)) :
    let state := newestFirst.foldl (fun state pair => CurvatureMemory.descend pair state) (v, noted)
    state.2.foldl CurvatureMemory.ascend (initial state.1) =
      noted.foldl CurvatureMemory.ascend (twoLoop initial newestFirst v) := by
  induction newestFirst generalizing v noted with
  | nil => rfl
  | cons newest older ih => exact ih _ _

/-- A memory applies the inverse estimate of the list of its pairs. -/
theorem CurvatureMemory.applyInverse_eq (memory : CurvatureMemory F n depth) (scale : F)
    (v : Vector F n) : memory.applyInverse scale v = inverseOf memory.pairs.toList scale v := by
  unfold applyInverse inverseOf
  rw [RingBuffer.foldr_eq, RingBuffer.newest?_eq, List.foldr_eq_foldl_reverse, scaleInitially_eq]
  exact congrArg (Vector.map (· * scale)) (foldl_ascend_foldl_descend _ _ v [])

/-! ## Offers -/

/-- The curvature along a pair is finite and exceeds `tol ‖s‖ ‖y‖`. -/
def Admissible (tol : F) (s y : Vector F n) : Prop :=
  Scalar.isFinite (dot s y) = true ∧ ¬ dot s y ≤ tol * norm s * norm y

instance decidableAdmissible (tol : F) (s y : Vector F n) : Decidable (Admissible tol s y) :=
  inferInstanceAs (Decidable (_ ∧ _))

namespace CurvatureMemory

omit [Scalar F] in
theorem toList_of_empty {memory : CurvatureMemory F n depth} (empty : memory.size = 0) :
    memory.pairs.toList = [] := by
  rw [← List.length_eq_zero_iff, RingBuffer.length_toList]
  exact empty

theorem curvatureTol_offer (memory : CurvatureMemory F n depth) (s y : Vector F n) :
    (memory.offer s y).curvatureTol = memory.curvatureTol := by
  unfold offer
  split
  · rfl
  · rfl

/-- If a memory holds the last entries of a list, then an offer appends an admissible
pair to this list. -/
theorem toList_offer_of_held {memory : CurvatureMemory F n depth}
    {entries : List (CurvaturePair F n)} (held : memory.pairs.toList = entries.rtake depth)
    (s y : Vector F n) :
    (memory.offer s y).pairs.toList =
      (if Admissible memory.curvatureTol s y then entries ++ [.ofChanges s y]
        else entries).rtake depth := by
  have same_size : memory.size = (entries.rtake depth).length := by
    rw [← held, RingBuffer.length_toList]
    rfl
  rw [toList_offer, held, same_size]
  by_cases admitted : memory.Admits s y
  · have admissible : Admissible memory.curvatureTol s y := admitted
    rw [if_pos admitted, if_pos admissible, rtake_concat]
  · have refused : ¬ Admissible memory.curvatureTol s y := admitted
    rw [if_neg admitted, if_neg refused]

/-- The first pair that is admitted is held alone. -/
theorem toList_offer_of_empty {memory : CurvatureMemory F n depth} (empty : memory.size = 0)
    {s y : Vector F n} (admitted : memory.Admits s y) :
    (memory.offer s y).pairs.toList = [.ofChanges s y] := by
  have positive : 0 < depth := Nat.zero_lt_of_lt memory.pairs.head_lt
  have room : memory.size + 1 - depth = 0 := by omega
  rw [toList_offer, if_pos admitted, toList_of_empty empty, room, List.drop_zero,
    List.nil_append]

end CurvatureMemory

namespace CurvatureStore

/-! ## The coefficients in their slots -/

/-- The `k`-th oldest pair with the coefficient in the slot beside it. -/
def noted (store : CurvatureStore F n depth) (coefficients : Vector F depth)
    (k : Fin store.size) : CurvaturePair F n × F :=
  (store.memory.pairs.get k.val k.isLt, coefficients[store.slot k.val])

omit [Scalar F] in
/-- A coefficient stays while others are noted. -/
theorem noted_set (store : CurvatureStore F n depth) (coefficients : Vector F depth) (alpha : F)
    {j k : Fin store.size} (other : j ≠ k) :
    store.noted (coefficients.set (store.slot j.val) alpha) k = store.noted coefficients k := by
  have apart : store.memory.pairs.slot j.val ≠ store.memory.pairs.slot k.val := by
    intro same
    exact other (Fin.ext (store.memory.pairs.slot_injective j.isLt k.isLt same))
  unfold noted
  refine congrArg (Prod.mk _) ?_
  exact Vector.getElem_set_ne _ _ apart

/-- What a walk over different entries notes in their slots is found there
afterwards, and is what the walk that keeps its notes in a list has noted. -/
theorem foldr_descendTo (store : CurvatureStore F n depth) (v : Vector F n)
    (coefficients : Vector F depth) {entries : List (Fin store.size)} (distinct : entries.Nodup) :
    let inSlots := entries.foldr (fun (k : Fin store.size) => store.descendTo k.val k.isLt)
      (v, coefficients)
    entries.foldr (fun (k : Fin store.size) =>
        CurvatureMemory.descend (store.memory.pairs.get k.val k.isLt)) (v, []) =
      (inSlots.1, entries.map (store.noted inSlots.2)) := by
  induction entries with
  | nil => rfl
  | cons oldest newer ih =>
    obtain ⟨new, distinct⟩ := List.nodup_cons.mp distinct
    have before := ih distinct
    dsimp only at before ⊢
    rw [List.foldr_cons, List.foldr_cons, List.map_cons, before]
    generalize newer.foldr _ (v, coefficients) = state
    have kept : ∀ k ∈ newer, store.noted (store.descendTo oldest.val oldest.isLt state).2 k =
        store.noted state.2 k := by
      intro k member
      exact store.noted_set _ _ fun same => new (same ▸ member)
    rw [List.map_congr_left kept]
    refine congrArg (Prod.mk _) (congrArg (· :: _) (congrArg (Prod.mk _) ?_))
    exact (Vector.getElem_set_self _).symm

/-- The coefficients that the second loop reads are those that the first loop noted,
whatever was in the slots before. -/
theorem apply_eq (store : CurvatureStore F n depth) (scale : F) (v : Vector F n) :
    (store.apply scale v).1 = store.memory.applyInverse scale v := by
  let inSlots := Nat.foldRev store.size store.descendTo (v, store.coefficients)
  have down : store.memory.pairs.foldr CurvatureMemory.descend (v, []) =
      (inSlots.1, (List.finRange store.size).map (store.noted inSlots.2)) := by
    have same := store.foldr_descendTo v store.coefficients (List.nodup_finRange store.size)
    unfold inSlots RingBuffer.foldr
    rw [Nat.foldRev_eq_finRange_foldr, Nat.foldRev_eq_finRange_foldr]
    exact same
  have back : ∀ q, Nat.fold store.size (store.ascendTo inSlots.2) q =
      ((List.finRange store.size).map (store.noted inSlots.2)).foldl CurvatureMemory.ascend q := by
    intro q
    rw [Nat.fold_eq_finRange_foldl, List.foldl_map]
    rfl
  show (Nat.fold store.size (store.ascendTo inSlots.2)
    (CurvatureMemory.scaleInitially store.memory.pairs.newest? inSlots.1)).map (· * scale) = _
  unfold CurvatureMemory.applyInverse
  rw [back, down]

/-- A store applies the inverse estimate of the list of its pairs. -/
theorem apply_eq_inverseOf (store : CurvatureStore F n depth) (scale : F) (v : Vector F n) :
    (store.apply scale v).1 = inverseOf store.memory.pairs.toList scale v := by
  rw [apply_eq, CurvatureMemory.applyInverse_eq]

end CurvatureStore

/-! ## What a store shows -/

namespace CurvatureCall

/-- The call forgets every pair. -/
def isClear : CurvatureCall F n → Bool
  | .clear => true
  | _ => false

/-- The pair that a call adds to those admitted. -/
def admitted? (tol : F) : CurvatureCall F n → Option (CurvaturePair F n)
  | .offer s y => if Admissible tol s y then some (.ofChanges s y) else none
  | _ => none

end CurvatureCall

/-- The pairs admitted since the store was last cleared, oldest first. -/
def admittedPairs (tol : F) (calls : List (CurvatureCall F n)) : List (CurvaturePair F n) :=
  (calls.rtakeWhile fun call => !call.isClear).filterMap (CurvatureCall.admitted? tol)

/-- The last of the pairs admitted since the store was last cleared, at most `depth`
of them, oldest first. -/
def recentPairs (depth : Nat) (tol : F) (calls : List (CurvatureCall F n)) :
    List (CurvaturePair F n) :=
  (admittedPairs tol calls).rtake depth

namespace CurvatureStore

/-- What can be seen of a store that holds these pairs, with `tol` for the bound of
admission: how many there are and whether there are any, the answer to each offer,
and what each application gives. -/
structure Shows (store : CurvatureStore F n depth) (tol : F)
    (pairs : List (CurvaturePair F n)) : Prop where
  entries : store.memory.pairs.toList = pairs
  size : store.size = pairs.length
  isEmpty : store.isEmpty = pairs.isEmpty
  capacity : store.capacity = depth
  admitted : ∀ s y, (store.offer s y).1 = decide (Admissible tol s y)
  /-- A pair that is not admitted changes nothing. -/
  refused : ∀ s y, (store.offer s y).1 = false → (store.offer s y).2 = store
  /-- An application gives what the pairs determine, also if the slots outside the
  window of the live entries and the slots for coefficients hold anything else. -/
  applied : ∀ other : CurvatureStore F n depth,
    store.memory.pairs.SameWindow other.memory.pairs → ∀ scale v,
      (other.apply scale v).1 = inverseOf pairs scale v
  /-- The slot arithmetic does not go below zero. -/
  in_range : store.size ≤ store.memory.pairs.head + store.capacity
  /-- Each live slot is met once on a walk over the entries. -/
  met_once : ∀ j, store.memory.pairs.Live j ↔
    ∃! k, k < store.size ∧ store.memory.pairs.slot k = j

theorem curvatureTol_perform (store : CurvatureStore F n depth) (call : CurvatureCall F n) :
    (store.perform call).memory.curvatureTol = store.memory.curvatureTol := by
  cases call with
  | offer s y => exact store.memory.curvatureTol_offer s y
  | clear => rfl
  | apply scale v => rfl

/-- Whatever its slots hold, a store shows the list of its pairs. -/
theorem shows_toList (store : CurvatureStore F n depth) :
    store.Shows store.memory.curvatureTol store.memory.pairs.toList := by
  constructor
  case entries => rfl
  case size => exact (RingBuffer.length_toList _).symm
  case isEmpty =>
    rw [Bool.eq_iff_iff, List.isEmpty_iff, ← List.length_eq_zero_iff, RingBuffer.length_toList]
    exact beq_iff_eq
  case capacity => rfl
  case admitted =>
    intro s y
    rfl
  case refused =>
    intro s y refusal
    have kept : store.memory.offer s y = store.memory := if_neg (of_decide_eq_false refusal)
    show { store with memory := store.memory.offer s y } = store
    rw [kept]
  case applied =>
    intro other same scale v
    rw [other.apply_eq_inverseOf, same.toList_eq]
  case in_range =>
    exact store.memory.pairs.size_le.trans (Nat.le_add_left _ _)
  case met_once =>
    intro j
    exact store.memory.pairs.live_iff j

end CurvatureStore

section Calls

variable (positive : 0 < depth) (tol : F) (calls : List (CurvatureCall F n))

/-- A call clears the store, or adds the pair that it admits. -/
theorem admittedPairs_concat (call : CurvatureCall F n) :
    admittedPairs tol (calls ++ [call]) =
      if call.isClear then [] else admittedPairs tol calls ++ (call.admitted? tol).toList := by
  unfold admittedPairs
  rw [List.rtakeWhile_concat]
  cases cleared : call.isClear with
  | true => rfl
  | false =>
    simp only [Bool.not_false, if_true, Bool.false_eq_true, if_false, List.filterMap_append]
    cases known : call.admitted? tol with
    | none => simp [known]
    | some pair => simp [known]

/-- Every pair that is held was admitted. -/
theorem mem_recentPairs {pair : CurvaturePair F n} (member : pair ∈ recentPairs depth tol calls) :
    ∃ s y, Admissible tol s y ∧ pair = .ofChanges s y := by
  have admitted : pair ∈ admittedPairs tol calls := List.mem_of_mem_drop member
  obtain ⟨call, -, known⟩ := List.mem_filterMap.mp admitted
  cases call with
  | offer s y =>
    by_cases admissible : Admissible tol s y
    · exact ⟨s, y, admissible, (Option.some_inj.mp ((if_pos admissible).symm.trans known)).symm⟩
    · cases (if_neg admissible).symm.trans known
  | clear => cases known
  | apply scale v => cases known

namespace CurvatureStore

theorem after_concat (store : CurvatureStore F n depth) (call : CurvatureCall F n) :
    store.after (calls ++ [call]) = (store.after calls).perform call := by
  unfold after
  rw [List.foldl_append]
  rfl

theorem curvatureTol_after (store : CurvatureStore F n depth) :
    (store.after calls).memory.curvatureTol = store.memory.curvatureTol := by
  induction calls using List.reverseRecOn with
  | nil => rfl
  | append_singleton calls call ih => rw [after_concat, curvatureTol_perform, ih]

variable {tol calls} in
/-- A call keeps the recent pairs in the store. -/
theorem toList_perform {store : CurvatureStore F n depth}
    (same_tol : store.memory.curvatureTol = tol)
    (held : store.memory.pairs.toList = recentPairs depth tol calls)
    (call : CurvatureCall F n) :
    (store.perform call).memory.pairs.toList = recentPairs depth tol (calls ++ [call]) := by
  unfold recentPairs at held ⊢
  rw [admittedPairs_concat]
  cases call with
  | offer s y =>
    have offered := CurvatureMemory.toList_offer_of_held held s y
    rw [same_tol] at offered
    refine offered.trans (congrArg (List.rtake · depth) ?_)
    by_cases admissible : Admissible tol s y
    · simp [CurvatureCall.isClear, CurvatureCall.admitted?, admissible]
    · simp [CurvatureCall.isClear, CurvatureCall.admitted?, admissible]
  | clear => simp [CurvatureCall.isClear, perform, clear, CurvatureMemory.clear, List.rtake]
  | apply scale v =>
    show store.memory.pairs.toList = _
    simp [CurvatureCall.isClear, CurvatureCall.admitted?, held]

/-- The pairs after any calls are the recent ones. -/
theorem toList_after :
    ((empty tol positive).after calls).memory.pairs.toList = recentPairs depth tol calls := by
  induction calls using List.reverseRecOn with
  | nil => simp [after, empty, CurvatureMemory.empty, recentPairs, admittedPairs, List.rtake]
  | append_singleton calls call ih =>
    rw [after_concat]
    exact toList_perform (curvatureTol_after calls _) ih call

/-- **The curvature store is a bounded list.** After any calls, a store with room for
`depth` pairs shows the last of the pairs admitted since it was cleared, `depth` of
them or all if there are fewer. -/
theorem after_shows_recent :
    ((empty tol positive).after calls).Shows tol (recentPairs depth tol calls) ∧
      (recentPairs depth tol calls).length = min depth (admittedPairs tol calls).length ∧
      recentPairs depth tol calls <:+ admittedPairs tol calls := by
  have shows := shows_toList ((empty tol positive).after calls)
  rw [curvatureTol_after, toList_after] at shows
  exact ⟨shows, length_rtake _ _, List.drop_suffix _ _⟩

end CurvatureStore

end Calls

/-- A pair too many for a memory of two, after one that is not admitted. -/
def evictingCalls : List (CurvatureCall Float 1) :=
  [.offer #v[1] #v[1], .offer #v[1] #v[2], .offer #v[1] #v[-1], .apply 1 #v[3],
    .offer #v[1] #v[8]]

/-- The memory of two shows the second and the last of the pairs offered to it. -/
theorem after_shows_recent_evicting : 0 < 2 ∧
    ((CurvatureStore.empty 1e-10 Nat.two_pos : CurvatureStore Float 1 2).after
      evictingCalls).Shows 1e-10 [.ofChanges #v[1] #v[2], .ofChanges #v[1] #v[8]] := by
  have first : Admissible (1e-10 : Float) #v[1] #v[1] := by decide +kernel
  have second : Admissible (1e-10 : Float) #v[1] #v[2] := by decide +kernel
  have third : ¬ Admissible (1e-10 : Float) #v[1] #v[-1] := by decide +kernel
  have last : Admissible (1e-10 : Float) #v[1] #v[8] := by decide +kernel
  have recent : recentPairs 2 1e-10 evictingCalls =
      [.ofChanges #v[1] #v[2], .ofChanges #v[1] #v[8]] := by
    simp [recentPairs, admittedPairs, evictingCalls, CurvatureCall.admitted?, first, second, third,
      last, List.rtake, List.rtakeWhile, CurvatureCall.isClear, List.filterMap_cons]
  refine ⟨Nat.two_pos, ?_⟩
  have shows := (CurvatureStore.after_shows_recent Nat.two_pos 1e-10 evictingCalls).1
  rw [recent] at shows
  exact shows

end ProximalNewton
