import ProximalNewton.CurvatureSlots
import ProximalNewton.CurvatureStore
import ProximalNewton.Proofs.CheckedOperations

/-!
# The slots of a curvature store

The arrays of a curvature memory are the parts of a curvature store. `CurvatureStore.slots` takes
it apart, and `CurvatureSlots.Fit.exists_store` puts it together again from arrays that fit
(`CurvatureSlots.Fit`): as many slots as the memory is deep, vectors of one size in them, the head
below the number of slots and the number of live pairs not above it.

* `CurvatureStore.slot_slots`: where a slot is, can be computed without going below zero, and the
  slot is there.
* `CurvatureStore.offer_slots` and `CurvatureStore.apply_slots`: on the parts of a store, an offer
  and an application do what they do on the store.
-/

namespace ProximalNewton

variable {E F : Type} {n depth : Nat}

/-- The arrays of a store. -/
def CurvatureStore.slots (store : CurvatureStore F n depth) : CurvatureSlots F where
  s := (store.memory.pairs.slots.map fun pair => pair.s.toArray).toArray
  y := (store.memory.pairs.slots.map fun pair => pair.y.toArray).toArray
  rho := (store.memory.pairs.slots.map fun pair => pair.rho).toArray
  alpha := store.coefficients.toArray
  head := store.memory.pairs.head
  size := store.memory.pairs.size
  curvatureTol := store.memory.curvatureTol

/-- There are `depth` slots for pairs of vectors of size `n`, and the live ones are among them. -/
structure CurvatureSlots.Fit (slots : CurvatureSlots F) (n depth : Nat) : Prop where
  s : slots.s.size = depth
  s_each : ∀ v ∈ slots.s, v.size = n
  y : slots.y.size = depth
  y_each : ∀ v ∈ slots.y, v.size = n
  rho : slots.rho.size = depth
  alpha : slots.alpha.size = depth
  head_lt : slots.head < depth
  size_le : slots.size ≤ depth

namespace CurvatureStore

variable (store : CurvatureStore F n depth)

theorem slots_fit : store.slots.Fit n depth where
  s := Vector.size_toArray _
  s_each := by
    intro v member
    simp only [slots, Vector.mem_toArray_iff, Vector.mem_map] at member
    obtain ⟨pair, -, rfl⟩ := member
    exact pair.s.size_toArray
  y := Vector.size_toArray _
  y_each := by
    intro v member
    simp only [slots, Vector.mem_toArray_iff, Vector.mem_map] at member
    obtain ⟨pair, -, rfl⟩ := member
    exact pair.y.size_toArray
  rho := Vector.size_toArray _
  alpha := Vector.size_toArray _
  head_lt := store.memory.pairs.head_lt
  size_le := store.memory.pairs.size_le

end CurvatureStore

/-- Arrays that fit are those of a store. -/
theorem CurvatureSlots.Fit.exists_store {slots : CurvatureSlots F} (fit : slots.Fit n depth) :
    ∃ store : CurvatureStore F n depth, store.slots = slots := by
  have s_size (i : Fin depth) : slots.s[Fin.cast fit.s.symm i].size = n :=
    fit.s_each _ (Array.getElem_mem _)
  have y_size (i : Fin depth) : slots.y[Fin.cast fit.y.symm i].size = n :=
    fit.y_each _ (Array.getElem_mem _)
  let pair (i : Fin depth) : CurvaturePair F n :=
    { s := ⟨_, s_size i⟩, y := ⟨_, y_size i⟩, rho := slots.rho[Fin.cast fit.rho.symm i] }
  let pairs : RingBuffer (CurvaturePair F n) depth :=
    ⟨Vector.ofFn pair, slots.head, slots.size, fit.head_lt, fit.size_le⟩
  refine ⟨⟨⟨pairs, slots.curvatureTol⟩, ⟨slots.alpha, fit.alpha⟩⟩, ?_⟩
  rcases slots with ⟨s, y, rho, alpha, head, size, tol⟩
  unfold CurvatureStore.slots
  congr 1
  · apply Array.ext
    · simpa using fit.s.symm
    · intro i _ _
      simp [pairs, pair]
  · apply Array.ext
    · simpa using fit.y.symm
    · intro i _ _
      simp [pairs, pair]
  · apply Array.ext
    · simpa using fit.rho.symm
    · intro i _ _
      simp [pairs, pair]

namespace CurvatureStore

variable (store : CurvatureStore F n depth)

/-! ## Where a slot is -/

theorem capacity_slots : store.slots.capacity = depth :=
  Vector.size_toArray _

/-- The index of a slot never goes below zero while it is computed. -/
theorem slot_slots (k : Nat) :
    (store.slots.slot k : Checked E Nat) = .ok (store.memory.pairs.slot k) := by
  have head_lt := store.memory.pairs.head_lt
  have behind : store.memory.pairs.size ≤ store.memory.pairs.head + depth :=
    Nat.le_trans store.memory.pairs.size_le (Nat.le_add_left _ _)
  unfold CurvatureSlots.slot
  rw [capacity_slots]
  refine (congrArg (· >>= _) (Checked.below_of_le behind)).trans ?_
  exact Checked.modulo_of_pos _ (by omega)

/-- What is read in the slots of a live pair is the pair. -/
theorem read_slot (k : Nat) (live : k < store.size) :
    let pair := store.memory.pairs.get k live
    (Checked.read store.slots.s (store.memory.pairs.slot k) : Checked E _) = .ok pair.s.toArray ∧
      (Checked.read store.slots.y (store.memory.pairs.slot k) : Checked E _) =
        .ok pair.y.toArray ∧
      (Checked.read store.slots.rho (store.memory.pairs.slot k) : Checked E _) = .ok pair.rho := by
  have inside := store.memory.pairs.slot_lt k
  unfold slots
  refine ⟨?_, ?_, ?_⟩
  all_goals
    rw [Checked.read_toArray _ inside, Vector.getElem_map]
    rfl

variable [Scalar F]

/-! ## Allocation -/

theorem allocate_slots (n : Nat) {params : MemoryParams F} (positive : 0 < params.depth) :
    (CurvatureSlots.allocate n params : Checked E _) =
      .ok (CurvatureStore.empty params.curvatureTol positive :
        CurvatureStore F n params.depth).slots := by
  have emptied : (CurvatureStore.empty params.curvatureTol positive :
      CurvatureStore F n params.depth).slots =
        { s := Array.replicate params.depth (Array.replicate n 0)
          y := Array.replicate params.depth (Array.replicate n 0)
          rho := Array.replicate params.depth 0
          alpha := Array.replicate params.depth 0
          head := 0
          size := 0
          curvatureTol := params.curvatureTol } := by
    simp [slots, CurvatureStore.empty, CurvatureMemory.empty, RingBuffer.empty]
  unfold CurvatureSlots.allocate
  rw [if_neg (Nat.ne_of_gt positive), emptied]
  rfl

/-! ## Offers -/

omit [Scalar F] in
/-- A vector copied to a slot among others of its size. -/
theorem store_map {α : Type} (entries : Vector α depth) (part : α → Vector F n) {i : Nat}
    (inside : i < depth) (entry : α) :
    (CurvatureSlots.store (entries.map fun entry => (part entry).toArray).toArray i
        (part entry).toArray : Checked E _) =
      .ok ((entries.set i entry).map fun entry => (part entry).toArray).toArray := by
  unfold CurvatureSlots.store
  rw [Checked.read_toArray _ inside, Checked.ok_bind, Vector.getElem_map, Checked.copy_eq,
    Checked.ok_bind, Checked.write_toArray _ inside, Vector.map_set]

/-- On the parts of a store, an offer does what it does on the store. -/
theorem offer_slots (s y : Vector F n) :
    (store.slots.offer s.toArray y.toArray : Checked E _) =
      .ok ((store.offer s y).1, (store.offer s y).2.slots) := by
  have head_lt := store.memory.pairs.head_lt
  let entries := store.memory.pairs.slots
  let pair := CurvaturePair.ofChanges s y
  let pushed : CurvatureStore F n depth :=
    { store with memory := { store.memory with pairs := store.memory.pairs.push pair } }
  have stored : (CurvatureSlots.store store.slots.s store.slots.head s.toArray : Checked E _) =
      .ok pushed.slots.s := store_map entries CurvaturePair.s head_lt pair
  have storedY : (CurvatureSlots.store store.slots.y store.slots.head y.toArray : Checked E _) =
      .ok pushed.slots.y := store_map entries CurvaturePair.y head_lt pair
  have rho : (Checked.write store.slots.rho store.slots.head (1 / dot s y) : Checked E _) =
      .ok pushed.slots.rho := by
    refine (Checked.write_toArray _ head_lt _).trans ?_
    have pushed_rho : pushed.slots.rho =
        ((entries.map fun pair => pair.rho).set store.memory.pairs.head pair.rho).toArray := by
      rw [← Vector.map_set]
      rfl
    rw [pushed_rho]
    rfl
  have head : (Checked.modulo (store.slots.head + 1) store.slots.capacity : Checked E _) =
      .ok pushed.slots.head := by
    rw [capacity_slots]
    exact Checked.modulo_of_pos _ (Nat.zero_lt_of_lt head_lt)
  have agrees : s.toArray.size = y.toArray.size := by simp
  unfold CurvatureSlots.offer
  rw [Checked.agree_of_eq agrees, Checked.ok_bind, Checked.dot_eq, Checked.ok_bind]
  dsimp only
  rw [Checked.norm_eq, Checked.norm_eq]
  by_cases admitted : store.memory.Admits s y
  · have passes : Scalar.isFinite (dot s y) = true ∧
        ¬ dot s y ≤ store.slots.curvatureTol * norm s * norm y := admitted
    have offered : store.offer s y = (true, pushed) := by
      unfold CurvatureStore.offer CurvatureMemory.offer
      rw [if_pos admitted]
      simp only [admitted, decide_true]
      rfl
    rw [if_pos passes, stored, Checked.ok_bind, storedY, Checked.ok_bind, rho,
      Checked.ok_bind, head, Checked.ok_bind, capacity_slots, offered]
    rfl
  · have fails : ¬ (Scalar.isFinite (dot s y) = true ∧
        ¬ dot s y ≤ store.slots.curvatureTol * norm s * norm y) := admitted
    have offered : store.offer s y = (false, store) := by
      unfold CurvatureStore.offer CurvatureMemory.offer
      rw [if_neg admitted]
      simp only [admitted, decide_false]
    rw [if_neg fails, offered]
    rfl

/-! ## The two loops -/

/-- What is noted on the way down, as arrays. -/
def arrays (state : Vector F n × Vector F depth) : Array F × Array F :=
  (state.1.toArray, state.2.toArray)

theorem descendTo_slots (k : Nat) (live : k < store.size)
    (state : Vector F n × Vector F depth) :
    (store.slots.descendTo (arrays state) k : Checked E _) =
      .ok (arrays (store.descendTo k live state)) := by
  obtain ⟨s, y, rho⟩ := store.read_slot (E := E) k live
  unfold CurvatureSlots.descendTo arrays
  rw [slot_slots, Checked.ok_bind, rho, Checked.ok_bind, s, Checked.ok_bind, Checked.dot_eq,
    Checked.ok_bind]
  dsimp only
  rw [Checked.write_toArray _ (store.memory.pairs.slot_lt k), Checked.ok_bind, y, Checked.ok_bind,
    Checked.accumulate_eq, Checked.ok_bind]
  rfl

theorem ascendTo_slots (coefficients : Vector F depth) (k : Nat) (live : k < store.size)
    (q : Vector F n) :
    (store.slots.ascendTo coefficients.toArray q.toArray k : Checked E _) =
      .ok (store.ascendTo coefficients k live q).toArray := by
  obtain ⟨s, y, rho⟩ := store.read_slot (E := E) k live
  unfold CurvatureSlots.ascendTo
  rw [slot_slots, Checked.ok_bind, rho, Checked.ok_bind, y, Checked.ok_bind, Checked.dot_eq,
    Checked.ok_bind]
  dsimp only
  rw [Checked.read_toArray _ (store.memory.pairs.slot_lt k), Checked.ok_bind, s, Checked.ok_bind,
    Checked.accumulate_eq]
  rfl

theorem scaleInitially_slots (live : 0 < store.size) (q : Vector F n) :
    (store.slots.scaleInitially q.toArray : Checked E _) =
      .ok (CurvatureMemory.scaleInitially store.memory.pairs.newest? q).toArray := by
  have last : store.size - 1 < store.size := Nat.sub_one_lt_of_lt live
  obtain ⟨-, y, rho⟩ := store.read_slot (E := E) (store.size - 1) last
  have newest : store.memory.pairs.newest? =
      some (store.memory.pairs.get (store.size - 1) last) := dif_pos live
  have below : (Checked.below store.slots.size 1 : Checked E _) = .ok (store.size - 1) :=
    Checked.below_of_le live
  unfold CurvatureSlots.scaleInitially CurvatureMemory.scaleInitially
  rw [below, Checked.ok_bind, slot_slots, Checked.ok_bind, y, Checked.ok_bind, Checked.dot_eq,
    Checked.ok_bind, newest]
  dsimp only
  split
  · rw [rho, Checked.ok_bind, Checked.scale_eq]
    rfl
  · rfl

/-- On the parts of a store, the two loops do what they do on the store. -/
theorem twoLoops_slots (live : 0 < store.size) (v : Vector F n) :
    let down := Nat.foldRev store.size store.descendTo (v, store.coefficients)
    let middle := CurvatureMemory.scaleInitially store.memory.pairs.newest? down.1
    (store.slots.twoLoops v.toArray : Checked E _) =
      .ok ((Nat.fold store.size (store.ascendTo down.2) middle).toArray,
        CurvatureStore.slots { store with coefficients := down.2 }) := by
  have down := Checked.foldlM_reverse_range_eq (E := E) arrays store.descendTo
    store.descendTo_slots (v, store.coefficients)
  unfold CurvatureSlots.twoLoops
  intro below middle
  have up := Checked.foldlM_range_eq (E := E) Vector.toArray (store.ascendTo below.2)
    (store.ascendTo_slots below.2) middle
  refine (congrArg (· >>= _) down).trans ?_
  rw [Checked.ok_bind]
  refine (congrArg (· >>= _) (store.scaleInitially_slots live below.1)).trans ?_
  rw [Checked.ok_bind]
  refine (congrArg (· >>= _) up).trans ?_
  rfl

/-- On the parts of a store, an application does what it does on the store. -/
theorem apply_slots (scale : F) (v d : Vector F n) :
    (store.slots.apply scale v.toArray d.toArray : Checked E _) =
      .ok ((store.apply scale v).1.toArray, (store.apply scale v).2.slots) := by
  have agrees : v.toArray.size = d.toArray.size := by simp
  unfold CurvatureSlots.apply
  rw [Checked.agree_of_eq agrees, Checked.ok_bind, Checked.copy_eq, Checked.ok_bind]
  by_cases live : 0 < store.size
  · rw [if_pos (show 0 < store.slots.size from live)]
    refine (congrArg (· >>= _) (store.twoLoops_slots live v)).trans ?_
    rfl
  · rw [if_neg (show ¬ 0 < store.slots.size from live)]
    rcases store with ⟨⟨⟨entries, head, size, head_lt, size_le⟩, tol⟩, coefficients⟩
    cases size with
    | zero => rfl
    | succ size => exact absurd (Nat.succ_pos size) live

end CurvatureStore

end ProximalNewton
