/-!
Bounded memories of the most recent entries.

A `RingBuffer α cap` keeps its entries in `cap` fixed slots and overwrites the oldest
one when it is full. `toList` is its view, oldest entry first: `toList_push` and
`toList_clear` say what the operations do to it, and `foldr_eq` that the walk
over the slots is a fold of the view. Slots outside the live window never show.
-/

namespace ProximalNewton

/-- The `size` entries last pushed, in `cap` slots. -/
structure RingBuffer (α : Type) (cap : Nat) where
  slots : Vector α cap
  /-- The slot that takes the next entry. -/
  head : Nat
  /-- How many entries are live. -/
  size : Nat
  head_lt : head < cap
  size_le : size ≤ cap

namespace RingBuffer

variable {α β : Type} {cap : Nat}

/-- No live entry. The slots are filled with an entry that is never read. -/
def empty (filler : α) (positive : 0 < cap) : RingBuffer α cap where
  slots := Vector.replicate cap filler
  head := 0
  size := 0
  head_lt := positive
  size_le := Nat.zero_le _

/-- Makes every entry dead; the slots keep their contents. -/
def clear (ring : RingBuffer α cap) : RingBuffer α cap :=
  { ring with
    head := 0
    size := 0
    head_lt := Nat.lt_of_le_of_lt (Nat.zero_le _) ring.head_lt
    size_le := Nat.zero_le _ }

/-- Stores an entry, over the oldest one when every slot is live. -/
def push (ring : RingBuffer α cap) (entry : α) : RingBuffer α cap where
  slots := ring.slots.set ring.head entry ring.head_lt
  head := (ring.head + 1) % cap
  size := min (ring.size + 1) cap
  head_lt := Nat.mod_lt _ (Nat.lt_of_le_of_lt (Nat.zero_le _) ring.head_lt)
  size_le := Nat.min_le_right _ _

/-- The slot of the `k`-th oldest entry. -/
def slot (ring : RingBuffer α cap) (k : Nat) : Nat :=
  (ring.head + cap - ring.size + k) % cap

theorem slot_lt (ring : RingBuffer α cap) (k : Nat) : ring.slot k < cap :=
  Nat.mod_lt _ (Nat.lt_of_le_of_lt (Nat.zero_le _) ring.head_lt)

/-- The `k`-th oldest entry. -/
def get (ring : RingBuffer α cap) (k : Nat) (_live : k < ring.size) : α :=
  getElem ring.slots (ring.slot k) (ring.slot_lt k)

/-- The entry last pushed. -/
def newest? (ring : RingBuffer α cap) : Option α :=
  if live : 0 < ring.size then some (ring.get (ring.size - 1) (Nat.sub_one_lt_of_lt live)) else none

/-- Visits the live entries from the newest to the oldest. -/
def foldr (f : α → β → β) (start : β) (ring : RingBuffer α cap) : β :=
  Nat.foldRev ring.size (fun k live result => f (ring.get k live) result) start

/-- The live entries, oldest first. -/
def toList (ring : RingBuffer α cap) : List α :=
  (List.finRange ring.size).map fun (k : Fin ring.size) => ring.get k.val k.isLt

/-! ## The view of each operation -/

@[simp]
theorem length_toList (ring : RingBuffer α cap) : ring.toList.length = ring.size := by
  simp [toList]

@[simp]
theorem getElem_toList (ring : RingBuffer α cap) (k : Nat) (live : k < ring.toList.length) :
    ring.toList[k] = ring.get k (by simpa using live) := by
  simp [toList]

@[simp]
theorem toList_empty (filler : α) (positive : 0 < cap) : (empty filler positive).toList = [] :=
  rfl

@[simp]
theorem toList_clear (ring : RingBuffer α cap) : ring.clear.toList = [] :=
  rfl

theorem foldr_eq (f : α → β → β) (start : β) (ring : RingBuffer α cap) :
    ring.foldr f start = ring.toList.foldr f start := by
  simp [foldr, toList, Nat.foldRev_eq_finRange_foldr, List.foldr_map]

theorem newest?_eq (ring : RingBuffer α cap) : ring.newest? = ring.toList.getLast? := by
  by_cases live : 0 < ring.size
  · have nonempty : ring.toList ≠ [] := by
      intro none_live
      simp [← length_toList, none_live] at live
    rw [List.getLast?_eq_some_getLast nonempty, List.getLast_eq_getElem]
    simp [newest?, live]
  · have none_live : ring.toList = [] := by
      simpa [← List.length_eq_zero_iff] using live
    simp [newest?, live, none_live]

/-! ## Pushing -/

/-- Going once round the slots. -/
theorem mod_of_lt_two_mul {k cap : Nat} (small : k < 2 * cap) :
    k % cap = if k < cap then k else k - cap := by
  split
  · exact Nat.mod_eq_of_lt ‹_›
  · rw [Nat.mod_eq_sub_mod (by omega), Nat.mod_eq_of_lt (by omega)]

/-- A live entry is found `size - k` slots behind the head. -/
theorem slot_eq (ring : RingBuffer α cap) {k : Nat} (live : k < ring.size) :
    ring.slot k =
      if ring.head + k < ring.size then ring.head + cap - ring.size + k
      else ring.head + k - ring.size := by
  have head_lt := ring.head_lt
  have size_le := ring.size_le
  rw [slot, mod_of_lt_two_mul (by omega)]
  split <;> split <;> omega

/-- Two live entries have different slots. -/
theorem slot_injective (ring : RingBuffer α cap) {j k : Nat} (live_j : j < ring.size)
    (live_k : k < ring.size) (same : ring.slot j = ring.slot k) : j = k := by
  have head_lt := ring.head_lt
  have size_le := ring.size_le
  rw [ring.slot_eq live_j, ring.slot_eq live_k] at same
  split at same <;> split at same <;> omega

/-- After a push, slots are counted from the oldest entry that remains. -/
theorem slot_push (ring : RingBuffer α cap) (entry : α) {k : Nat}
    (live : k < (ring.push entry).size) :
    (ring.push entry).slot k =
      if ring.size + 1 - cap + k = ring.size then ring.head
      else ring.slot (ring.size + 1 - cap + k) := by
  have head_lt := ring.head_lt
  have size_le := ring.size_le
  have head_push : (ring.push entry).head =
      if ring.head + 1 < cap then ring.head + 1 else ring.head + 1 - cap :=
    mod_of_lt_two_mul (by omega)
  have size_push : (ring.push entry).size = min (ring.size + 1) cap := rfl
  rw [slot_eq _ live]
  by_cases last : ring.size + 1 - cap + k = ring.size
  · rw [if_pos last]
    split at head_push <;> split <;> omega
  · rw [if_neg last, ring.slot_eq (by omega)]
    split at head_push <;> split <;> split <;> omega

/-- A push appends an entry, and drops the oldest one when every slot was live. -/
theorem toList_push (ring : RingBuffer α cap) (entry : α) :
    (ring.push entry).toList = (ring.toList ++ [entry]).drop (ring.size + 1 - cap) := by
  have head_lt := ring.head_lt
  have size_le := ring.size_le
  apply List.ext_getElem
  · simp [push]
    omega
  · intro k live _
    have live : k < (ring.push entry).size := by simpa using live
    rw [getElem_toList, List.getElem_drop, get]
    have slot_eq := ring.slot_push entry live
    simp only [slot_eq]
    simp only [push] at live ⊢
    by_cases last : ring.size + 1 - cap + k = ring.size
    · simp [last]
    · have live_before : ring.size + 1 - cap + k < ring.size := by omega
      have other : ring.head ≠ ring.slot (ring.size + 1 - cap + k) := by
        rw [ring.slot_eq live_before]
        split <;> omega
      simp [last, live_before, other, get]

end RingBuffer

end ProximalNewton
