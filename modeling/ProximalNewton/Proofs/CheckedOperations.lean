import ProximalNewton.Arena
import ProximalNewton.Merit

/-!
# Checked operations on vectors

On the arrays of vectors that fit together, every operation whose accesses are checked succeeds,
and gives the array of what the vector operation gives, whatever was in the array that it writes
over.

* `Checked.rewrite_eq` and `Checked.sum_eq` say this of the two loops that the operations are
  made of, `Checked.difference_eq` and its neighbours of the operations themselves.
* `Checked.project_incomplete` is the exception: a projection whose sizes agree panics if an upper
  bound is missing. The box that has the components of `Bounds` has the same defects as the
  bounds (`Bounds.fault?_box`), and so an admitted one can be incomplete.
* `Checked.Sound` is what is left of it when only the sizes of arrays are known: there is no
  panic, and the result is of the right size.
-/

namespace ProximalNewton

/-! ## Bounds and their box -/

namespace Bounds

variable {F : Type} [Scalar F] (bounds : Bounds F)

theorem side_of_lt {i : Nat} (inside : i < bounds.lower.size) (below : i < bounds.upper.size) :
    bounds.side i = .ofBounds bounds.lower[i] bounds.upper[i] := by
  unfold side
  rw [Array.getElem?_eq_getElem inside, Array.getElem?_eq_getElem below]

theorem side_of_le {i : Nat} (missing : bounds.upper.size ≤ i) : bounds.side i = .whole := by
  unfold side
  rw [Array.getElem?_eq_none missing]
  cases bounds.lower[i]? with
  | none => rfl
  | some low => rfl

theorem getElem_sides_box {i : Nat} (inside : i < bounds.dim) :
    bounds.box.sides[i] = bounds.side i :=
  Vector.getElem_ofFn inside

/-- The sides of the box are those with both bounds, and then open ones. -/
theorem toList_sides_box : bounds.box.sides.toList =
    (bounds.lower.zip bounds.upper).toList.map (fun ends => .ofBounds ends.1 ends.2) ++
      List.replicate (bounds.dim - bounds.upper.size) .whole := by
  apply List.ext_getElem
  · simp only [Vector.length_toList, List.length_append, List.length_map, Array.length_toList,
      Array.size_zip, List.length_replicate, dim]
    omega
  · intro i inside _
    rw [Vector.length_toList] at inside
    rw [Vector.getElem_toList, getElem_sides_box bounds inside, List.getElem_append]
    split
    · rename_i both
      have inside : i < bounds.lower.size := inside
      have below : i < bounds.upper.size := by
        simp only [List.length_map, Array.length_toList, Array.size_zip] at both
        omega
      rw [bounds.side_of_lt inside below]
      simp
    · rename_i missing
      have inside : i < bounds.lower.size := inside
      have beyond : bounds.upper.size ≤ i := by
        simp only [List.length_map, Array.length_toList, Array.size_zip] at missing
        omega
      rw [bounds.side_of_le beyond, List.getElem_replicate]

/-- Admission finds the defects of the bounds. It passes over a component whose upper bound is
missing. -/
theorem fault?_box (role : Role) : bounds.box.fault? role = bounds.fault? role := by
  have open_sides (first : Nat) :
      ((List.replicate (bounds.dim - bounds.upper.size) (Interval.whole : Interval F)).zipIdx
        first).findSome? (fun entry => entry.1.fault? role entry.2) = none := by
    rw [List.findSome?_eq_none_iff]
    intro entry member
    obtain ⟨-, -, found⟩ := List.mem_zipIdx member
    rw [List.getElem_replicate] at found
    rw [found]
    exact Interval.fault?_eq_none_iff.mpr Interval.valid_whole
  unfold Box.fault? fault?
  rw [toList_sides_box, List.zipIdx_append, List.findSome?_append, open_sides, Option.or_none,
    List.zipIdx_map, List.findSome?_map]
  rfl

end Bounds

namespace Checked

variable {E α β F : Type} {n : Nat}

/-! ## Computations that do not panic -/

/-- The computation does not panic, and if it gives a value, then a `good` one. -/
def Sound (made : Checked E α) (good : α → Prop) : Prop :=
  match made with
  | .ok value => good value
  | .error (.panic _) => False
  | .error (.failed _) => True

variable {good better : α → Prop}

theorem Sound.bind {made : Checked E β} {next : β → Checked E α} {between : β → Prop}
    (first : made.Sound between) (rest : ∀ value, between value → (next value).Sound good) :
    (made >>= next).Sound good := by
  rcases made with (why | error) | value
  · exact first
  · trivial
  · exact rest value first

theorem sound_ok {value : α} (holds : good value) : Sound (.ok value : Checked E α) good :=
  holds

theorem sound_of_eq {made : Checked E α} {value : α} (given : made = .ok value)
    (holds : good value) : made.Sound good := by
  subst given
  exact holds

@[simp]
theorem ok_bind (value : β) (next : β → Checked E α) :
    ((.ok value : Checked E β) >>= next) = next value := rfl

@[simp]
theorem error_bind (halt : Halt E) (next : β → Checked E α) :
    ((.error halt : Checked E β) >>= next) = .error halt := rfl

/-! ## Accesses -/

/-- An array of the right size is the array of a vector. -/
theorem exists_vector {array : Array α} (size : array.size = n) :
    ∃ v : Vector α n, v.toArray = array :=
  ⟨⟨array, size⟩, rfl⟩

theorem agree_of_eq {left right : Nat} (same : left = right) :
    (agree left right : Checked E Unit) = .ok () :=
  if_pos same

theorem read_of_lt {array : Array α} {i : Nat} (inside : i < array.size) :
    (read array i : Checked E α) = .ok array[i] := by
  unfold read
  rw [Array.getElem?_eq_getElem inside]
  rfl

theorem read_of_le {array : Array α} {i : Nat} (outside : array.size ≤ i) :
    (read array i : Checked E α) = .error (.panic (.index i array.size)) := by
  unfold read
  rw [Array.getElem?_eq_none outside]
  rfl

theorem read_toArray (v : Vector α n) {i : Nat} (inside : i < n) :
    (read v.toArray i : Checked E α) = .ok v[i] :=
  read_of_lt (v.size_toArray.symm ▸ inside)

theorem write_toArray (v : Vector α n) {i : Nat} (inside : i < n) (value : α) :
    (write v.toArray i value : Checked E (Array α)) = .ok (v.set i value).toArray := by
  unfold write
  rw [dif_pos (by simpa using inside)]
  rfl

theorem below_of_le {a b : Nat} (le : b ≤ a) : (below a b : Checked E Nat) = .ok (a - b) :=
  if_pos le

theorem modulo_of_pos (a : Nat) {slots : Nat} (positive : 0 < slots) :
    (modulo a slots : Checked E Nat) = .ok (a % slots) :=
  if_neg (Nat.ne_of_gt positive)

/-! ## Loops -/

/-- A loop over indices is the fold that each of its turns is a turn of. -/
theorem foldlM_range_eq {turn : α → Nat → Checked E α} {k : Nat} (view : β → α)
    (typed : (i : Nat) → i < k → β → β)
    (each : ∀ i (inside : i < k) state, turn (view state) i = .ok (view (typed i inside state)))
    (start : β) :
    (List.range k).foldlM turn (view start) = .ok (view (k.fold typed start)) := by
  induction k with
  | zero => rfl
  | succ k ih =>
    rw [List.range_succ, List.foldlM_append,
      ih (fun i inside => typed i (Nat.lt_succ_of_lt inside))
        (fun i inside => each i (Nat.lt_succ_of_lt inside)),
      ok_bind, Nat.fold_succ, List.foldlM_cons, each k (Nat.lt_succ_self k), ok_bind]
    rfl

/-- A loop over indices that halts in one turn halts there, whatever comes later. -/
theorem foldlM_range_error {turn : α → Nat → Checked E α} {k stop : Nat} (view : β → α)
    (typed : (i : Nat) → i < stop → β → β)
    (each : ∀ i (inside : i < stop) state, turn (view state) i = .ok (view (typed i inside state)))
    {halt : Halt E} (stops : ∀ state, turn (view state) stop = .error halt) (reached : stop < k)
    (start : β) : (List.range k).foldlM turn (view start) = .error halt := by
  obtain ⟨later, rfl⟩ := Nat.exists_eq_add_of_lt reached
  rw [Nat.add_assoc, List.range_add, List.foldlM_append, foldlM_range_eq view typed each, ok_bind,
    List.range_succ_eq_map, List.map_cons, List.foldlM_cons, Nat.add_zero, stops, error_bind]

/-- A loop over indices that come down is a fold as well. -/
theorem foldlM_reverse_range_eq {turn : α → Nat → Checked E α} {k : Nat} (view : β → α)
    (typed : (i : Nat) → i < k → β → β)
    (each : ∀ i (inside : i < k) state, turn (view state) i = .ok (view (typed i inside state)))
    (start : β) :
    (List.range k).reverse.foldlM turn (view start) = .ok (view (k.foldRev typed start)) := by
  induction k generalizing start with
  | zero => rfl
  | succ k ih =>
    rw [List.range_succ, List.reverse_concat, List.foldlM_cons, each k (Nat.lt_succ_self k),
      ok_bind, ih (fun i inside => typed i (Nat.lt_succ_of_lt inside))
        (fun i inside => each i (Nat.lt_succ_of_lt inside))]
    rfl

/-- Writing over an array gives the vector of its new elements. -/
theorem rewrite_eq {v : Vector α n} {new : Nat → α → Checked E α} (w : Vector α n)
    (value : (i : Nat) → i < n → α → α)
    (each : ∀ i (inside : i < n) old, new i old = .ok (value i inside old))
    (same : ∀ i (inside : i < n), w[i] = value i inside v[i]) :
    rewrite v.toArray new = .ok w.toArray := by
  let typed (i : Nat) (inside : i < n) (u : Vector α n) : Vector α n :=
    u.set i (value i inside u[i])
  have loop : (List.range n).foldlM
      (fun array i => do
        let element ← new i (← read array i)
        write array i element) v.toArray = .ok (n.fold typed v).toArray := by
    refine foldlM_range_eq Vector.toArray typed ?_ v
    intro i inside u
    rw [read_toArray u inside, ok_bind, each i inside, ok_bind, write_toArray u inside]
  have all : n.fold typed v = w := by
    ext i inside
    rw [same i inside]
    exact getElem_fold_set_all value v i inside
  unfold rewrite
  rw [v.size_toArray, loop, all]

/-- Writing over an array halts where there is no new element. -/
theorem rewrite_error {v : Vector α n} {new : Nat → α → Checked E α} {stop : Nat}
    (value : (i : Nat) → i < stop → α → α)
    (each : ∀ i (inside : i < stop) old, new i old = .ok (value i inside old))
    {halt : Halt E} (stops : ∀ old, new stop old = .error halt) (reached : stop < n) :
    rewrite v.toArray new = .error halt := by
  let typed (i : Nat) (inside : i < stop) (u : Vector α n) : Vector α n :=
    have early : i < n := Nat.lt_trans inside reached
    u.set i (value i inside u[i])
  unfold rewrite
  rw [v.size_toArray]
  refine foldlM_range_error Vector.toArray typed ?_ ?_ reached v
  · intro i inside u
    have early : i < n := Nat.lt_trans inside reached
    rw [read_toArray u early, ok_bind, each i inside, ok_bind, write_toArray u early]
  · intro u
    rw [read_toArray u reached, ok_bind, stops, error_bind]

/-- A sum is that of the vector of its terms. -/
theorem sum_eq [Zero F] [Add F] {t : Vector F n} {term : Nat → Checked E F}
    (each : ∀ i (inside : i < n), term i = .ok t[i]) :
    sum n term = .ok (t.foldl (· + ·) 0) := by
  let typed (i : Nat) (inside : i < n) (partly : F) : F := partly + t[i]
  have loop : (List.range n).foldlM (fun partly i => return partly + (← term i)) 0 =
      (.ok (n.fold typed 0) : Checked E F) := by
    refine foldlM_range_eq id typed ?_ 0
    intro i inside partly
    rw [each i inside]
    rfl
  have all : n.fold typed (0 : F) = t.foldl (· + ·) 0 := by
    rw [Nat.fold_eq_finRange_foldl, ← Vector.foldl_toList]
    have elements : t.toList = (List.finRange n).map fun i => t[i] := by
      apply List.ext_getElem
      · simp
      · intro i _ _
        simp
    rw [elements, List.foldl_map]
    rfl
  exact loop.trans (congrArg Except.ok all)

/-! ## Vector operations -/

theorem copy_eq (out source : Vector α n) :
    (copy out.toArray source.toArray : Checked E (Array α)) = .ok source.toArray := by
  unfold copy
  rw [agree_of_eq (by simp), ok_bind]
  rfl

variable [Scalar F]

theorem dot_eq (a b : Vector F n) :
    (dot a.toArray b.toArray : Checked E F) = .ok (ProximalNewton.dot a b) := by
  unfold dot
  rw [agree_of_eq (by simp), ok_bind, a.size_toArray,
    sum_eq (t := a.zipWith (· * ·) b) fun i inside => ?_]
  · rfl
  · rw [read_toArray a inside, ok_bind, read_toArray b inside, Vector.getElem_zipWith]
    rfl

theorem normSq_eq (v : Vector F n) : normSq v.toArray = ProximalNewton.normSq v := by
  have squares : v.zipWith (· * ·) v = v.map fun x => x * x := by
    ext i inside
    simp
  unfold normSq ProximalNewton.normSq ProximalNewton.dot
  rw [squares, Vector.foldl_map]
  rfl

theorem norm_eq (v : Vector F n) : norm v.toArray = ProximalNewton.norm v := by
  unfold norm ProximalNewton.norm
  rw [normSq_eq]

theorem maxNorm_eq (v : Vector F n) : maxNorm v.toArray = ProximalNewton.maxNorm v := rfl

theorem plus_eq (out a b : Vector F n) :
    (plus out.toArray a.toArray b.toArray : Checked E (Array F)) = .ok (a + b).toArray := by
  unfold plus
  rw [rewrite_eq (a + b) (fun i inside _ => a[i] + b[i])]
  · intro i inside old
    rw [read_toArray a inside, ok_bind, read_toArray b inside]
    rfl
  · intro i inside
    exact Vector.getElem_add ..

theorem minus_eq (out a b : Vector F n) :
    (minus out.toArray a.toArray b.toArray : Checked E (Array F)) = .ok (a - b).toArray := by
  unfold minus
  rw [rewrite_eq (a - b) (fun i inside _ => a[i] - b[i])]
  · intro i inside old
    rw [read_toArray a inside, ok_bind, read_toArray b inside]
    rfl
  · intro i inside
    exact Vector.getElem_sub ..

theorem difference_eq (out a b : Vector F n) :
    (difference out.toArray a.toArray b.toArray : Checked E (Array F)) =
      .ok (a - b).toArray := by
  unfold difference
  rw [agree_of_eq (by simp), agree_of_eq (by simp), ok_bind, ok_bind, minus_eq]

theorem step_eq (out x : Vector F n) (alpha : F) (v : Vector F n) :
    (step out.toArray x.toArray alpha v.toArray : Checked E (Array F)) =
      .ok (x - alpha * v).toArray := by
  unfold step
  rw [agree_of_eq (by simp), agree_of_eq (by simp), ok_bind, ok_bind,
    rewrite_eq (x - alpha * v) (fun i inside _ => x[i] - alpha * v[i])]
  · intro i inside old
    rw [read_toArray x inside, ok_bind, read_toArray v inside]
    rfl
  · intro i inside
    simp

theorem accumulate_eq (y : Vector F n) (alpha : F) (x : Vector F n) :
    (accumulate y.toArray alpha x.toArray : Checked E (Array F)) =
      .ok (y + alpha * x).toArray := by
  unfold accumulate
  rw [agree_of_eq (by simp), ok_bind,
    rewrite_eq (y + alpha * x) (fun i inside old => old + alpha * x[i])]
  · intro i inside old
    rw [read_toArray x inside]
    rfl
  · intro i inside
    simp

theorem scale_eq (v : Vector F n) (alpha : F) :
    scale v.toArray alpha = (v.map (· * alpha)).toArray := rfl

theorem project_eq (bounds : Bounds F) (fits : bounds.dim = n) (complete : bounds.Complete)
    (v : Vector F n) :
    (project bounds v.toArray : Checked E (Array F)) =
      .ok ((bounds.box.cast fits).project v).toArray := by
  subst fits
  unfold project
  rw [agree_of_eq (by simp), ok_bind,
    rewrite_eq (bounds.box.project v) (fun i _ old => (bounds.side i).clamp old)]
  · rfl
  · intro i inside old
    have below : i < bounds.upper.size := Nat.lt_of_lt_of_le inside complete
    rw [bounds.side_of_lt inside below, read_of_lt inside, ok_bind, read_of_lt below]
    rfl
  · intro i inside
    rw [Box.getElem_project]
    exact congrArg (Interval.clamp · v[i]) (bounds.getElem_sides_box inside)

/-- A projection reads the first upper bound that is missing. -/
theorem project_incomplete (bounds : Bounds F) (fits : bounds.dim = n)
    (incomplete : ¬ bounds.Complete) (v : Vector F n) :
    (project bounds v.toArray : Checked E (Array F)) =
      .error (.panic (.index bounds.upper.size bounds.upper.size)) := by
  subst fits
  have missing : bounds.upper.size < bounds.lower.size := Nat.lt_of_not_le incomplete
  unfold project
  rw [agree_of_eq (by simp), ok_bind]
  refine rewrite_error (fun i _ old => (bounds.side i).clamp old) ?_ ?_ missing
  · intro i below old
    have inside : i < bounds.lower.size := Nat.lt_trans below missing
    rw [bounds.side_of_lt inside below, read_of_lt inside, ok_bind, read_of_lt below]
    rfl
  · intro old
    rw [read_of_lt missing, ok_bind, read_of_le (Nat.le_refl _), error_bind]

/-! ## Points and ingredients of the merit -/

theorem between_eq (tau : F) (out x r direction : Vector F n) :
    (between tau out.toArray x.toArray r.toArray direction.toArray : Checked E (Array F)) =
      .ok (x - (1 - tau) * r - tau * direction).toArray := by
  unfold between
  rw [rewrite_eq (x - (1 - tau) * r - tau * direction)
      (fun i inside _ => x[i] - (1 - tau) * r[i] - tau * direction[i])]
  · intro i inside old
    rw [read_toArray x inside, ok_bind, read_toArray r inside, ok_bind,
      read_toArray direction inside]
    rfl
  · intro i inside
    simp

theorem perturbation_eq (params : EstimateParams F) (x h : Vector F n) :
    (perturbation params x.toArray h.toArray : Checked E (Array F)) =
      .ok (ProximalNewton.perturbation params x).toArray := by
  unfold perturbation
  rw [agree_of_eq (by simp), ok_bind, rewrite_eq (ProximalNewton.perturbation params x)
      (fun i inside _ => maxNum (Scalar.abs x[i] * params.epsilon) params.delta)]
  · intro i inside old
    rw [read_toArray x inside]
    rfl
  · intro i inside
    exact Vector.getElem_map ..

theorem add_eq (v out : Vector F n) :
    (add v.toArray out.toArray : Checked E (Array F)) = .ok (out + v).toArray := by
  unfold add
  rw [rewrite_eq (out + v) (fun i inside old => old + v[i])]
  · intro i inside old
    rw [read_toArray v inside]
    rfl
  · intro i inside
    exact Vector.getElem_add ..

variable {m : Nat}

theorem slack_eq (D : Bounds F) (fits : D.dim = m) (complete : D.Complete)
    (g shift z : Vector F m) :
    (slack D g.toArray shift.toArray z.toArray : Checked E (Array F)) =
      .ok (ProximalNewton.slack (D.box.cast fits) g shift).toArray := by
  unfold slack
  rw [agree_of_eq (by simp), ok_bind, agree_of_eq (by simp), ok_bind, plus_eq, ok_bind,
    project_eq D fits complete]
  rfl

theorem slack_incomplete (D : Bounds F) (fits : D.dim = m) (incomplete : ¬ D.Complete)
    (g shift z : Vector F m) :
    (slack D g.toArray shift.toArray z.toArray : Checked E (Array F)) =
      .error (.panic (.index D.upper.size D.upper.size)) := by
  unfold slack
  rw [agree_of_eq (by simp), ok_bind, agree_of_eq (by simp), ok_bind, plus_eq, ok_bind,
    project_incomplete D fits incomplete]

theorem multiplierEstimate_eq (z g y sigma yHat : Vector F m) :
    (multiplierEstimate z.toArray g.toArray y.toArray sigma.toArray yHat.toArray :
        Checked E (Array F)) =
      .ok (ProximalNewton.multiplierEstimate z g y sigma).toArray := by
  unfold multiplierEstimate
  rw [agree_of_eq (by simp), ok_bind, agree_of_eq (by simp), ok_bind, agree_of_eq (by simp),
    ok_bind, rewrite_eq (ProximalNewton.multiplierEstimate z g y sigma)
      (fun i inside _ => sigma[i] * (g[i] - z[i]) + y[i])]
  · intro i inside old
    rw [read_toArray sigma inside, ok_bind, read_toArray g inside, ok_bind,
      read_toArray z inside, ok_bind, read_toArray y inside]
    rfl
  · intro i inside
    simp [ProximalNewton.multiplierEstimate]

theorem distanceSq_eq (g shift z sigma : Vector F m) :
    (distanceSq g.toArray shift.toArray z.toArray sigma.toArray : Checked E F) =
      .ok (ProximalNewton.distanceSq g shift z sigma) := by
  unfold distanceSq
  rw [z.size_toArray, sum_eq (t := sigma.zipWith (fun weight d => weight * d * d) (g + shift - z))]
  · rfl
  · intro i inside
    rw [read_toArray g inside, ok_bind, read_toArray shift inside, ok_bind,
      read_toArray z inside, ok_bind, read_toArray sigma inside, Vector.getElem_zipWith,
      Vector.getElem_sub, Vector.getElem_add]
    rfl

end Checked

end ProximalNewton
