import ProximalNewton.Box

/-!
Vector operations on arrays, with every access checked.

The vectors of the library have their size in their type, so that no access to one can miss.
Here are the operations of a solve as they are made in working memory, on arrays of any size:
an access past the end of an array, operands of different sizes and an index below zero stop the
computation with a `Panic`. A `Checked` computation gives a value, fails with an error of its
own, or panics; nothing turns a panic into one of the others.

An operation with a result of vector size writes it over an array that it is given, element by
element (`Checked.rewrite`), and gives back that array.

A box comes as `Bounds`: two arrays, of which nothing says that they are of one size. Validation
passes over a component whose upper bound is missing (`Bounds.fault?`), and projection reads it.
-/

namespace ProximalNewton

/-- Why an access to arrays cannot be made. -/
inductive Panic where
  /-- The array has no element at this index. -/
  | index (index size : Nat)
  /-- The arrays of an operation differ in size. -/
  | sizes (left right : Nat)
  /-- An index would be below zero. -/
  | underflow (minuend subtrahend : Nat)
  /-- A memory is to have no slots. -/
  | noSlots
  deriving DecidableEq

/-- How a computation stops without a value. -/
inductive Halt (E : Type) where
  | panic (why : Panic)
  | failed (error : E)

/-- A computation whose accesses to arrays are checked. -/
abbrev Checked (E α : Type) : Type := Except (Halt E) α

/-! ## Boxes in two arrays -/

/-- The bounds of a box. -/
structure Bounds (F : Type) where
  lower : Array F
  upper : Array F

namespace Bounds

variable {F : Type} (bounds : Bounds F)

/-- The dimension of the box, for which only the lower bounds are counted. -/
def dim : Nat :=
  bounds.lower.size

/-- Every component has an upper bound. -/
def Complete : Prop :=
  bounds.dim ≤ bounds.upper.size

instance decidableComplete : Decidable bounds.Complete :=
  inferInstanceAs (Decidable (_ ≤ _))

variable [Scalar F]

/-- The defect of the first defective component among those that have both bounds. -/
def fault? (role : Role) : Option (InputFault F) :=
  (bounds.lower.zip bounds.upper).toList.zipIdx.findSome? fun ((low, high), index) =>
    (Interval.ofBounds low high).fault? role index

/-- The interval of a component, without ends if a bound of it is missing. -/
def side (index : Nat) : Interval F :=
  match bounds.lower[index]?, bounds.upper[index]? with
  | some low, some high => .ofBounds low high
  | _, _ => .whole

/-- The box of the components that have both bounds, open in the others. It has the defects of
the bounds (`Bounds.fault?_box`). -/
def box : Box F bounds.dim :=
  ⟨Vector.ofFn fun index => bounds.side index⟩

end Bounds

namespace Checked

variable {E α F : Type}

/-! ## Single accesses -/

def refuse (why : Panic) : Checked E α := .error (.panic why)

/-- Two sizes agree. -/
def agree (left right : Nat) : Checked E Unit :=
  if left = right then return () else refuse (.sizes left right)

/-- The element at an index. -/
def read (array : Array α) (i : Nat) : Checked E α :=
  match array[i]? with
  | some value => return value
  | none => refuse (.index i array.size)

/-- An element written at an index. -/
def write (array : Array α) (i : Nat) (value : α) : Checked E (Array α) :=
  if inside : i < array.size then return array.set i value inside
  else refuse (.index i array.size)

/-- A difference of indices. -/
def below (a b : Nat) : Checked E Nat :=
  if b ≤ a then return a - b else refuse (.underflow a b)

/-- An index taken round a memory. -/
def modulo (a slots : Nat) : Checked E Nat :=
  if slots = 0 then refuse .noSlots else return a % slots

/-! ## Loops over indices -/

/-- Writes over every element of an array in its order. The new element depends on its index and
on the old element. -/
def rewrite (array : Array α) (new : Nat → α → Checked E α) : Checked E (Array α) :=
  (List.range array.size).foldlM
    (fun array i => do
      let value ← new i (← read array i)
      write array i value)
    array

/-- `((0 + t₀) + t₁) + …`, with `count` terms. -/
def sum [Zero F] [Add F] (count : Nat) (term : Nat → Checked E F) : Checked E F :=
  (List.range count).foldlM (fun sum i => return sum + (← term i)) 0

/-! ## Vector operations -/

/-- An array copied over another one. -/
def copy (out source : Array α) : Checked E (Array α) := do
  agree out.size source.size
  return source

variable [Scalar F]

/-- Inner product. -/
def dot (a b : Array F) : Checked E F := do
  agree a.size b.size
  sum a.size fun i => return (← read a i) * (← read b i)

/-- Squared Euclidean length. -/
def normSq (v : Array F) : F :=
  v.foldl (fun sum x => sum + x * x) 0

/-- Euclidean length. -/
def norm (v : Array F) : F :=
  Scalar.sqrt (normSq v)

/-- Largest magnitude of an element. -/
def maxNorm (v : Array F) : F :=
  v.foldl (fun largest x => maxNum largest (Scalar.abs x)) 0

/-- `a + b`, written over `out`. Only `out` is looked at for the size. -/
def plus (out a b : Array F) : Checked E (Array F) :=
  rewrite out fun i _ => return (← read a i) + (← read b i)

/-- `a - b`, written over `out`. Only `out` is looked at for the size. -/
def minus (out a b : Array F) : Checked E (Array F) :=
  rewrite out fun i _ => return (← read a i) - (← read b i)

/-- `a - b`, written over `out`, all of one size. -/
def difference (out a b : Array F) : Checked E (Array F) := do
  agree out.size a.size
  agree a.size b.size
  minus out a b

/-- `x - alpha v`, written over `out`, all of one size. -/
def step (out x : Array F) (alpha : F) (v : Array F) : Checked E (Array F) := do
  agree out.size x.size
  agree x.size v.size
  rewrite out fun i _ => return (← read x i) - alpha * (← read v i)

/-- `y + alpha x`, written over `y`. -/
def accumulate (y : Array F) (alpha : F) (x : Array F) : Checked E (Array F) := do
  agree y.size x.size
  rewrite y fun i old => return old + alpha * (← read x i)

/-- `alpha v`, written over `v`. -/
def scale (v : Array F) (alpha : F) : Array F :=
  v.map (· * alpha)

/-- The projection on a box, written over the projected array. Only the lower bounds are looked at
for the size. -/
def project (bounds : Bounds F) (v : Array F) : Checked E (Array F) := do
  agree v.size bounds.dim
  rewrite v fun i old =>
    return (Interval.ofBounds (← read bounds.lower i) (← read bounds.upper i)).clamp old

end Checked

end ProximalNewton
