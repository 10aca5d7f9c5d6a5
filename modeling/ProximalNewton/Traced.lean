/-!
Computations that record events and may fail.

A `Traced ω ε α` is the list of events recorded by a computation together with
its result. A failure keeps the events recorded before it and cuts off those
that would have come after it.
-/

namespace ProximalNewton

/-- Events of type `ω`, and then a value of type `α` or a failure of type `ε`. -/
structure Traced (ω ε α : Type) where
  events : List ω
  result : Except ε α

namespace Traced

variable {ω ε ε' α β : Type}

/-- Records one event. -/
def emit (event : ω) : Traced ω ε Unit := ⟨[event], .ok ()⟩

/-- Ends the computation. -/
def fail (error : ε) : Traced ω ε α := ⟨[], .error error⟩

/-- A result that was found without recording anything. -/
def ofExcept (result : Except ε α) : Traced ω ε α := ⟨[], result⟩

/-- The same computation with its failure put into another type. -/
def mapError (wrap : ε' → ε) (first : Traced ω ε' α) : Traced ω ε α :=
  ⟨first.events, first.result.mapError wrap⟩

/-- Runs a computation and then, unless it failed, the one that depends on its
value. -/
def andThen (first : Traced ω ε α) (next : α → Traced ω ε β) : Traced ω ε β :=
  match first.result with
  | .error error => ⟨first.events, .error error⟩
  | .ok value =>
    let rest := next value
    ⟨first.events ++ rest.events, rest.result⟩

instance instMonad : Monad (Traced ω ε) where
  pure value := ⟨[], .ok value⟩
  bind := andThen

/-! ## Events and results of a composition -/

@[simp]
theorem events_pure (value : α) : (pure value : Traced ω ε α).events = [] := rfl

@[simp]
theorem result_pure (value : α) : (pure value : Traced ω ε α).result = .ok value := rfl

theorem bind_of_ok {first : Traced ω ε α} {value : α} (ok : first.result = .ok value)
    (next : α → Traced ω ε β) :
    first >>= next = ⟨first.events ++ (next value).events, (next value).result⟩ := by
  show andThen first next = _
  simp [andThen, ok]

theorem bind_of_error {first : Traced ω ε α} {error : ε} (failed : first.result = .error error)
    (next : α → Traced ω ε β) : first >>= next = ⟨first.events, .error error⟩ := by
  show andThen first next = _
  simp [andThen, failed]

@[simp]
theorem emit_bind (event : ω) (next : Unit → Traced ω ε β) :
    emit event >>= next = ⟨event :: (next ()).events, (next ()).result⟩ := rfl

@[simp]
theorem pure_bind (value : α) (next : α → Traced ω ε β) : pure value >>= next = next value := rfl

@[simp]
theorem ofExcept_ok_bind (value : α) (next : α → Traced ω ε β) :
    ofExcept (.ok value) >>= next = next value := rfl

@[simp]
theorem ofExcept_error_bind (error : ε) (next : α → Traced ω ε β) :
    ofExcept (.error error) >>= next = ⟨[], .error error⟩ := rfl

end Traced

end ProximalNewton
