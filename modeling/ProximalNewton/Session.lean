import ProximalNewton.Run

/-!
Sessions: several solves with one set of settings, buffers and weights.

A session holds what outlives a solve. Between solves its fields may be replaced
freely; a solve itself changes the buffers, if it converges, and the state of
the observer, and nothing else is carried from one solve to the next.
-/

namespace ProximalNewton

/-- What outlives a solve, with the state `σ` of an observer. -/
structure Session (F σ : Type) where
  params : Params F
  buffers : Buffers F
  sigma : Array F
  listener : σ

namespace Session

variable {F ε σ : Type} [Scalar F]

/-- The request for a problem with the session's settings, buffers and weights. -/
def request (session : Session F σ) (problem : Problem F ε) (eps : F) : Request F ε where
  problem := problem
  params := session.params
  buffers := session.buffers
  sigma := session.sigma
  eps := eps

/-- Solves a problem within the session. -/
def solve (session : Session F σ) (observer : Observer F σ) (problem : Problem F ε) (eps : F) :
    Session F σ × Except (SolveError F ε) (Summary F) :=
  let outcome := (session.request problem eps).solve observer session.listener
  ({ session with buffers := outcome.buffers, listener := outcome.listener }, outcome.result)

/-- Multiplies every weight. -/
def scaleWeights (session : Session F σ) (factor : F) : Session F σ :=
  { session with sigma := session.sigma.map (· * factor) }

end Session

end ProximalNewton
