import ProximalNewton.Scalar
import ProximalNewton.Vec
import ProximalNewton.Fault
import ProximalNewton.Box
import ProximalNewton.Params
import ProximalNewton.StepSize
import ProximalNewton.RingBuffer
import ProximalNewton.Curvature
import ProximalNewton.CurvatureStore
import ProximalNewton.Checked
import ProximalNewton.CurvatureSlots
import ProximalNewton.Problem
import ProximalNewton.Merit
import ProximalNewton.MeritStore
import ProximalNewton.MeritBuffers
import ProximalNewton.Traced
import ProximalNewton.Event
import ProximalNewton.Iterate
import ProximalNewton.Search
import ProximalNewton.Job
import ProximalNewton.Iteration
import ProximalNewton.Run
import ProximalNewton.Arena
import ProximalNewton.ArrayRun
import ProximalNewton.Decimal.Binary
import ProximalNewton.Decimal.Scientific
import ProximalNewton.Decimal.Text
import ProximalNewton.Message
import ProximalNewton.Log
import ProximalNewton.Session
import ProximalNewton.Proofs.Course
import ProximalNewton.Proofs.Evaluation
import ProximalNewton.Proofs.Correspondence
import ProximalNewton.Proofs.Coherence
import ProximalNewton.Proofs.RecentPairs
import ProximalNewton.Proofs.CurvatureHistory
import ProximalNewton.Proofs.ScalarLaws
import ProximalNewton.Proofs.Success
import ProximalNewton.Proofs.MachineLaws
import ProximalNewton.Proofs.Rounding
import ProximalNewton.Proofs.MachineRounding
import ProximalNewton.Proofs.MachineArithmetic
import ProximalNewton.Proofs.InfiniteEstimate
import ProximalNewton.Proofs.RegularSteps
import ProximalNewton.Proofs.Tolerance
import ProximalNewton.Proofs.MachineNorms
import ProximalNewton.Proofs.CurvatureSafeguard
import ProximalNewton.Proofs.RealScalar
import ProximalNewton.Proofs.HalvedSteps
import ProximalNewton.Proofs.RealVectors
import ProximalNewton.Proofs.RealProjection
import ProximalNewton.Proofs.RealMerit
import ProximalNewton.Proofs.PenaltyGradient
import ProximalNewton.Proofs.StepSizes
import ProximalNewton.Proofs.Stationarity
import ProximalNewton.Proofs.MultiplierSigns
import ProximalNewton.Proofs.Transcript
import ProximalNewton.Proofs.SearchContract
import ProximalNewton.Proofs.Truncation
import ProximalNewton.Proofs.ReturnedBuffers
import ProximalNewton.Proofs.SmoothMerit
import ProximalNewton.Proofs.UsableSteps
import ProximalNewton.Proofs.InverseEstimate
import ProximalNewton.Proofs.ScaledMerit
import ProximalNewton.Proofs.ScaledRun
import ProximalNewton.Proofs.ProximalModel
import ProximalNewton.Proofs.Searches
import ProximalNewton.Proofs.Acceptance
import ProximalNewton.Proofs.EnvelopeDescent
import ProximalNewton.Proofs.Statistics
import ProximalNewton.Proofs.UnboundedTarget
import ProximalNewton.Proofs.Dialogue
import ProximalNewton.Proofs.FailingOracles
import ProximalNewton.Proofs.Histories
import ProximalNewton.Proofs.ShortenedSteps
import ProximalNewton.Proofs.Projection
import ProximalNewton.Proofs.Bounds
import ProximalNewton.Proofs.Validation
import ProximalNewton.Proofs.IsotropicQuadratic
import ProximalNewton.Proofs.InputContract
import ProximalNewton.Proofs.RepeatedEvaluations
import ProximalNewton.Proofs.CheckedOperations
import ProximalNewton.Proofs.ArrayPrograms
import ProximalNewton.Proofs.CurvatureSlots
import ProximalNewton.Proofs.Workspace
import ProximalNewton.Proofs.ArenaSafety
import ProximalNewton.Proofs.ArrayEvaluation
import ProximalNewton.Proofs.ArraySolve
