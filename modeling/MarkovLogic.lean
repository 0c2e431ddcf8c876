import MarkovLogic.Decimal.Magnitude
import MarkovLogic.Decimal.Reader
import MarkovLogic.Decimal.Rounded
import MarkovLogic.Decimal.Shortest
import MarkovLogic.Dialogue
import MarkovLogic.Error.Learning
import MarkovLogic.Error.Network
import MarkovLogic.Error.Optimization
import MarkovLogic.Learner.Basic
import MarkovLogic.Learner.Options
import MarkovLogic.Learner.Run
import MarkovLogic.Likelihood.Exhaustive
import MarkovLogic.Likelihood.LogSumExp
import MarkovLogic.Likelihood.Objective
import MarkovLogic.Likelihood.Reduced
import MarkovLogic.Log
import MarkovLogic.Network.Basic
import MarkovLogic.Network.Satisfaction
import MarkovLogic.Scalar
import MarkovLogic.Scalar.Arrow
import MarkovLogic.Scalar.Finite
import MarkovLogic.Scalar.Summation
import MarkovLogic.Solver.Evaluation
import MarkovLogic.Solver.LineSearch.Attempt
import MarkovLogic.Solver.LineSearch.HagerZhang
import MarkovLogic.Solver.LineSearch.MoreThuente
import MarkovLogic.Solver.Maximize
import MarkovLogic.Solver.Outcome
import MarkovLogic.Solver.QuasiNewton
import MarkovLogic.Solver.Query
import MarkovLogic.Solver.Settings
import MarkovLogic.Text.Invisible
import MarkovLogic.Text.Quoted
import MarkovLogic.Text.Reading
import MarkovLogic.Weights.Fixed
import MarkovLogic.Weights.Partition
import MarkovLogic.Proofs.Dialogue.Course
import MarkovLogic.Proofs.Dialogue.Run
import MarkovLogic.Proofs.Solver.FirstFailure
import MarkovLogic.Proofs.Solver.FailedProbe
import MarkovLogic.Proofs.Solver.LastEvaluation
import MarkovLogic.Proofs.Solver.Report
import MarkovLogic.Proofs.Weights.Table
import MarkovLogic.Proofs.Weights.Slots
import MarkovLogic.Proofs.Learner.Course
import MarkovLogic.Proofs.Learner.KeptWeights
import MarkovLogic.Proofs.Learner.Failures
import MarkovLogic.Proofs.Learner.Reduction
import MarkovLogic.Proofs.Learner.Lifecycle
import MarkovLogic.Proofs.Scalar.Order
import MarkovLogic.Proofs.Dialogue.Ensures
import MarkovLogic.Proofs.Dialogue.Mediation
import MarkovLogic.Proofs.Learner.Ending
import MarkovLogic.Proofs.Learner.NumericalTrouble
import MarkovLogic.Proofs.Learner.ReportedFigures
import MarkovLogic.Proofs.Solver.Outcomes
import MarkovLogic.Proofs.Learner.FiniteFigures
import MarkovLogic.Proofs.Solver.Trail
import MarkovLogic.Proofs.Solver.Stopping
import MarkovLogic.Proofs.Dialogue.Records
import MarkovLogic.Proofs.Solver.Recording
import MarkovLogic.Proofs.Learner.Verdicts
import MarkovLogic.Proofs.Solver.Calls
import MarkovLogic.Proofs.Learner.Calls
import MarkovLogic.Proofs.Solver.Preview
import MarkovLogic.Proofs.Learner.Levels
import MarkovLogic.Proofs.Learner.Obstacles
import MarkovLogic.Proofs.Scalar.Reals
import MarkovLogic.Proofs.Likelihood.Worlds
import MarkovLogic.Proofs.Weights.Positions
import MarkovLogic.Proofs.Likelihood.Derivative
import MarkovLogic.Proofs.Likelihood.Concave
import MarkovLogic.Proofs.Weights.Finite
import MarkovLogic.Proofs.Weights.Derivation
import MarkovLogic.Proofs.Learner.ListedFormulas
import MarkovLogic.Proofs.Weights.Splitting
import MarkovLogic.Proofs.Solver.Passes
import MarkovLogic.Proofs.Solver.Fallback
import MarkovLogic.Proofs.Likelihood.Quadratic
import MarkovLogic.Proofs.Learner.OptionFields
import MarkovLogic.Proofs.Scalar.Nearest
import MarkovLogic.Proofs.Decimal.Nearest
import MarkovLogic.Proofs.Decimal.Grammar
import MarkovLogic.Proofs.Text.Words
import MarkovLogic.Proofs.Learner.RefusedOptions
import MarkovLogic.Proofs.Learner.EvidenceModes
import MarkovLogic.Proofs.Likelihood.PlainArrays
import MarkovLogic.Proofs.Likelihood.Symmetries
import MarkovLogic.Proofs.Scalar.Signed
import MarkovLogic.Proofs.Scalar.Summation
import MarkovLogic.Proofs.Likelihood.SpecialValues
