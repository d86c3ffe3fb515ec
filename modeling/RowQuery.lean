import RowQuery.Ty.Basic
import RowQuery.Ty.Instantiate
import RowQuery.Ty.Printer
import RowQuery.Json.Basic
import RowQuery.Json.TyForm
import RowQuery.Text.Printable
import RowQuery.Text.Quoted
import RowQuery.Text.Layout
import RowQuery.Value.Basic
import RowQuery.Value.Printer
import RowQuery.Expr.Basic
import RowQuery.Expr.Typing
import RowQuery.Expr.Printer
import RowQuery.Expr.Children
import RowQuery.Expr.FreeParams
import RowQuery.Expr.Substitution
import RowQuery.Distinct
import RowQuery.Schema.Error
import RowQuery.Schema.Basic
import RowQuery.Eval.Error
import RowQuery.Eval.Word
import RowQuery.Eval.Basic
import RowQuery.Expr.ParamOrder
import RowQuery.Json.ExprForm
import RowQuery.Split.CarrierMap
import RowQuery.Split.PlanCache
import RowQuery.Split.Splitter
import RowQuery.Toml.Table
import RowQuery.Toml.Text
import RowQuery.Toml.Document
import RowQuery.Config.Basic
import RowQuery.Config.Toml
import RowQuery.Query.Context
import RowQuery.Query.Sequence
import RowQuery.Query.Execution
import RowQuery.Query.OuterJoin
import RowQuery.Proofs.Substitution.Scope
import RowQuery.Proofs.Alike.Pairing
import RowQuery.Proofs.Alike.Value
import RowQuery.Proofs.Alike.Operators
import RowQuery.Proofs.Alike.Evaluation
import RowQuery.Proofs.Alike.Bisimulation
import RowQuery.Proofs.Computations
import RowQuery.Proofs.Registrations
import RowQuery.Proofs.Records
import RowQuery.Proofs.StoredForms
import RowQuery.Proofs.Matching.FirstFree
import RowQuery.Proofs.Matching.ExactTypes
import RowQuery.Proofs.Matching.Growth
import RowQuery.Proofs.Split.Plans
import RowQuery.Proofs.Split.Equivalence
import RowQuery.Proofs.Split.Requests
import RowQuery.Proofs.Traversals
import RowQuery.Proofs.Instantiation
import RowQuery.Proofs.Substitution.References
import RowQuery.Proofs.Substitution.Evaluation
import RowQuery.Proofs.Split.Hygiene
import RowQuery.Proofs.Split.CarrierMaps
import RowQuery.Proofs.Substitution.Composition
import RowQuery.Proofs.Substitution.Types
import RowQuery.Proofs.Scoping
import RowQuery.Proofs.ParamOrder.Permutations
import RowQuery.Proofs.ParamOrder.Calls
import RowQuery.Proofs.Integers.Expressions
import RowQuery.Proofs.FirstMembers
import RowQuery.Proofs.Substitution.FreeParams
import RowQuery.Proofs.Split.CacheCounts
import RowQuery.Proofs.Split.Restoration
import RowQuery.Proofs.Query.JoinMembers
import RowQuery.Proofs.Query.Lawful
import RowQuery.Proofs.Query.FullJoinSides
import RowQuery.Proofs.Query.JoinPairs
import RowQuery.Proofs.Query.AlikeRows
import RowQuery.Proofs.Alike.Reordering
import RowQuery.Proofs.Query.SequenceRuns
import RowQuery.Proofs.Query.FullJoinRun
import RowQuery.Proofs.Query.FullJoinRows
import RowQuery.Proofs.Query.Histories
import RowQuery.Proofs.Query.ExecutedPlans
import RowQuery.Proofs.Query.PlanNodes
import RowQuery.Proofs.Query.SingleEvaluation
import RowQuery.Proofs.Query.CheckedPlans
import RowQuery.Proofs.Query.TypedExecution
import RowQuery.Proofs.Query.ComposedPlans
import RowQuery.Proofs.Query.Programs
import RowQuery.Proofs.Query.ComposedPrograms
import RowQuery.Proofs.Query.PairExchange
import RowQuery.Proofs.Query.SettledOutcomes
import RowQuery.Proofs.Query.LeftJoinRows
import RowQuery.Proofs.Query.RightJoinRows
import RowQuery.Proofs.Query.RowCalls
import RowQuery.Proofs.Query.CorrelatedRows
import RowQuery.Proofs.Query.SplitRows
import RowQuery.Proofs.Query.UnionRows
import RowQuery.Proofs.Query.DistinctRows
import RowQuery.Proofs.Query.FullJoinStrategies
import RowQuery.Proofs.Query.FullJoinSymmetry
import RowQuery.Proofs.Query.FullJoinTypes
import RowQuery.Proofs.Relabeling.Basic
import RowQuery.Proofs.Relabeling.Evaluation
import RowQuery.Proofs.Relabeling.Splitting
import RowQuery.Proofs.Relabeling.Identity
