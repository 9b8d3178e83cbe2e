import BudgetedRun.Main
import BudgetedRun.Command.Perform
import BudgetedRun.Simulation
import BudgetedRun.Proofs.Table
import BudgetedRun.Proofs.Plan.Validity
import BudgetedRun.Proofs.Run.Budget
import BudgetedRun.Proofs.Run.Consistency
import BudgetedRun.Proofs.Run.Transition
import BudgetedRun.Proofs.Run.Progress
import BudgetedRun.Proofs.Run.Tokens
import BudgetedRun.Proofs.Run.Stop
import BudgetedRun.Proofs.Engine.Environment
import BudgetedRun.Proofs.Engine.History
import BudgetedRun.Proofs.Engine.Underway
import BudgetedRun.Proofs.Engine.Soundness
import BudgetedRun.Proofs.Engine.Termination
import BudgetedRun.Proofs.Engine.Effects
import BudgetedRun.Proofs.Engine.Simulation
import BudgetedRun.Proofs.Engine.Accounts
import BudgetedRun.Proofs.Engine.Endings
import BudgetedRun.Proofs.Engine.Writes
import BudgetedRun.Proofs.Engine.Reliability
import BudgetedRun.Proofs.Engine.Persistence
import BudgetedRun.Proofs.Engine.Accounting
import BudgetedRun.Proofs.Engine.Gate
import BudgetedRun.Proofs.Engine.Departures
import BudgetedRun.Proofs.Engine.Sequence
import BudgetedRun.Proofs.Engine.Course
import BudgetedRun.Proofs.Engine.Snapshots
import BudgetedRun.Proofs.Engine.Storage
import BudgetedRun.Proofs.Engine.Likeness
import BudgetedRun.Proofs.Engine.Determinism
import BudgetedRun.Proofs.Engine.Answers
import BudgetedRun.Proofs.Engine.Cancellation
import BudgetedRun.Proofs.Run.Trace
import BudgetedRun.Proofs.Engine.Widening
import BudgetedRun.Proofs.Engine.Series
import BudgetedRun.Proofs.Text.Digits
import BudgetedRun.Proofs.Json.Quoted
import BudgetedRun.Proofs.Json.RoundTrip
import BudgetedRun.Proofs.Json.Record
import BudgetedRun.Proofs.Json.Order
import BudgetedRun.Proofs.Json.OneLine
import BudgetedRun.Proofs.Time.Text
import BudgetedRun.Proofs.Run.Snapshot
import BudgetedRun.Proofs.Run.Log
import BudgetedRun.Proofs.Plan.Schema
import BudgetedRun.Proofs.Plan.Codec
import BudgetedRun.Proofs.Plan.Text
import BudgetedRun.Proofs.Plan.Prompt
import BudgetedRun.Proofs.File.Path
import BudgetedRun.Proofs.File.Tree
import BudgetedRun.Proofs.File.Site
import BudgetedRun.Proofs.File.Host
import BudgetedRun.Proofs.File.Outside
import BudgetedRun.Proofs.File.MadeDirectories
import BudgetedRun.Proofs.Store.Layout
import BudgetedRun.Proofs.Store.Directory
import BudgetedRun.Proofs.Store.Refinement
import BudgetedRun.Proofs.Store.Holding
import BudgetedRun.Proofs.Store.Outside
import BudgetedRun.Proofs.Store.Apart
import BudgetedRun.Proofs.Store.Failure
import BudgetedRun.Proofs.Store.Log
import BudgetedRun.Proofs.Command.Agreement
import BudgetedRun.Proofs.Command.Refusal
import BudgetedRun.Proofs.Config.Leftover
import BudgetedRun.Proofs.Engine.Journal
import BudgetedRun.Proofs.Engine.Uniform
