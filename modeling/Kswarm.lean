import Kswarm.Lib.Sha256
import Kswarm.Lib.Outcome
import Kswarm.Lib.LittleEndian
import Kswarm.Lib.Collision
import Kswarm.Lib.ByteOrder
import Kswarm.Lib.Utf8
import Kswarm.Lib.Borsh
import Kswarm.Lib.MerkleTree
import Kswarm.Lib.Decimal
import Kswarm.Lib.Farthest
import Kswarm.Lib.Binary64
import Kswarm.Lib.Json
import Kswarm.Lib.JsonText
import Kswarm.Lib.JsonRoundTrip
import Kswarm.Reducer.Mfb2
import Kswarm.Reducer.Combiner
import Kswarm.Reducer.Merkle
import Kswarm.Reducer.Encoding
import Kswarm.Reducer.Aggregate
import Kswarm.Reducer.CheckedCombiner
import Kswarm.Cli.Aggregate
import Kswarm.Mirror.Encoding
import Kswarm.Mirror.Decoders
import Kswarm.Mirror.Combiner
import Kswarm.Mirror.WeightedMean
import Kswarm.Mirror.MajorityVote
import Kswarm.Mirror.Outliers
import Kswarm.Mirror.Artifact
import Kswarm.Mirror.Reduction
import Kswarm.Mirror.Agreement
import Kswarm.Mirror.CombinerStage
import Kswarm.Mirror.Binding
import Kswarm.Lib.JsonSame
import Kswarm.Lib.JsonWriters
import Kswarm.Lib.CharData
import Kswarm.Protocol.BranchSchemas
import Kswarm.Protocol.CanonicalHash
import Kswarm.Reducer.Layout
import Kswarm.Reducer.Grammar
import Kswarm.Reducer.BranchReceipt
import Kswarm.Reducer.SelfCheck
import Kswarm.Mirror.CanonicalJson
import Kswarm.Worker.BranchReceipt
import Kswarm.Protocol.Receipt
import Kswarm.Mirror.BranchReceipt
import Kswarm.Lib.Numeral
import Kswarm.Worker.Parsing
import Kswarm.Worker.Executor
import Kswarm.Worker.Accepted
import Kswarm.Worker.ModelAnswers
import Kswarm.Worker.Reexecution
import Kswarm.Lib.Base58
import Kswarm.Lib.JsonEqual
import Kswarm.Cli.Prediction
import Kswarm.Worker.Job
import Kswarm.Worker.Runner
import Kswarm.Prediction.Opened
import Kswarm.Prediction.Bound
import Kswarm.Prediction.Honest
import Kswarm.Prediction.AnswerSafety
import Kswarm.Prediction.Plan
import Kswarm.Worker.Verifier
import Kswarm.Worker.AggregateVerifier
import Kswarm.Settlement.Attestation
import Kswarm.Settlement.Aggregate
import Kswarm.Settlement.Guest
import Kswarm.Lib.Process
import Kswarm.Lib.Interleaving
import Kswarm.Cli.RunManifest
import Kswarm.Cli.Rpc
import Kswarm.Worker.BonsolHook
import Kswarm.Worker.AggregatePass
import Kswarm.Settlement.SubmittedReceipt
import Kswarm.Cli.PredictRun
import Kswarm.Lifecycle.Chain
import Kswarm.Lifecycle.Entries
import Kswarm.Lifecycle.Driving
import Kswarm.Lifecycle.Running
import Kswarm.Lifecycle.Resume
import Kswarm.Lifecycle.BindAggregate
import Kswarm.Lifecycle.BindRestart
import Kswarm.Lifecycle.InFlight
import Kswarm.Lifecycle.LateRuns
import Kswarm.Lifecycle.Cancel
import Kswarm.Lifecycle.SharedManifest
import Kswarm.Lifecycle.Recovery
import Kswarm.Accounts.Job
import Kswarm.Accounts.Truncated
import Kswarm.Cli.Swarm
import Kswarm.Cli.Amounts
import Kswarm.Swarm.Cluster
import Kswarm.Swarm.Founding
import Kswarm.Swarm.Staking
import Kswarm.Swarm.Rerun
import Kswarm.Swarm.Idempotence
import Kswarm.Worker.BranchDaemon
import Kswarm.Worker.ClaimLedger
import Kswarm.Worker.ClaimDiscipline
import Kswarm.Worker.ClaimCap
import Kswarm.Worker.RetryDeadline
import Kswarm.Lib.JsonGrammar
import Kswarm.Worker.Salvage
import Kswarm.Mirror.OneSpelling
import Kswarm.Legacy.Score
import Kswarm.Legacy.Journal
import Kswarm.Legacy.Digest
import Kswarm.Settlement.Watcher
import Kswarm.Lib.JsJson
import Kswarm.Lib.Number
import Kswarm.Planner.Plan
import Kswarm.Planner.Identity
import Kswarm.Planner.Budget
import Kswarm.Legacy.Binding
import Kswarm.Mirror.Robustness
import Kswarm.Settlement.VerifierPass
import Kswarm.Proving.Accepted
import Kswarm.Proving.InputStore
import Kswarm.Accounts.Listing
import Kswarm.Instructions.Builders
import Kswarm.Instructions.Clients
import Kswarm.Instructions.Wire
import Kswarm.Gateway.Authorized
import Kswarm.Lib.JsonStyle
import Kswarm.Proving.Remote
import Kswarm.Planner.Manifest
import Kswarm.Lib.Disk
import Kswarm.Lifecycle.RunFile
