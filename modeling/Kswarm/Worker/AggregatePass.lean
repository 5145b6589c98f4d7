import Kswarm.Cli.Rpc
import Kswarm.Worker.AggregateVerifier
import Kswarm.Worker.BonsolHook

/-! One pass of the aggregate runner over a run file (`aggregator_runner/runner.py`): bind the
committed artifact, claim the job, submit the guest's outputs as the receipt, and only then ask
for the proof. -/
namespace Kswarm.Worker
open Cli

inductive PassError where
  | rpc (error : RpcError)
  | file (text : String)
  | ipfs (text : String)
  | binding (error : BindingError)
  | malformed
  | noHook
  | hook (error : BonsolHookError)

abbrev Pass (α : Type) := Process Op Ans PassError α

def provingRequiredClusters : List String := ["devnet","mainnet"]

/-- The runner's configuration. One that would submit unproven receipts on a real cluster is
refused at start. -/
structure RunnerConfig where
  wallet : Digest
  hookCommand : String
  allowUnbound : Bool
  cluster : String
  permitted : hookCommand = "" → allowUnbound = true → cluster ∉ provingRequiredClusters

/-- `_resolve_allow_unproven`. -/
def RunnerConfig.allowUnproven (c : RunnerConfig) : Bool := c.hookCommand.isEmpty && c.allowUnbound

def receiptBindingBonsol : String := "bonsol-committed-outputs"
def receiptBindingUnproven : String := "mfa3-committed-outputs-unproven"

/-- A call whose error ends the pass. -/
def rpc {α : Type} (answer : Except RpcError α) : Pass α := .lift (answer.mapError .rpc)

def save (run : RunManifest) : Pass Unit := do
  let answer ← Ask.save run
  .lift (answer.mapError .file)

/-- The job is claimed by this wallet. -/
def ours (c : RunnerConfig) (job : Job) : Bool :=
  decide (job.status = jobStatusClaimed) && decide (job.worker = c.wallet)

/-- The checks before anything is read: the job can be claimed or already is ours, its artifact is
committed, and its receipt could be proven. -/
def eligible (c : RunnerConfig) (job : Job) : Bool :=
  decide (job.jobClass = jobClassAggregateProof) &&
    (decide (job.status = jobStatusOpen) || ours c job) && !job.inputCid.isEmpty &&
    (!c.hookCommand.isEmpty || c.allowUnproven)

/-- `_branch_outputs_for_report`: a branch whose output cannot be fetched is left out of the
report. -/
def branchOutputsForReport : List Json → Pass (List Json)
  | [] => pure []
  | branch::branches => do
    let output ← Ask.branchOutput branch
    if output.isNone && ((branch.get "branch_index").isNone ||
        (branch.get "output_cid").isNone) then .raise .malformed
    else do
      let outputs ← branchOutputsForReport branches
      pure (output.toList ++ outputs)

/-- `_result_report`. -/
def resultReport (run : RunManifest) (binding : AggregateBinding) : Option Json := do
  let outputSchemaHash ← run.parentManifest.get "output_schema_hash"
  let reduction := binding.journal.reduction
  pure (.obj [
    ("combiner",.str run.combiner),
    ("combiner_id",.int reduction.combinerId),
    ("combiner_parameters",.obj [
      ("trim_bps",.int reduction.trimBps),
      ("category_dictionary_size",.int reduction.categoryDictionarySize)]),
    ("scalar_value_bps",if run.combiner = "majority-vote" then .null else .int reduction.resultValue),
    ("categorical_label_index",
      if run.combiner = "majority-vote" then .int reduction.resultValue else .null),
    ("branch_count",.int reduction.branchCount),
    ("merkle_root",.str (Cli.hex reduction.merkleRoot)),
    ("output_schema_hash",outputSchemaHash),
    ("aggregate_input_sha256",.str (Cli.hex (sha256 binding.artifact)))])

/-- `AggregateBinding.to_json`. -/
def AggregateBinding.toJson (binding : AggregateBinding) (committedOutputs : Bytes) : Json :=
  .obj ([
    ("schema",.str aggregateSchema),
    ("artifact_sha256",.str (Cli.hex (sha256 binding.artifact)))] ++
    (membersOf (journalJson binding.journal committedOutputs)).getD [])

/-- `aggregate-output.json`. -/
def aggregateOutput (c : RunnerConfig) (run : RunManifest) (job : Job) (binding : AggregateBinding)
    (resultBytes : Bytes) (report : Json) (branchOutputs : List Json) : Json := .obj [
  ("schema_version",.int 3),
  ("parent_run",.str (keyText run.parentRun)),
  ("combiner",.str run.combiner),
  ("result",report),
  ("result_schema",.str aggregateSchema),
  ("receipt_binding",.str
    (if c.allowUnproven then receiptBindingUnproven else receiptBindingBonsol)),
  ("result_hash",.str (Cli.hex (sha256 resultBytes))),
  ("aggregate_input_cid",.str job.inputCid),
  ("bonsol",binding.toJson resultBytes),
  ("branch_outputs",.arr branchOutputs)]

/-- The payload of the hook. -/
def hookPayload (run : RunManifest) (job : Job) (binding : AggregateBinding) (resultBytes : Bytes)
    (report : Json) : Json := .obj [
  ("run",.str (keyText run.parentRun)),
  ("aggregate_job",.str (keyText run.aggregateJob)),
  ("image_id",.str (Cli.hex job.requiredSoftwareDigest)),
  ("input_cid",.str job.inputCid),
  ("input_artifact_hex",.str (Reducer.encodeHex binding.artifact)),
  ("input_digest",.str (Cli.hex binding.journal.inputDigest)),
  ("committed_outputs",.str (Reducer.encodeHex resultBytes)),
  ("output_digest",.str (Cli.hex (sha256 resultBytes))),
  ("journal_hash",.str (Cli.hex (journalHash binding.journal.inputDigest resultBytes))),
  ("result",report)]

/-- Claim the job unless it is ours already; a lost race gives the job up. -/
def claimAggregate (c : RunnerConfig) (run : RunManifest) (job : Job) : Pass (Option RunManifest) :=
  if ours c job then pure (some run)
  else do
    match ← Ask.send (.claimJob c.wallet run.aggregateJob) with
    | .error _ => pure none
    | .ok _ => do
      let now ← Ask.clock
      let claimed := {run with record := {run.record with aggregateClaimedAtUnix := some now}}
      save claimed
      pure (some claimed)

/-- Submit the guest's committed outputs, and record that they are on chain. -/
def submitAggregate (c : RunnerConfig) (run : RunManifest) (job : Job) (binding : AggregateBinding)
    (resultBytes : Bytes) (report : Json) (branchOutputs : List Json) : Pass RunManifest := do
  let added ← Ask.addJson "aggregate-output.json"
    (aggregateOutput c run job binding resultBytes report branchOutputs)
  let resultCid ← .lift (added.mapError .ipfs)
  let answer ← Ask.send (.submitReceipt c.wallet run.aggregateJob resultCid resultBytes)
  let _ ← rpc answer
  let submitted := {run with record := {run.record with
    aggregateSubmitted := true
    aggregateOutputCid := some resultCid
    aggregateResultHash := some (sha256 resultBytes)
    aggregateJournal := some (journalJson binding.journal resultBytes) }}
  save submitted
  pure submitted

/-- `_prove_bonsol`: run the hook, then refuse any execution that does not match. -/
def proveBonsol (c : RunnerConfig) (run : RunManifest) (job : Job) (binding : AggregateBinding)
    (resultBytes : Bytes) (report : Json) : Pass BonsolBinding :=
  if c.hookCommand.isEmpty then .raise .noHook
  else do
    let answer ← Ask.hook c.hookCommand (hookPayload run job binding resultBytes report)
    let stdout ← .lift (answer.mapError (fun text => .hook (.failed text)))
    let execution ← .lift ((parseHookOutput stdout).mapError .hook)
    .lift ((checkBindingAgainstJob execution job binding.journal resultBytes).mapError .hook)
    pure execution

/-- From the claim on. -/
def executeAggregate (c : RunnerConfig) (run : RunManifest) (job : Job) (binding : AggregateBinding)
    (resultBytes : Bytes) (branchOutputs : List Json) : Pass Bool := do
  match ← claimAggregate c run job with
  | none => pure false
  | some claimed => do
    let report ← .lift (require (resultReport claimed binding) .malformed)
    let submitted ← submitAggregate c claimed job binding resultBytes report branchOutputs
    if c.allowUnproven then pure true
    else do
      let execution ← proveBonsol c submitted job binding resultBytes report
      save {submitted with record := {submitted.record with
        aggregateBonsolExecution := some execution.toJson }}
      pure true

/-- Everything the runner derives before it claims. -/
def bindAggregateJob (job : Job) : Pass (AggregateBinding × Bytes × List Json) := do
  let answer ← Ask.runnerHost
  let host ← rpc answer
  let binding ← .lift ((bindCommittedArtifact host job).mapError .binding)
  let resultBytes ← .lift (require binding.journal.committedOutputs (.binding .notPacked))
  let branches ← .lift (require (branchRecords binding.artifact) .malformed)
  let branchOutputs ← branchOutputsForReport branches
  pure (binding,resultBytes,branchOutputs)

/-- `_try_aggregate`. -/
def tryAggregate (c : RunnerConfig) (run : RunManifest) : Pass Bool := do
  let answer ← Ask.fetchJob run.aggregateJob
  match ← rpc answer with
  -- The artifact does not exist until the branches settle, so neither does the job.
  | none => pure false
  | some job =>
    if eligible c job = false then pure false
    else do
      let (binding,resultBytes,branchOutputs) ← bindAggregateJob job
      executeAggregate c run job binding resultBytes branchOutputs

/-- `run_once` on one run file; whatever `_try_aggregate` raises is logged and dropped. -/
def runOnce (c : RunnerConfig) : Pass Bool := do
  if ← Ask.lock then
    match ← Ask.load with
    | none => .raise (.file "no such file")
    | some run =>
      if run.record.aggregateSubmitted then pure false
      else (tryAggregate c run).recover (fun _ => pure false)
  else pure false

end Kswarm.Worker
