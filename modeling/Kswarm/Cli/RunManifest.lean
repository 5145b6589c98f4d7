import Kswarm.Worker.Job

/-! The run manifest (`prediction.py`): every job a run plans and how far it has come, written before
the first transaction and rewritten after every confirmed one. -/
namespace Kswarm.Cli
open Worker

inductive RunStatus where
  | runOpening
  | runOpen
  | runCancelled
  | unknown (text : String)
  deriving DecidableEq

inductive EntryStatus where
  | jobPlanned
  | jobOpened
  | jobCommitted
  | jobDeferred
  | jobCancelled
  | unknown (text : String)
  deriving DecidableEq

def runSchemaVersion : ℕ := 2

/-- The capability classes a run's jobs ask for. -/
inductive Capability where
  | workerProof
  | branchAggregatorBonsol
  deriving DecidableEq

def nodeRoleWorkerProof : ℕ := 2
def stakeTierT1 : ℕ := 1

/-- A job entry; the aggregate's input and hashes are filled in by `predict bind-aggregate`. -/
structure JobEntry where
  branchIndex : Option ℕ
  nonce : ℕ
  job : Digest
  inputCid : Option String
  inputBundleHash : Option Digest
  expectedResultHash : Option Digest
  jobClass : ℕ
  requiredCapability : Capability
  requiredSoftwareDigest : Digest
  rewardAmount : ℕ
  requiredStake : ℕ
  challengeBond : ℕ
  status : Option EntryStatus
  openSignature : Option String := none
  commitSignature : Option String := none

structure OpenParameters where
  requiredRole : ℕ
  requiredTier : ℕ
  claimWindow : ℕ
  executionWindow : ℕ
  challengeWindow : ℕ

/-- The keys of the manifest that the aggregate runner writes. -/
structure RunnerRecord where
  aggregateClaimedAtUnix : Option ℕ := none
  aggregateSubmitted : Bool := false
  aggregateOutputCid : Option String := none
  aggregateResultHash : Option Digest := none
  aggregateJournal : Option Json := none
  aggregateBonsolExecution : Option Json := none

structure RunManifest where
  schemaVersion : ℕ
  status : Option RunStatus
  parentRun : Digest
  customer : Digest
  customerWallet : String
  cluster : String
  parentManifestCid : String
  parentManifest : Json
  aggregatePlanCid : Option String
  aggregatePlan : Json
  combiner : String
  combinerParameters : Json
  aggregateInputCid : Option String
  aggregateJob : Digest
  aggregateImageId : Digest
  aggregate : Option JobEntry
  branchJobs : List JobEntry
  openParameters : OpenParameters
  record : RunnerRecord

/-- `run_status`. -/
def RunManifest.runStatus (run : RunManifest) : RunStatus := run.status.getD .runOpen

/-- `job_entry_status`. -/
def JobEntry.entryStatus (entry : JobEntry) : EntryStatus := entry.status.getD .jobCommitted

/-- `run_job_entries`: the branches in order, then the aggregate. -/
def RunManifest.runJobEntries (run : RunManifest) : List JobEntry :=
  run.branchJobs ++ run.aggregate.toList

/-- `PENDING_JOB_STATUSES`: the entry still needs `open_job` or `commit_input_artifact`. -/
def JobEntry.pending (entry : JobEntry) : Bool :=
  decide (entry.entryStatus = .jobPlanned) || decide (entry.entryStatus = .jobOpened)

inductive ResumeRefusal where
  | predates
  | cancelled
  | alreadyOpen
  | unknownStatus (text : String)

/-- `run_is_resumable`. -/
def RunManifest.runIsResumable (run : RunManifest) : Except ResumeRefusal Unit := do
  failIf (run.schemaVersion < runSchemaVersion) .predates
  match run.runStatus with
  | .runCancelled => .error .cancelled
  | .runOpen => .error .alreadyOpen
  | .unknown text => .error (.unknownStatus text)
  | .runOpening => pure ()

lemma runIsResumable_ok {run : RunManifest} (h : run.runIsResumable = .ok ()) :
    run.runStatus = .runOpening := by
  simp only [RunManifest.runIsResumable,bind_eq_ok] at h
  obtain ⟨_,-,h⟩ := h
  cases hs : run.runStatus <;> simp [hs] at h ⊢

lemma runIsResumable_alreadyOpen {run : RunManifest}
    (h : run.runIsResumable = .error .alreadyOpen) : run.runStatus = .runOpen := by
  unfold RunManifest.runIsResumable failIf at h
  by_cases hv : run.schemaVersion < runSchemaVersion
  · simp [hv,bind,Except.bind] at h
  · simp only [hv,if_false,ok_bind] at h
    cases hs : run.runStatus <;> simp [hs,pure,Except.pure] at h ⊢

/-- The part of the manifest that binding reads. -/
def RunManifest.toRun (run : RunManifest) : Run where
  parentRun := keyText run.parentRun
  parentManifestCid := run.parentManifestCid
  parentManifest := run.parentManifest
  aggregatePlanCid := run.aggregatePlanCid
  aggregatePlan := run.aggregatePlan
  combiner := run.combiner
  combinerParameters := run.combinerParameters
  branchJobs := run.branchJobs.map (fun entry => {
    branchIndex := entry.branchIndex.getD 0
    nonce := entry.nonce
    job := keyText entry.job
    inputCid := entry.inputCid.getD ""
    inputBundleHash := entry.inputBundleHash.getD zeroHash })

/-- What `predict open` records next to the plan: the wallet, the cluster and the terms of the
jobs. -/
structure OpenTerms where
  customerWallet : String
  cluster : String
  workerDigest : Digest
  branchReward : ℕ
  branchStake : ℕ
  aggregateReward : ℕ
  aggregateStake : ℕ
  claimWindow : ℕ
  executionWindow : ℕ
  challengeWindow : ℕ

def branchEntry (h : OpenHost) (t : OpenTerms) (b : BranchJob) : JobEntry where
  branchIndex := some b.branchIndex
  nonce := b.nonce
  job := h.jobPda h.customer b.nonce
  inputCid := some b.inputCid
  inputBundleHash := some b.inputBundleHash
  expectedResultHash := some zeroHash
  jobClass := jobClassBranchProof
  requiredCapability := .workerProof
  requiredSoftwareDigest := t.workerDigest
  rewardAmount := t.branchReward
  requiredStake := t.branchStake
  challengeBond := t.branchStake
  status := some .jobPlanned

/-- `aggregate_entry`: planned, not opened. -/
def aggregateEntry (h : OpenHost) (t : OpenTerms) (aggregateNonce : ℕ) : JobEntry where
  branchIndex := none
  nonce := aggregateNonce
  job := h.jobPda h.customer aggregateNonce
  inputCid := none
  inputBundleHash := none
  expectedResultHash := none
  jobClass := jobClassAggregateProof
  requiredCapability := .branchAggregatorBonsol
  requiredSoftwareDigest := h.imageId
  rewardAmount := t.aggregateReward
  requiredStake := t.aggregateStake
  challengeBond := t.aggregateStake
  status := some .jobDeferred

/-- `run`, as `predict open` first saves it. -/
def openedManifest (h : OpenHost) (o : OpenOptions) (t : OpenTerms) (run : Run) : RunManifest where
  schemaVersion := runSchemaVersion
  status := some .runOpening
  parentRun := h.jobPda h.customer (h.baseNonce+o.branches)
  customer := h.customer
  customerWallet := t.customerWallet
  cluster := t.cluster
  parentManifestCid := run.parentManifestCid
  parentManifest := run.parentManifest
  aggregatePlanCid := run.aggregatePlanCid
  aggregatePlan := run.aggregatePlan
  combiner := run.combiner
  combinerParameters := run.combinerParameters
  aggregateInputCid := none
  aggregateJob := h.jobPda h.customer (h.baseNonce+o.branches)
  aggregateImageId := h.imageId
  aggregate := some (aggregateEntry h t (h.baseNonce+o.branches))
  branchJobs := run.branchJobs.map (branchEntry h t)
  openParameters := {
    requiredRole := nodeRoleWorkerProof
    requiredTier := stakeTierT1
    claimWindow := t.claimWindow
    executionWindow := t.executionWindow
    challengeWindow := t.challengeWindow }
  record := {}

end Kswarm.Cli
