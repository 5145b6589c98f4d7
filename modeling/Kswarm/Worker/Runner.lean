import Kswarm.Worker.Job

/-! What the aggregate runner checks before it claims (`aggregator_runner/runner.py`): the committed
artifact is the one the job was opened against, its receipts are those of the branch jobs on
chain, and an artifact that names a plan is the reduction the plan fixed before any branch ran. -/
namespace Kswarm.Worker
open Cli

/-- The refusals of `_check_artifact_against_plan`, and the exceptions of reading a document. -/
inductive AggregationError where
  | malformed
  | planUnreadable (cid text : String)
  | departs (cid : String) (differences : List String)

/-- What the plan check takes from outside: IPFS, and how a value that is no text is printed. -/
structure RunnerHost where
  catBytes : String → Except String Bytes
  str : Json → String

/-- The jobs of `document["branches"]`; an empty text or dictionary is walked as no branch. -/
def boundJobs (str : Json → String) (document : Json) : Option (List String) :=
  match document.get "branches" with
  | some (.arr items) => jobTexts str items
  | some (.str s) => if s.isEmpty then some [] else none
  | some (.obj fs) => if fs.isEmpty then some [] else none
  | _ => none

/-- What the artifact and its plan differ in. -/
def planDifferences (str : Json → String) (plan document : Json) :
    Except AggregationError (List String) := do
  failIf (plan.isObj = false) .malformed
  let planned ← require (plan.dictMember "combiner_parameters") .malformed
  let bound ← require (document.dictMember "combiner_parameters") .malformed
  let plannedJobs ← require (plannedJobs str plan) .malformed
  let boundJobs ← require (boundJobs str document) .malformed
  pure (
    (if ((plan.get "combiner").getD .null).equal ((document.get "combiner").getD .null) = false
      then ["combiner"] else []) ++
    (if planned.equal bound = false then ["combiner_parameters"] else []) ++
    (if plannedJobs ≠ [] ∧ plannedJobs ≠ boundJobs then ["branch set"] else []))

/-- `_check_artifact_against_plan`. An artifact that names no plan passes. -/
def checkArtifactAgainstPlan (h : RunnerHost) (artifact : Bytes) :
    Except AggregationError Unit := do
  let document ← require (loadsBytes artifact) .malformed
  failIf (document.isObj = false) .malformed
  let planCid := (document.get "aggregate_plan_cid").getD .null
  if planCid.truthy = false then pure ()
  else do
    let cid := planCid.textOf h.str
    let bytes ← (h.catBytes cid).mapError (.planUnreadable cid)
    let plan ← require (loadsBytes bytes) (.planUnreadable cid "not JSON")
    let differences ← planDifferences h.str plan document
    failIf (differences ≠ []) (.departs cid differences)

/-- The refusals of `_bind_committed_artifact`. -/
inductive BindingError where
  | ipfs (text : String)
  | differentArtifact (digest : Digest)
  | rejected (error : AggregateError)
  | notPacked
  | differentJournal (journalHash : Digest)
  | zeroDigest
  | malformed
  | badKey (text : String)
  | missingBranch (jobKey : Digest)
  | notBranchProof (jobKey : Digest)
  | notReady (jobKey : Digest) (status : ℕ)
  | badReceipt (error : AggregateError)
  | differentReceipt (jobKey : Digest)
  | plan (error : AggregationError)

/-- The runner's reads: the chain, and whether an attested branch is enough. -/
structure Runner extends RunnerHost where
  fetchJob : Digest → Option Job
  allowCompletedBranches : Bool

/-- What the runner derived from the committed artifact, before anything is sent. -/
structure AggregateBinding where
  artifact : Bytes
  journal : AggregateJournal

/-- `json.loads(artifact.decode("utf-8"))["branches"]`, walked; an empty text or dictionary is
walked as no branch. -/
def branchRecords (artifact : Bytes) : Option (List Json) := do
  let document ← loadsBytes artifact
  match document.get "branches" with
  | some (.arr items) => some items
  | some (.str s) => if s.isEmpty then some [] else none
  | some (.obj fs) => if fs.isEmpty then some [] else none
  | _ => none

/-- `parse_branch_result_bytes(bytes.fromhex(branch["result_bytes"]))`. -/
def recordReceipt {ε : Type} (malformed : ε) (badReceipt : AggregateError → ε) (branch : Json) :
    Except ε BranchReceipt := do
  let text ← (string branch "result_bytes").mapError (fun _ => malformed)
  let bytes ← require (fromhex text.toList) malformed
  (parseBranchResultBytes bytes).mapError badReceipt

/-- `Pubkey.from_string(branch["job"])`. -/
def recordKey {ε : Type} (malformed : ε) (badKey : String → ε) (branch : Json) :
    Except ε Digest := do
  let text ← (string branch "job").mapError (fun _ => malformed)
  require (readKey text) (badKey text)

/-- One turn of `_check_branches_against_chain`. -/
def checkBranch (r : Runner) (branch : Json) : Except BindingError Unit := do
  let jobKey ← recordKey .malformed .badKey branch
  let job ← require (r.fetchJob jobKey) (.missingBranch jobKey)
  failIf (job.jobClass ≠ jobClassBranchProof) (.notBranchProof jobKey)
  failIf (job.ready r.allowCompletedBranches = false) (.notReady jobKey job.status)
  let receipt ← recordReceipt .malformed .badReceipt branch
  failIf (receipt.resultHash ≠ job.submittedResultHash) (.differentReceipt jobKey)

/-- Every receipt in the artifact must be the receipt that branch job settled. -/
def checkBranchesAgainstChain (r : Runner) (artifact : Bytes) : Except BindingError Unit := do
  let branches ← require (branchRecords artifact) .malformed
  branches.forM (checkBranch r)

/-- `_bind_committed_artifact`: reduce the artifact the job committed, and refuse anything the job
cannot settle. -/
def bindCommittedArtifact (r : Runner) (job : Job) : Except BindingError AggregateBinding := do
  let artifact ← (r.catBytes job.inputCid).mapError .ipfs
  failIf (framedInputDigest artifact ≠ job.inputBundleHash)
    (.differentArtifact (framedInputDigest artifact))
  let journal ← (aggregateJournal loadsBytes artifact).mapError .rejected
  let journalHash ← require journal.journalHash .notPacked
  failIf (journalHash ≠ job.expectedResultHash) (.differentJournal journalHash)
  failIf (job.requiredSoftwareDigest = zeroHash) .zeroDigest
  checkBranchesAgainstChain r artifact
  (checkArtifactAgainstPlan r.toRunnerHost artifact).mapError .plan
  pure ⟨artifact,journal⟩

end Kswarm.Worker
