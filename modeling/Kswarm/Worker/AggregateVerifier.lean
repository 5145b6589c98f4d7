import Kswarm.Cli.Rpc

/-! The verifier daemon on aggregate jobs (`verifier_worker/daemon.py`): reduce the committed
artifact, compare it with the job and with the branch jobs on chain, and attest to the outputs the
guest would commit. -/
namespace Kswarm.Worker
open Cli

/-- Why reading an account fails (`fetch_job`): the call, data that are no job, or keys cut short,
on which the key library panics; the panic is no `Exception`. -/
inductive AccountError where
  | rpc (error : RpcError)
  | undecodable (text : String)
  | panic
  deriving DecidableEq

inductive AggregateVerifierError where
  | ipfs (text : String)
  | account (error : AccountError)
  | rejected (error : AggregateError)
  | notPacked
  | malformed
  | badKey (text : String)
  | badReceipt (error : AggregateError)

/-- The daemon's configuration, the chain and IPFS. -/
structure AggregateVerifier where
  softwareDigest : Digest
  wallet : Digest
  challengeOnMismatch : Bool
  fetchJob : Digest → Except AccountError (Option Job)
  catBytes : String → Except String Bytes
  addJson : String → Json → Except String String

def aggregateSurface : String :=
  "Verifier fetched the aggregate job's committed input artifact, checked its framed digest " ++
  "against input_bundle_hash, reduced it with the Python mirror of the aggregate reducer guest, " ++
  "compared the resulting journal to the job's expected_result_hash and the committed outputs to " ++
  "the on-chain receipt, and checked every branch receipt in the artifact against that branch " ++
  "job on chain. This attests to the reduction, not to the zero-knowledge proof: the Bonsol " ++
  "marker is what proves the guest ran it."

/-- The accounts that are read. -/
def AggregateVerifier.found (v : AggregateVerifier) (jobKey : Digest) : Option Job :=
  (v.fetchJob jobKey).toOption.join

/-- What one branch of the artifact and its job on chain differ in. -/
def branchErrors (v : AggregateVerifier) (branch : Json) :
    Except AggregateVerifierError (List String) := do
  let jobKey ← recordKey .malformed .badKey branch
  let found ← (v.fetchJob jobKey).mapError .account
  match found with
  | none => pure ["branch job " ++ keyText jobKey ++ " does not exist"]
  | some branchJob =>
    if branchJob.jobClass ≠ jobClassBranchProof then
      pure [keyText jobKey ++ " is not a branch-proof job"]
    else do
      let receipt ← recordReceipt .malformed .badReceipt branch
      if receipt.resultHash ≠ branchJob.submittedResultHash then do
        let branchIndex ← (unsigned branch "branch_index").mapError (fun _ => .malformed)
        pure ["branch " ++ toString branchIndex ++ " receipt " ++ Cli.hex receipt.resultHash ++
          " differs from the on-chain submitted_result_hash " ++
          Cli.hex branchJob.submittedResultHash]
      else pure []

/-- `_aggregate_branches_match_chain`. -/
def aggregateBranchesMatchChain (v : AggregateVerifier) (artifact : Bytes) :
    Except AggregateVerifierError (List String) := do
  let branches ← require (branchRecords artifact) .malformed
  List.flatten <$> branches.mapM (branchErrors v)

/-- `AggregateJournal.to_json`. -/
def journalJson (journal : AggregateJournal) (committedOutputs : Bytes) : Json := .obj [
  ("input_digest",.str (Cli.hex journal.inputDigest)),
  ("committed_outputs",.str (Reducer.encodeHex committedOutputs)),
  ("output_digest",.str (Cli.hex (sha256 committedOutputs))),
  ("journal_hash",.str (Cli.hex (journalHash journal.inputDigest committedOutputs))),
  ("combiner_id",.int journal.reduction.combinerId),
  ("combiner_params_digest",.str (Cli.hex journal.reduction.paramsDigest)),
  ("result_value",.int journal.reduction.resultValue),
  ("branch_count",.int journal.reduction.branchCount),
  ("merkle_root",.str (Cli.hex journal.reduction.merkleRoot))]

/-- What the reduction and the job account differ in. -/
def jobErrors (job : Job) (artifact : Bytes) (journal : AggregateJournal)
    (committedOutputs : Bytes) : List String :=
  (if framedInputDigest artifact ≠ job.inputBundleHash then
    ["committed artifact framed digest " ++ Cli.hex (framedInputDigest artifact) ++
      " differs from input_bundle_hash " ++ Cli.hex job.inputBundleHash] else []) ++
  (if journalHash journal.inputDigest committedOutputs ≠ job.expectedResultHash then
    ["reduction journal hash " ++ Cli.hex (journalHash journal.inputDigest committedOutputs) ++
      " differs from expected_result_hash " ++ Cli.hex job.expectedResultHash] else []) ++
  (if sha256 committedOutputs ≠ job.submittedResultHash then
    ["reduction committed outputs hash to " ++ Cli.hex (sha256 committedOutputs) ++
      ", not the submitted_result_hash " ++ Cli.hex job.submittedResultHash] else []) ++
  (if job.resultBytes ≠ [] ∧ job.resultBytes ≠ committedOutputs then
    ["on-chain receipt bytes are not the outputs the guest would commit for this artifact"]
  else [])

def aggregateEvidence (jobKey : Digest) (job : Job) (journal : AggregateJournal)
    (committedOutputs : Bytes) (errors : List String) : Json := .obj [
  ("schema_version",.int 3),
  ("job",.str (keyText jobKey)),
  ("mode",.str "aggregate-reduction"),
  ("aggregate_input_cid",.str job.inputCid),
  ("worker_result_hash",.str (Cli.hex job.submittedResultHash)),
  ("verifier_result_hash",.str (Cli.hex (sha256 committedOutputs))),
  ("matched",.bool errors.isEmpty),
  ("validation_errors",.arr (errors.map .str)),
  ("verification_surface",.str aggregateSurface),
  ("reduction",journalJson journal committedOutputs)]

/-- A submitted attestation, with the artifact it was derived from and what was found. -/
structure AggregateAttestation where
  artifact : Bytes
  resultBytes : Bytes
  evidenceCid : String
  softwareDigest : Digest
  errors : List String
  challenges : Bool

/-- `_verify_and_attest_aggregate`. The attestation names the guest the job requires, and goes out
whatever was found; only a differing receipt can be challenged. -/
def verifyAndAttestAggregate (v : AggregateVerifier) (jobKey : Digest) (job : Job) :
    Except AggregateVerifierError AggregateAttestation := do
  let artifact ← (v.catBytes job.inputCid).mapError .ipfs
  let journal ← (aggregateJournal loadsBytes artifact).mapError .rejected
  let resultBytes ← require journal.committedOutputs .notPacked
  let chainErrors ← aggregateBranchesMatchChain v artifact
  let errors := jobErrors job artifact journal resultBytes ++ chainErrors
  let evidenceCid ← (v.addJson "aggregate-verifier-evidence.json"
    (aggregateEvidence jobKey job journal resultBytes errors)).mapError .ipfs
  pure {
    artifact,resultBytes,evidenceCid,errors
    softwareDigest := if job.requiredSoftwareDigest ≠ zeroHash then job.requiredSoftwareDigest
      else v.softwareDigest
    challenges := !errors.isEmpty && decide (sha256 resultBytes ≠ job.submittedResultHash) &&
      v.challengeOnMismatch }

/-- `_matches_attestable_aggregate_job`. -/
def matchesAttestableAggregateJob (v : AggregateVerifier) (job : Job) (now : ℕ) : Bool :=
  decide (job.status = jobStatusCompleted) && decide (job.jobClass = jobClassAggregateProof) &&
    job.verifierAuthority.isNone && decide (now < job.challengeDeadline) &&
    decide (job.worker ≠ v.wallet) && !job.inputCid.isEmpty

end Kswarm.Worker
