import Kswarm.Worker.Executor
import Kswarm.Worker.Job

/-! The verifier daemon on branch jobs (`verifier_worker/daemon.py`): three verdicts on one branch,
the hash of its own result, the binding of output to input and the binding of the receipt, and
the attestation it sends on them. -/
namespace Kswarm.Worker
open Protocol

def journalLen : ℕ := 32+32+4

/-- What stops a job before its attestation. -/
inductive VerifierError where
  | ipfs (text : String)
  | notJson
  | invalidInput
  | invalidOutput
  | execution (error : ExecutionError)
  | encoding (error : ResultError)
  | uncaught (text : String)

/-- The failures `branch_receipt.verify` reports as its own. -/
inductive ReceiptCheckError where
  | receipt (error : BranchReceiptError)
  | notVerified
  | journalLength

/-- The daemon: its configuration, and what it calls outside this code. Without an executor it runs
in hash-only mode. -/
structure Verifier [CharData] where
  executor : Option Host
  zkvmHost : Option String
  zkvmImageId : Option String
  zkvmRequired : Bool
  softwareDigest : Digest
  wallet : Digest
  challengeOnMismatch : Bool
  catBytes : String → Except String Bytes
  addJson : String → Json → Except String String
  readInput : Bytes → Option BranchInput
  readOutput : Json → Option BranchOutput
  hostVerify : Json → Except String Json
  repr : Json → String
  lower : Json → String
  receiptText : ReceiptCheckError → String

/-- `_validate_output_matches_input`. -/
def validateOutputMatchesInput (branchInput : BranchInput) (output : OutputFields) :
    List String :=
  (if output.parentJob ≠ branchInput.parentJob then ["parent_job mismatch"] else []) ++
  (if output.branchIndex ≠ branchInput.branchIndex then ["branch_index mismatch"] else []) ++
  (if output.rngSeed ≠ branchInput.rngSeed then ["rng_seed mismatch"] else []) ++
  (if output.outputKind ≠ branchInput.targetOutputKind then ["output_kind mismatch"] else [])

def hashOnlySurface : String :=
  "HASH-ONLY: verifier fetched the input and the worker's output from IPFS, validated the " ++
  "output/input binding, and re-hashed the worker's own artifact. This mode cannot detect a " ++
  "fabricated output."

def reexecuteSurface : String :=
  "Verifier fetched the input and the worker's output from IPFS, re-executed the branch with the " ++
  "identical model, seed and configuration bound to the worker's transcript CID, encoded its own " ++
  "canonical result bytes, and compared their hash to the on-chain receipt."

def tierBDisclosure : String :=
  "For narrative_with_scalar outputs, the verifier re-executes the branch and compares the " ++
  "canonical guardrail commitment. Narrative text is hash-committed provenance, not verified " ++
  "narrative content."

def ReceiptJournal.toJson (j : ReceiptJournal) : Json := .obj [
  ("input_digest",.str (hex j.inputDigest)),
  ("result_hash",.str (hex j.resultHash)),
  ("output_len",.int j.outputLen)]

section Daemon
variable [CharData]

structure Verification where
  verifierResultBytes : Bytes
  verifierHash : Digest
  isMatch : Bool
  validationErrors : List String
  surface : String
  verifierOutput : BranchOutput
  verifierTranscript : Option Json

/-- The result the daemon stands for: its own execution, or the worker's artifact re-hashed. -/
def ownResult (v : Verifier) (jobPubkey : String) (branchInput : BranchInput)
    (submittedOutput : BranchOutput) :
    Except VerifierError (Bytes × BranchOutput × Option Json × String) :=
  match v.executor with
  | some h => do
    let execution ← (execute h jobPubkey branchInput (some submittedOutput)).mapError .execution
    pure (execution.resultBytes,execution.output,some execution.transcript,reexecuteSurface)
  | none => do
    let bytes ← (branchOutputResultBytes submittedOutput.toOutputFields).mapError .encoding
    pure (bytes,submittedOutput,none,hashOnlySurface)

def verify (v : Verifier) (jobPubkey : String) (submittedResultHash : Digest)
    (branchInput : BranchInput) (submittedOutput : BranchOutput) :
    Except VerifierError Verification := do
  let validationErrors := validateOutputMatchesInput branchInput submittedOutput.toOutputFields
  let (verifierResultBytes,verifierOutput,verifierTranscript,surface) ←
    ownResult v jobPubkey branchInput submittedOutput
  let verifierHash := sha256 verifierResultBytes
  pure {
    verifierResultBytes,verifierHash,validationErrors,surface,verifierOutput,verifierTranscript
    isMatch := decide (verifierHash = submittedResultHash) && validationErrors.isEmpty }

/-- `image_id_matches`; a pinned id is looked up in the bundle, which must be a dictionary then. -/
def imageIdMatches (v : Verifier) (bundle : Json) : Except VerifierError (List String) :=
  match v.zkvmImageId with
  | none => pure []
  | some pinned => do
    failIf (bundle.isObj = false) (.uncaught "bundle has no attribute get")
    pure (if v.lower ((bundle.get "image_id_hex").getD (.str "")) ≠ pinned then
      ["receipt image id " ++ v.repr ((bundle.get "image_id_hex").getD .null) ++
        " is not the pinned guest " ++ v.repr (.str pinned)] else [])

/-- `verified.get("verified") is True`. -/
def reportsVerified (verified : Json) : Bool :=
  match verified.get "verified" with
  | some (.bool true) => true
  | _ => false

/-- `bytes.fromhex(verified.get("journal_hex", ""))`; what is no hexadecimal text raises. -/
def journalBytes (verified : Json) : Option Bytes :=
  match (verified.get "journal_hex").getD (.str "") with
  | .str text => Cli.fromhex text.toList
  | _ => none

/-- `branch_receipt.verify`: the journal the host decoded from the receipt. The inner error is one
the caller catches, the outer one is not. -/
def verifyReceipt (v : Verifier) (bundle : Json) :
    Except VerifierError (Except ReceiptCheckError ReceiptJournal) :=
  match bundleJournal bundle with
  | .error e => pure (.error (.receipt e))
  | .ok _ => do
    failIf (bundle.finite = false) (.encoding .notFinite)
    match v.hostVerify bundle with
    | .error text => pure (.error (.receipt (.host text)))
    | .ok verified => do
      failIf (verified.isObj = false) (.uncaught "verified has no attribute get")
      if reportsVerified verified = false then pure (.error .notVerified)
      else match journalFromJson ((verified.get "journal").getD .null) with
        | .error e => pure (.error (.receipt e))
        | .ok journal => do
          let raw ← require (journalBytes verified) (.uncaught "journal_hex")
          pure (if raw.length ≠ journalLen then .error .journalLength else .ok journal)

def receiptReport (mode : String) (receiptCid : Option String) (rest : List (String × Json)) :
    Json := .obj ([("mode",.str mode),("receipt_cid",optStr receiptCid)] ++ rest)

/-- The failure of a receipt that did not verify. -/
def didNotVerify (cid reason : String) : String :=
  "branch receipt " ++ cid ++ " did not verify: " ++ reason

/-- `_verify_branch_receipt`: why the receipt does not hold, and a report for the evidence. -/
def verifyBranchReceipt (v : Verifier) (job : Job) (branchInput : BranchInput)
    (submittedOutput : BranchOutput) : Except VerifierError (List String × Json) :=
  let cid := submittedOutput.zkvmReceiptCid
  if v.zkvmHost.all String.isEmpty = true then pure ([],receiptReport "disabled" cid [])
  else if cid.all String.isEmpty = true then
    if v.zkvmRequired then
      pure (["branch output carries no zkvm_receipt_cid and this verifier requires one"],
        receiptReport "verify" cid [])
    else pure ([],receiptReport "absent" cid [])
  else match v.catBytes (cid.getD "") with
    | .error text => pure ([didNotVerify (cid.getD "") text],receiptReport "verify" cid [])
    | .ok bytes => do
      let bundle ← require (Cli.loadsBytes bytes) .notJson
      let imageErrors ← imageIdMatches v bundle
      match (← verifyReceipt v bundle) with
      | .error e => pure ([didNotVerify (cid.getD "") (v.receiptText e)],
          receiptReport "verify" cid [])
      | .ok journal => do
        let expected ← (expectedJournal branchInput.modelDump submittedOutput.modelDump
          job.submittedResultHash).mapError .encoding
        let errors := imageErrors ++ bindToClaim journal expected job.submittedResultHash
        pure (errors,receiptReport "verify" cid [
          ("image_id_hex",(bundle.get "image_id_hex").getD .null),
          ("journal",journal.toJson),
          ("expected_journal",expected.toJson),
          ("errors",.arr (errors.map .str))])

/-- `_evidence`. -/
def evidence (v : Verifier) (jobPubkey : String) (job : Job) (submittedOutput : BranchOutput)
    (verification : Verification) (report : Json) : Json := .obj [
  ("schema_version",.int 2),
  ("job",.str jobPubkey),
  ("mode",.str (if v.executor.isSome then "reexecute" else "hash-only")),
  ("submitted_output_cid",.str job.outputCid),
  ("worker_result_hash",.str (hex job.submittedResultHash)),
  ("verifier_result_hash",.str (hex verification.verifierHash)),
  ("matched",.bool verification.isMatch),
  ("validation_errors",.arr (verification.validationErrors.map .str)),
  ("verification_surface",.str verification.surface),
  ("tier_b_disclosure",.str tierBDisclosure),
  ("worker_output",submittedOutput.modelDump),
  ("verifier_output",verification.verifierOutput.modelDump),
  ("verifier_transcript",verification.verifierTranscript.getD .null),
  ("branch_receipt",report)]

/-- A submitted attestation: what goes on chain, and what the daemon had found. -/
structure Attestation where
  resultBytes : Bytes
  evidenceCid : String
  softwareDigest : Digest
  validationErrors : List String
  receiptErrors : List String
  challenges : Bool

/-- How `_verify_and_attest` ends when nothing raises. -/
inductive Verdict where
  | otherModel
  | refused (receiptErrors : List String)
  | attested (attestation : Attestation)

/-- The two documents of a job. -/
def fetchBranch (v : Verifier) (job : Job) : Except VerifierError (BranchInput × BranchOutput) := do
  let inputBytes ← (v.catBytes job.inputCid).mapError .ipfs
  let branchInput ← require (v.readInput inputBytes) .invalidInput
  let outputBytes ← (v.catBytes job.outputCid).mapError .ipfs
  let payload ← require (Cli.loadsBytes outputBytes) .notJson
  let submittedOutput ← require (v.readOutput payload) .invalidOutput
  pure (branchInput,submittedOutput)

/-- A re-executing daemon speaks only about its own model. -/
def runsModel (v : Verifier) (submittedOutput : BranchOutput) : Bool :=
  v.executor.all (fun h => decide (submittedOutput.llmModel = h.llmModelName))

/-- `_verify_and_attest` on the fetched documents. -/
def attest (v : Verifier) (jobKey : Digest) (job : Job) (branchInput : BranchInput)
    (submittedOutput : BranchOutput) : Except VerifierError Verdict := do
  if runsModel v submittedOutput = false then pure .otherModel
  else do
    let verification ← verify v (keyText jobKey) job.submittedResultHash branchInput submittedOutput
    let (receiptErrors,report) ← verifyBranchReceipt v job branchInput submittedOutput
    if receiptErrors ≠ [] ∧ verification.verifierHash = job.submittedResultHash then
      pure (.refused receiptErrors)
    else do
      let evidenceCid ← (v.addJson ("branch-" ++ toString branchInput.branchIndex ++
        "-verifier-evidence.json") (evidence v (keyText jobKey) job submittedOutput verification
          report)).mapError .ipfs
      pure (.attested {
        evidenceCid,receiptErrors
        resultBytes := verification.verifierResultBytes
        softwareDigest := v.softwareDigest
        validationErrors := verification.validationErrors
        challenges := (!verification.isMatch || !receiptErrors.isEmpty) && v.challengeOnMismatch })

def verifyAndAttest (v : Verifier) (jobKey : Digest) (job : Job) :
    Except VerifierError Verdict := do
  let (branchInput,submittedOutput) ← fetchBranch v job
  attest v jobKey job branchInput submittedOutput

/-- `_matches_attestable_branch_job`. -/
def matchesAttestableBranchJob (v : Verifier) (job : Job) (now : ℕ) : Bool :=
  decide (job.status = Cli.jobStatusCompleted) && decide (job.jobClass = jobClassBranchProof) &&
    job.verifierAuthority.isNone && decide (now < job.challengeDeadline) &&
    decide (job.requiredSoftwareDigest = v.softwareDigest ∨ job.requiredSoftwareDigest = zeroHash) &&
    decide (job.worker ≠ v.wallet)

end Daemon

end Kswarm.Worker
