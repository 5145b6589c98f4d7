import Kswarm.Protocol.CanonicalHash
import Kswarm.Reducer.Encoding

/-! Building the proof document, and binding a verified journal to a claim
(`worker_common/branch_receipt.py`). -/
namespace Kswarm.Worker

def branchReceiptSchema : String := "MFBR1"
def branchReceiptSchemaVersion : ℤ := 1
def receiptCidField : String := "zkvm_receipt_cid"

structure ReceiptJournal where
  inputDigest : Digest
  resultHash : Digest
  outputLen : ℕ
  deriving DecidableEq

/-- `bytes.hex()`. -/
def hex (d : Digest) : String := Reducer.encodeHex d.val

/-- The branch output as the guest sees it: everything except the receipt locator. -/
def proofDocument (outputPayload : Json) : Json := outputPayload.without [receiptCidField]

/-- The `MFBR1` frame around a proof document. -/
def frame (inputSha : Digest) (document : Json) : Json := .obj [
  ("schema",.str branchReceiptSchema),
  ("schema_version",.int branchReceiptSchemaVersion),
  ("branch_input_sha256",.str (hex inputSha)),
  ("branch_output",document)]

/-- The canonical frame the guest reads. -/
def guestInputBytes (branchInputPayload outputPayload : Json) :
    Except Protocol.ResultError Bytes := do
  let input ← Protocol.canonicalJsonBytes branchInputPayload
  Protocol.canonicalJsonBytes (frame (sha256 input) (proofDocument outputPayload))

/-- What an honest guest must have committed for this input and this output. -/
def expectedJournal (branchInputPayload outputPayload : Json) (resultHash : Digest) :
    Except Protocol.ResultError ReceiptJournal := do
  let frame ← guestInputBytes branchInputPayload outputPayload
  let document ← Protocol.canonicalJsonBytes (proofDocument outputPayload)
  pure ⟨sha256 (leBytes 8 frame.length ++ frame),resultHash,document.length⟩

/-- Every reason the verified journal does not describe this claim. -/
def bindToClaim (journal expected : ReceiptJournal) (submittedResultHash : Digest) :
    List String :=
  (if journal.inputDigest ≠ expected.inputDigest then
    ["receipt input_digest " ++ hex journal.inputDigest ++
      " is not the digest of this job's input and output " ++ hex expected.inputDigest]
  else []) ++
  (if journal.resultHash ≠ submittedResultHash then
    ["receipt result_hash " ++ hex journal.resultHash ++
      " is not the on-chain submitted_result_hash " ++ hex submittedResultHash]
  else []) ++
  (if journal.outputLen ≠ expected.outputLen then
    ["receipt output_len " ++ toString journal.outputLen ++
      " is not the fetched document length " ++ toString expected.outputLen]
  else [])

/-- No reason is given exactly when all three committed values are the expected ones. -/
theorem bindToClaim_eq_nil {journal expected : ReceiptJournal} {submitted : Digest} :
    bindToClaim journal expected submitted = [] ↔
      journal.inputDigest = expected.inputDigest ∧ journal.resultHash = submitted ∧
        journal.outputLen = expected.outputLen := by
  unfold bindToClaim
  by_cases h1 : journal.inputDigest = expected.inputDigest
  · by_cases h2 : journal.resultHash = submitted
    · by_cases h3 : journal.outputLen = expected.outputLen
      · simp [h1,h2,h3]
      · simp [h1,h2,h3]
    · simp [h1,h2]
  · simp [h1]

end Kswarm.Worker
