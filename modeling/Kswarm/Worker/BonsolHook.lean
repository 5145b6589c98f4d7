import Kswarm.Lib.JsonRoundTrip
import Kswarm.Mirror.Encoding
import Kswarm.Worker.Runner

/-! The contract of the proof hook (`aggregator_runner/bonsol_hook.py`), and the runner's check that
what the hook executed is the claim it reduced itself. -/
namespace Kswarm.Worker
open Cli

def maxExecutionIdBytes : ℕ := 32
def maxCommittedOutputBytes : ℕ := 512

inductive BonsolHookError where
  | failed (text : String)
  | notJson
  | notObject
  | missingExecutionId
  | executionIdTooLong
  | missing (field : String)
  | notHex (field value : String)
  | wrongLength (field : String) (length : ℕ)
  | outputLength (length : ℕ)
  | outputDigestMismatch
  | journalHashMismatch
  | differentOutputs
  | differentArtifact
  | differentInputBundle
  | differentImage
  | differentExpectedResult

structure BonsolBinding where
  executionId : String
  imageId : Digest
  inputDigest : Digest
  outputDigest : Digest
  journalHash : Digest
  committedOutputs : Bytes

def BonsolBinding.toJson (b : BonsolBinding) : Json := .obj [
  ("execution_id",.str b.executionId),
  ("image_id",.str (Cli.hex b.imageId)),
  ("input_digest",.str (Cli.hex b.inputDigest)),
  ("output_digest",.str (Cli.hex b.outputDigest)),
  ("journal_hash",.str (Cli.hex b.journalHash)),
  ("committed_outputs",.str (Reducer.encodeHex b.committedOutputs))]

/-- The callback harness rule. -/
def journalHashFor (inputDigest : Digest) (committedOutputs : Bytes) : Digest :=
  sha256 (inputDigest.val ++ committedOutputs)

/-- `value.removeprefix("0x")`. -/
def removeHexMark : List Char → List Char
  | '0' :: 'x' :: digits => digits
  | digits => digits

/-- A member of the payload that must be a text. -/
def hookText (payload : Json) (field : String) (e : BonsolHookError) :
    Except BonsolHookError String :=
  match payload.get field with
  | some (.str value) => pure value
  | _ => .error e

/-- `_hex_bytes` without an expected length. -/
def hookHexBytes (payload : Json) (field : String) : Except BonsolHookError Bytes := do
  let value ← hookText payload field (.missing field)
  require (fromhex (removeHexMark value.toList)) (.notHex field value)

/-- `_hex_bytes` of a digest field. -/
def hookDigest (payload : Json) (field : String) : Except BonsolHookError Digest := do
  let raw ← hookHexBytes payload field
  if h : raw.length = 32 then pure ⟨raw,h⟩ else .error (.wrongLength field raw.length)

/-- `parse_hook_output`: every field is required, typed and internally consistent. -/
def parseHookOutput (stdout : String) : Except BonsolHookError BonsolBinding := do
  let payload ← require (Json.loads stdout.toList) .notJson
  failIf (payload.isObj = false) .notObject
  let executionId ← hookText payload "execution_id" .missingExecutionId
  failIf (executionId.isEmpty = true) .missingExecutionId
  failIf (maxExecutionIdBytes < (encode executionId).length) .executionIdTooLong
  let imageId ← hookDigest payload "image_id"
  let inputDigest ← hookDigest payload "input_digest"
  let outputDigest ← hookDigest payload "output_digest"
  let journalHash ← hookDigest payload "journal_hash"
  let committedOutputs ← hookHexBytes payload "committed_outputs"
  failIf (committedOutputs = [] ∨ maxCommittedOutputBytes < committedOutputs.length)
    (.outputLength committedOutputs.length)
  failIf (sha256 committedOutputs ≠ outputDigest) .outputDigestMismatch
  failIf (journalHashFor inputDigest committedOutputs ≠ journalHash) .journalHashMismatch
  pure {executionId,imageId,inputDigest,outputDigest,journalHash,committedOutputs}

/-- `check_binding_against_job`: the hook must have executed the same claim. -/
def checkBindingAgainstJob (execution : BonsolBinding) (job : Job) (journal : AggregateJournal)
    (committedOutputs : Bytes) : Except BonsolHookError Unit := do
  failIf (execution.committedOutputs ≠ committedOutputs) .differentOutputs
  failIf (execution.inputDigest ≠ journal.inputDigest) .differentArtifact
  failIf (execution.inputDigest ≠ job.inputBundleHash) .differentInputBundle
  failIf (execution.imageId ≠ job.requiredSoftwareDigest) .differentImage
  failIf (execution.journalHash ≠ job.expectedResultHash) .differentExpectedResult

/-- The digests of a parsed output are those of its own bytes. -/
lemma parseHookOutput_ok {stdout : String} {execution : BonsolBinding}
    (h : parseHookOutput stdout = .ok execution) :
    execution.outputDigest = sha256 execution.committedOutputs ∧
      execution.journalHash = journalHashFor execution.inputDigest execution.committedOutputs := by
  simp only [parseHookOutput,bind_eq_ok,failIf_eq_ok,pure_eq_ok,exists_and_left,exists_const,
    ne_eq,not_not] at h
  obtain ⟨payload,-,-,executionId,-,-,-,imageId,-,inputDigest,-,_,-,_,-,outputs,-,-,rfl,rfl,rfl⟩ := h
  exact ⟨rfl,rfl⟩

lemma checkBindingAgainstJob_eq_ok {execution : BonsolBinding} {job : Job}
    {journal : AggregateJournal} {committedOutputs : Bytes} :
    checkBindingAgainstJob execution job journal committedOutputs = .ok () ↔
      execution.committedOutputs = committedOutputs ∧
      execution.inputDigest = journal.inputDigest ∧ execution.inputDigest = job.inputBundleHash ∧
      execution.imageId = job.requiredSoftwareDigest ∧
      execution.journalHash = job.expectedResultHash := by
  simp [checkBindingAgainstJob]

section Printed

/-- Hex digits never spell the mark. -/
lemma removeHexMark_encodeHex (bytes : Bytes) :
    removeHexMark (Reducer.encodeHex bytes).toList = (Reducer.encodeHex bytes).toList := by
  cases bytes with
  | nil => rfl
  | cons byte bytes =>
    have hdigit : ∀ n < 16, Json.hexChar n ≠ 'x' := by decide
    have hne := hdigit (byte.toNat%16) (Nat.mod_lt _ (by decide))
    simp only [Reducer.encodeHex,List.flatMap_cons,String.toList_ofList,Reducer.hexPair,
      List.cons_append,List.nil_append]
    unfold removeHexMark
    split
    · rename_i heq
      exact absurd (List.cons.inj (List.cons.inj heq).2).1 hne
    · rfl

variable {payload : Json} {field : String}

lemma hookHexBytes_encodeHex {bytes : Bytes}
    (h : payload.get field = some (.str (Reducer.encodeHex bytes))) :
    hookHexBytes payload field = .ok bytes := by
  simp only [hookHexBytes,hookText,h,bind_eq_ok,pure_eq_ok,require_eq_ok]
  refine ⟨_,rfl,?_⟩
  rw [removeHexMark_encodeHex,Mirror.fromhex_encodeHex]

lemma hookDigest_hex {d : Digest} (h : payload.get field = some (.str (Cli.hex d))) :
    hookDigest payload field = .ok d := by
  unfold hookDigest
  rw [hookHexBytes_encodeHex h]
  exact dif_pos d.property

/-- A consistent execution is parsed back from every text of its JSON. -/
theorem parseHookOutput_loads (b : BonsolBinding) {stdout : String}
    (hload : Json.loads stdout.toList = some b.toJson) (hid : b.executionId.isEmpty = false)
    (hshort : (encode b.executionId).length ≤ maxExecutionIdBytes) (houtputs : b.committedOutputs ≠ [])
    (hfits : b.committedOutputs.length ≤ maxCommittedOutputBytes)
    (hdigest : sha256 b.committedOutputs = b.outputDigest)
    (hjournal : journalHashFor b.inputDigest b.committedOutputs = b.journalHash) :
    parseHookOutput stdout = .ok b := by
  have hnot : ¬(b.committedOutputs = [] ∨ maxCommittedOutputBytes < b.committedOutputs.length) := by
    rw [not_or]
    exact ⟨houtputs,by omega⟩
  simp only [parseHookOutput,bind_eq_ok,failIf_eq_ok,require_eq_ok,pure_eq_ok]
  exact ⟨b.toJson,hload,(),Bool.noConfusion,b.executionId,rfl,(),by simp [hid],(),by omega,
    b.imageId,hookDigest_hex rfl,b.inputDigest,hookDigest_hex rfl,b.outputDigest,hookDigest_hex rfl,
    b.journalHash,hookDigest_hex rfl,b.committedOutputs,hookHexBytes_encodeHex rfl,(),hnot,
    (),not_not.mpr hdigest,(),not_not.mpr hjournal,rfl⟩

/-- A consistent execution, printed as JSON, is parsed back to itself. -/
theorem parseHookOutput_render (b : BonsolBinding) (hid : b.executionId.isEmpty = false)
    (hshort : (encode b.executionId).length ≤ maxExecutionIdBytes) (houtputs : b.committedOutputs ≠ [])
    (hfits : b.committedOutputs.length ≤ maxCommittedOutputBytes)
    (hdigest : sha256 b.committedOutputs = b.outputDigest)
    (hjournal : journalHashFor b.inputDigest b.committedOutputs = b.journalHash) :
    parseHookOutput (String.ofList (Json.render b.toJson)) = .ok b := by
  have hplain : b.toJson.Plain := ⟨by simp,trivial,trivial,trivial,trivial,trivial,trivial,trivial⟩
  refine parseHookOutput_loads b ?_ hid hshort houtputs hfits hdigest hjournal
  rw [String.toList_ofList,Json.loads_render _ hplain]

end Printed

end Kswarm.Worker
