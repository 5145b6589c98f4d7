import Kswarm.Prediction.Bound
import Kswarm.Protocol.Receipt
import Kswarm.Worker.Verifier

/-! What a branch attestation says. An attestation to the submitted hash lets the job settle, so
the daemon should have found no fault with the branch. A faulty receipt is refused; an output that
does not answer its input is not. -/
namespace Kswarm.Settlement
open Protocol Worker

section Attested
variable [CharData] {v : Verifier} {jobKey : Digest} {job : Job} {branchInput : BranchInput}
  {submittedOutput : BranchOutput}

lemma verify_ok {verification : Verification} (h : verify v (keyText jobKey)
    job.submittedResultHash branchInput submittedOutput = .ok verification) :
    verification.verifierHash = sha256 verification.verifierResultBytes ∧
      verification.validationErrors =
        validateOutputMatchesInput branchInput submittedOutput.toOutputFields := by
  simp only [verify,bind_eq_ok,pure_eq_ok] at h
  obtain ⟨_,-,rfl⟩ := h
  exact ⟨rfl,rfl⟩

/-- How a run ends in an attestation. -/
lemma attest_eq_attested {a : Attestation} :
    attest v jobKey job branchInput submittedOutput = .ok (.attested a) ↔
      runsModel v submittedOutput = true ∧ ∃ verification, verify v (keyText jobKey)
        job.submittedResultHash branchInput submittedOutput = .ok verification ∧
      ∃ errors report, verifyBranchReceipt v job branchInput submittedOutput =
        .ok (errors,report) ∧
      (errors = [] ∨ verification.verifierHash ≠ job.submittedResultHash) ∧
      ∃ cid, v.addJson ("branch-" ++ toString branchInput.branchIndex ++
        "-verifier-evidence.json") (evidence v (keyText jobKey) job submittedOutput verification
          report) = .ok cid ∧
      a = ⟨verification.verifierResultBytes,cid,v.softwareDigest,verification.validationErrors,
        errors,(!verification.isMatch || !errors.isEmpty) && v.challengeOnMismatch⟩ := by
  simp only [attest,ite_eq_ok,bind_eq_ok,pure_eq_ok,ok_of_mapError,Prod.exists,reduceCtorEq,
    and_false,false_or,Verdict.attested.injEq,Bool.not_eq_false]
  constructor
  · rintro ⟨hm,verification,hv,errors,report,hr,hn,cid,hc,rfl⟩
    exact ⟨hm,verification,hv,errors,report,hr,by tauto,cid,hc,rfl⟩
  · rintro ⟨hm,verification,hv,errors,report,hr,hn,cid,hc,rfl⟩
    exact ⟨hm,verification,hv,errors,report,hr,by tauto,cid,hc,rfl⟩

end Attested

section Example

/-- The input of branch 2 of another run. -/
def otherInput : BranchInput where
  schemaVersion := 1
  parentJob := "Job999"
  branchIndex := 2
  seed := "Will it rain?"
  parameters := []
  personaSetCid := none
  rngSeed := 7
  targetOutputKind := .scalar
  scalarGridBps := some 1

def inputText : Bytes := utf8 (Json.render otherInput.modelDump.sortKeys)
def outputText : Bytes := utf8 (Json.render (scalarFields 1756900000).modelDump.sortKeys)

/-- A daemon in hash-only mode over a store that holds the two documents. -/
@[irreducible] def storedDocument (cid : String) : Except String Bytes :=
  if cid = "cid-input" then .ok inputText
  else if cid = "cid-output" then .ok outputText else .error "no such block"

@[irreducible] def readStoredInput (bytes : Bytes) : Option BranchInput :=
  if bytes = inputText then some otherInput else none

@[irreducible] def readStoredOutput [CharData] (payload : Json) : Option BranchOutput :=
  if payload.equal (scalarFields 1756900000).modelDump.sortKeys then
    some (scalarOutput 1756900000) else none

def hashOnlyVerifier [CharData] : Verifier where
  executor := none
  zkvmHost := none
  zkvmImageId := none
  zkvmRequired := false
  softwareDigest := zeroHash
  wallet := zeroHash
  challengeOnMismatch := true
  catBytes := storedDocument
  addJson name _ := .ok name
  readInput := readStoredInput
  readOutput := readStoredOutput
  hostVerify _ := .error "no host"
  repr _ := ""
  lower _ := ""
  receiptText _ := ""

end Example

end Kswarm.Settlement
