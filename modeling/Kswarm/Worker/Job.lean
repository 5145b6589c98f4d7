import Kswarm.Cli.Prediction

/-! The job account as the daemons read it (`protocol.py`, `constants.py`). -/
namespace Kswarm.Worker

/-- `JobAccount`; its binding fields are those `predict bind-aggregate` reads. -/
structure Job extends Cli.JobAccount where
  jobClass : ℕ
  customer : Digest
  worker : Digest
  inputCid : String
  inputBundleHash : Digest
  expectedResultHash : Digest
  requiredSoftwareDigest : Digest
  verifierAuthority : Option Digest
  challengeDeadline : ℕ

def jobStatusAwaitingArtifact : ℕ := 1
def jobStatusOpen : ℕ := 2
def jobStatusClaimed : ℕ := 3
def jobStatusCancelled : ℕ := 6
def jobStatusSlashed : ℕ := 7

def jobClassBranchProof : ℕ := 2
def jobClassAggregateProof : ℕ := 4

def zeroHash : Digest := ⟨List.replicate 32 (UInt8.ofNat 0),List.length_replicate⟩

end Kswarm.Worker
