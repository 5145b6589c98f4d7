import Kswarm.Cli.RunManifest
import Kswarm.Lib.Process
import Kswarm.Worker.Runner

/-! What the commands and the aggregate runner ask of the outside (`rpc.py`, `protocol.py`,
`run_store.py`): the cluster, the run file, IPFS, the clock and the proof hook. -/
namespace Kswarm.Cli
open Worker

structure RpcError where
  code : String
  message : String
  deriving DecidableEq

/-- The arguments of `open_job`. -/
structure OpenJobArgs where
  nonce : ℕ
  inputBundleHash : Digest
  expectedResultHash : Digest
  rewardAmount : ℕ
  requiredStake : ℕ
  jobClass : ℕ
  requiredRole : ℕ
  requiredTier : ℕ
  requiredCapability : Capability
  requiredSoftwareDigest : Digest
  claimWindow : ℕ
  executionWindow : ℕ
  challengeWindow : ℕ
  challengeBond : ℕ
  deriving DecidableEq

/-- The transactions of a run, each with the wallet that signs it. -/
inductive Transaction where
  | openJob (customer : Digest) (args : OpenJobArgs)
  | commitInputArtifact (customer job : Digest) (inputCid : String)
  | cancelOpenJob (customer job : Digest)
  | claimJob (worker job : Digest)
  | submitReceipt (worker job : Digest) (outputCid : String) (resultBytes : Bytes)
  deriving DecidableEq

/-- One question to the outside. The reads of a binding are asked for together. -/
inductive Op where
  | lock
  | load
  | save (run : RunManifest)
  | fetchJob (job : Digest)
  | accountInfos (jobs : List Digest)
  | send (transaction : Transaction)
  | bindHost
  | runnerHost
  | clock
  | addBytes (name : String) (payload : Bytes)
  | addJson (name : String) (payload : Json)
  | branchOutput (branch : Json)
  | hook (command : String) (payload : Json)

/-- A run file that does not exist loads as `none`. A call that raises answers with its error, and
a transaction may have landed all the same. -/
def Ans : Op → Type
  | .lock => Bool
  | .load => Option RunManifest
  | .save _ => Except String Unit
  | .fetchJob _ => Except RpcError (Option Job)
  | .accountInfos _ => Except RpcError (List Bool)
  | .send _ => Except RpcError String
  | .bindHost => Except RpcError BindHost
  | .runnerHost => Except RpcError Runner
  | .clock => ℕ
  | .addBytes _ _ => Except String String
  | .addJson _ _ => Except String String
  | .branchOutput _ => Option Json
  | .hook _ _ => Except String String

namespace Ask
variable {ε : Type}

abbrev lock : Process Op Ans ε Bool := .query Op.lock
abbrev load : Process Op Ans ε (Option RunManifest) := .query Op.load
abbrev save (run : RunManifest) : Process Op Ans ε (Except String Unit) := .query (Op.save run)
abbrev fetchJob (job : Digest) : Process Op Ans ε (Except RpcError (Option Job)) :=
  .query (Op.fetchJob job)
abbrev accountInfos (jobs : List Digest) : Process Op Ans ε (Except RpcError (List Bool)) :=
  .query (Op.accountInfos jobs)
abbrev send (transaction : Transaction) : Process Op Ans ε (Except RpcError String) :=
  .query (Op.send transaction)
abbrev bindHost : Process Op Ans ε (Except RpcError BindHost) := .query Op.bindHost
abbrev runnerHost : Process Op Ans ε (Except RpcError Runner) := .query Op.runnerHost
abbrev clock : Process Op Ans ε ℕ := .query Op.clock
abbrev addBytes (name : String) (payload : Bytes) : Process Op Ans ε (Except String String) :=
  .query (Op.addBytes name payload)
abbrev addJson (name : String) (payload : Json) : Process Op Ans ε (Except String String) :=
  .query (Op.addJson name payload)
abbrev branchOutput (branch : Json) : Process Op Ans ε (Option Json) := .query (Op.branchOutput branch)
abbrev hook (command : String) (payload : Json) : Process Op Ans ε (Except String String) :=
  .query (Op.hook command payload)

end Ask

end Kswarm.Cli
