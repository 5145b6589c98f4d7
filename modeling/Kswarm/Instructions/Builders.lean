import Kswarm.Accounts.Job
import Kswarm.Cli.Swarm

/-! The instruction builders of the command line (`protocol.py`, `encoding.py`, `spl_token.py`).
Arguments are integers of any size and hashes of any length, as Python has them; packing an integer
that does not fit its width raises, a hash is written as it is. Addresses are derived by a
parameter, the search of the key library. -/
namespace Kswarm.Instructions
open Accounts (JobAccount)
open Cli.Swarm (tokenProgramId token2022ProgramId)

abbrev Pubkey := Digest

structure AccountMeta where
  pubkey : Pubkey
  isSigner : Bool
  isWritable : Bool
  deriving DecidableEq

structure Instruction where
  programId : Pubkey
  data : Bytes
  accounts : List AccountMeta
  deriving DecidableEq

/-- `Pubkey.find_program_address(seeds, program_id)[0]`. -/
abbrev FindProgramAddress := List Bytes → Pubkey → Pubkey

inductive StructError where
  | structError
  deriving DecidableEq

section Encoding

def anchorIxDiscriminator (name : String) : Bytes :=
  (sha256 (utf8 ("global:".toList ++ name.toList))).val.take 8

/-- `struct.pack` of an unsigned little-endian integer of `w` bytes. -/
def pack (w : ℕ) (value : ℤ) : Except StructError Bytes := do
  failIf (¬(0 ≤ value ∧ value < 256^w)) .structError
  pure (leBytes w value.toNat)

def u8 : ℤ → Except StructError Bytes := pack 1

def u32 : ℤ → Except StructError Bytes := pack 4

def u64 : ℤ → Except StructError Bytes := pack 8

def encodeVec (data : Bytes) : Except StructError Bytes := do
  let length ← u32 data.length
  pure (length ++ data)

def encodeString (value : String) : Except StructError Bytes := encodeVec (utf8 value.toList)

end Encoding

def systemProgramId : Pubkey := natKey (base58Value "11111111111111111111111111111111".toList)

def associatedTokenProgramId : Pubkey :=
  natKey (base58Value "ATokenGPvbdGVxr1b2hvZbsiqW5xWH25efTNsLJA8knL".toList)

def bpfLoaderUpgradeableProgramId : Pubkey :=
  natKey (base58Value "BPFLoaderUpgradeab1e11111111111111111111111".toList)

/-- A token program that `validate_token_program` lets through. -/
def KnownTokenProgram (tokenProgram : Pubkey) : Prop :=
  tokenProgram = tokenProgramId ∨ tokenProgram = token2022ProgramId

instance (tokenProgram : Pubkey) : Decidable (KnownTokenProgram tokenProgram) :=
  inferInstanceAs (Decidable (_ ∨ _))

/-- What an instruction needs to address the protocol; `__post_init__` checks the token program. -/
structure ProtocolAddresses where
  programId : Pubkey
  paymentMint : Pubkey
  tokenProgram : Pubkey
  known : KnownTokenProgram tokenProgram

structure InitializeProtocolArgs where
  tierOneStakeFloor : ℤ
  tierTwoStakeFloor : ℤ
  tierThreeStakeFloor : ℤ
  verifierStakeFloor : ℤ
  minChallengeWindowSeconds : ℤ

def InitializeProtocolArgs.toBytes (args : InitializeProtocolArgs) : Except StructError Bytes := do
  let tierOne ← u64 args.tierOneStakeFloor
  let tierTwo ← u64 args.tierTwoStakeFloor
  let tierThree ← u64 args.tierThreeStakeFloor
  let verifier ← u64 args.verifierStakeFloor
  let window ← u32 args.minChallengeWindowSeconds
  pure (tierOne ++ tierTwo ++ tierThree ++ verifier ++ window)

/-- The arguments of `open_job_ix` behind the customer. -/
structure OpenJobArgs where
  nonce : ℤ
  inputBundleHash : Bytes
  expectedResultHash : Bytes
  rewardAmount : ℤ
  requiredStake : ℤ
  jobClass : ℤ
  requiredRole : ℤ
  requiredTier : ℤ
  requiredCapability : Bytes
  requiredDigest : Bytes
  claimWindowSeconds : ℤ
  executionWindowSeconds : ℤ
  challengeWindowSeconds : ℤ
  challengeBond : ℤ

section Derived
variable (find : FindProgramAddress)

/-- The ProgramData account of an upgradeable program. -/
def programDataPda (programId : Pubkey) : Pubkey :=
  find [programId.val] bpfLoaderUpgradeableProgramId

def configPda (programId : Pubkey) : Pubkey := find [utf8 "config".toList] programId

def workerPda (programId authority : Pubkey) : Pubkey :=
  find [utf8 "worker".toList,authority.val] programId

def jobPda (programId customer : Pubkey) (nonce : ℤ) : Except StructError Pubkey := do
  let seed ← u64 nonce
  pure (find [utf8 "job".toList,customer.val,seed] programId)

/-- `associated_token_address`, of a token program that was checked. -/
def associatedTokenAddress (mint owner tokenProgram : Pubkey) : Pubkey :=
  find [owner.val,tokenProgram.val,mint.val] associatedTokenProgramId

namespace ProtocolAddresses
variable (proto : ProtocolAddresses)

def configPda : Pubkey := Instructions.configPda find proto.programId

def workerPda (authority : Pubkey) : Pubkey := Instructions.workerPda find proto.programId authority

/-- `ata`. -/
def ata (owner : Pubkey) : Pubkey :=
  associatedTokenAddress find proto.paymentMint owner proto.tokenProgram

def jobEscrowVault (job : Pubkey) : Pubkey := proto.ata find job

end ProtocolAddresses

end Derived

section Builders
variable (find : FindProgramAddress) (proto : ProtocolAddresses)

def initializeProtocolIx (admin : Pubkey) (args : InitializeProtocolArgs) :
    Except StructError Instruction := do
  let bytes ← args.toBytes
  pure ⟨proto.programId,anchorIxDiscriminator "initialize_protocol" ++ bytes,
    [⟨admin,true,true⟩,⟨proto.configPda find,false,true⟩,⟨proto.paymentMint,false,false⟩,
      ⟨proto.tokenProgram,false,false⟩,⟨systemProgramId,false,false⟩,⟨proto.programId,false,false⟩,
      ⟨programDataPda find proto.programId,false,false⟩]⟩

def registerWorkerIx (authority : Pubkey) (role : ℤ) (capability digest : Bytes) :
    Except StructError Instruction := do
  let worker := proto.workerPda find authority
  let role ← u8 role
  pure ⟨proto.programId,
    anchorIxDiscriminator "register_worker" ++ role ++ capability ++ digest,
    [⟨authority,true,true⟩,⟨proto.configPda find,false,false⟩,⟨proto.paymentMint,false,false⟩,
      ⟨worker,false,true⟩,⟨proto.ata find worker,false,true⟩,⟨proto.tokenProgram,false,false⟩,
      ⟨associatedTokenProgramId,false,false⟩,⟨systemProgramId,false,false⟩]⟩

def depositWorkerStakeIx (authority : Pubkey) (amount : ℤ) : Except StructError Instruction := do
  let worker := proto.workerPda find authority
  let amount ← u64 amount
  pure ⟨proto.programId,anchorIxDiscriminator "deposit_worker_stake" ++ amount,
    [⟨authority,true,true⟩,⟨proto.configPda find,false,false⟩,⟨proto.paymentMint,false,false⟩,
      ⟨worker,false,false⟩,⟨proto.ata find worker,false,true⟩,⟨proto.ata find authority,false,true⟩,
      ⟨proto.tokenProgram,false,false⟩]⟩

def withdrawUnlockedStakeIx (authority : Pubkey) (amount : ℤ) : Except StructError Instruction := do
  let worker := proto.workerPda find authority
  let amount ← u64 amount
  pure ⟨proto.programId,anchorIxDiscriminator "withdraw_unlocked_stake" ++ amount,
    [⟨authority,true,true⟩,⟨proto.configPda find,false,false⟩,⟨proto.paymentMint,false,false⟩,
      ⟨worker,false,true⟩,⟨proto.ata find worker,false,true⟩,⟨proto.ata find authority,false,true⟩,
      ⟨proto.tokenProgram,false,false⟩]⟩

def openJobIx (customer : Pubkey) (args : OpenJobArgs) : Except StructError Instruction := do
  let job ← jobPda find proto.programId customer args.nonce
  let nonce ← u64 args.nonce
  let rewardAmount ← u64 args.rewardAmount
  let requiredStake ← u64 args.requiredStake
  let jobClass ← u8 args.jobClass
  let requiredRole ← u8 args.requiredRole
  let requiredTier ← u8 args.requiredTier
  let claimWindowSeconds ← u32 args.claimWindowSeconds
  let executionWindowSeconds ← u32 args.executionWindowSeconds
  let challengeWindowSeconds ← u32 args.challengeWindowSeconds
  let challengeBond ← u64 args.challengeBond
  pure ⟨proto.programId,
    anchorIxDiscriminator "open_job" ++ nonce ++ args.inputBundleHash ++
      args.expectedResultHash ++ rewardAmount ++ requiredStake ++ jobClass ++ requiredRole ++
      requiredTier ++ args.requiredCapability ++ args.requiredDigest ++
      claimWindowSeconds ++ executionWindowSeconds ++ challengeWindowSeconds ++ challengeBond,
    [⟨customer,true,true⟩,⟨proto.configPda find,false,false⟩,⟨proto.paymentMint,false,false⟩,
      ⟨job,false,true⟩,⟨proto.jobEscrowVault find job,false,true⟩,
      ⟨proto.ata find customer,false,true⟩,⟨proto.tokenProgram,false,false⟩,
      ⟨associatedTokenProgramId,false,false⟩,⟨systemProgramId,false,false⟩]⟩

def commitInputArtifactIx (programId customer job : Pubkey) (cid : String) :
    Except StructError Instruction := do
  let cid ← encodeString cid
  pure ⟨programId,anchorIxDiscriminator "commit_input_artifact" ++ cid,
    [⟨customer,true,true⟩,⟨job,false,true⟩]⟩

def claimJobIx (authority job : Pubkey) : Instruction :=
  let worker := proto.workerPda find authority
  ⟨proto.programId,anchorIxDiscriminator "claim_job",
    [⟨authority,true,true⟩,⟨proto.configPda find,false,false⟩,⟨proto.paymentMint,false,false⟩,
      ⟨worker,false,true⟩,⟨proto.ata find worker,false,true⟩,⟨job,false,true⟩,
      ⟨proto.tokenProgram,false,false⟩]⟩

def submitReceiptIx (programId authority job : Pubkey) (outputCid : String) (resultBytes : Bytes) :
    Except StructError Instruction := do
  let outputCid ← encodeString outputCid
  let result ← encodeVec resultBytes
  pure ⟨programId,anchorIxDiscriminator "submit_receipt" ++ outputCid ++ result,
    [⟨authority,true,true⟩,⟨workerPda find programId authority,false,true⟩,⟨job,false,true⟩]⟩

def submitVerifierAttestationIx (verifierAuthority job : Pubkey) (resultHash : Bytes)
    (evidenceCid : String) (softwareDigest : Bytes) : Except StructError Instruction := do
  let verifier := proto.workerPda find verifierAuthority
  let evidenceCid ← encodeString evidenceCid
  pure ⟨proto.programId,
    anchorIxDiscriminator "submit_verifier_attestation" ++ resultHash ++ evidenceCid ++
      softwareDigest,
    [⟨verifierAuthority,true,true⟩,⟨proto.configPda find,false,false⟩,
      ⟨proto.paymentMint,false,false⟩,⟨verifier,false,false⟩,⟨proto.ata find verifier,false,false⟩,
      ⟨job,false,true⟩,⟨proto.tokenProgram,false,false⟩]⟩

def recordAggregateVerificationRawIx (programId bonsolExecutionAccount marker aggregateJob : Pubkey)
    (executionId imageId inputDigest outputDigest journalHash forwardedPayload : Bytes) :
    Instruction :=
  ⟨programId,
    [1] ++ executionId ++ imageId ++ inputDigest ++ outputDigest ++ journalHash ++
      forwardedPayload,
    [⟨bonsolExecutionAccount,true,false⟩,⟨marker,false,true⟩,⟨aggregateJob,false,false⟩,
      ⟨systemProgramId,false,false⟩]⟩

/-- `_settlement_accounts`. -/
def settlementAccounts (caller jobKey : Pubkey) (job : JobAccount) (includeMarker : Option Pubkey) :
    List AccountMeta :=
  [⟨caller,true,true⟩,⟨proto.configPda find,false,false⟩,⟨proto.paymentMint,false,false⟩,
    ⟨jobKey,false,true⟩] ++
  includeMarker.toList.map (fun marker => ⟨marker,false,false⟩) ++
  [⟨proto.workerPda find job.worker,false,true⟩,⟨job.worker,false,false⟩,
    ⟨proto.jobEscrowVault find jobKey,false,true⟩,⟨proto.ata find job.worker,false,true⟩,
    ⟨proto.tokenProgram,false,false⟩]

def settleJobIx (caller jobKey : Pubkey) (job : JobAccount) : Instruction :=
  ⟨proto.programId,anchorIxDiscriminator "settle_job",
    settlementAccounts find proto caller jobKey job none⟩

def settleAggregateProofJobIx (caller jobKey : Pubkey) (job : JobAccount) (marker : Pubkey) :
    Instruction :=
  ⟨proto.programId,anchorIxDiscriminator "settle_aggregate_proof_job",
    settlementAccounts find proto caller jobKey job (some marker)⟩

def challengeJobIx (caller jobKey : Pubkey) (job : JobAccount) : Instruction :=
  let verifier := proto.workerPda find caller
  let worker := proto.workerPda find job.worker
  ⟨proto.programId,anchorIxDiscriminator "challenge_job",
    [⟨caller,true,true⟩,⟨proto.configPda find,false,false⟩,⟨proto.paymentMint,false,false⟩,
      ⟨verifier,false,true⟩,⟨proto.ata find verifier,false,true⟩,⟨jobKey,false,true⟩,
      ⟨worker,false,true⟩,⟨job.worker,false,false⟩,⟨proto.ata find worker,false,true⟩,
      ⟨proto.tokenProgram,false,false⟩]⟩

def refundSlashedJobEscrowIx (caller jobKey : Pubkey) (job : JobAccount) : Instruction :=
  ⟨proto.programId,anchorIxDiscriminator "refund_slashed_job_escrow",
    [⟨caller,true,true⟩,⟨proto.configPda find,false,false⟩,⟨proto.paymentMint,false,false⟩,
      ⟨jobKey,false,true⟩,⟨job.customer,false,false⟩,⟨proto.ata find job.customer,false,true⟩,
      ⟨proto.jobEscrowVault find jobKey,false,true⟩,⟨proto.tokenProgram,false,false⟩]⟩

def claimVerifierSlashRewardIx (caller jobKey : Pubkey) (job : JobAccount) : Instruction :=
  let worker := proto.workerPda find job.worker
  ⟨proto.programId,anchorIxDiscriminator "claim_verifier_slash_reward",
    [⟨caller,true,true⟩,⟨proto.configPda find,false,false⟩,⟨proto.paymentMint,false,false⟩,
      ⟨jobKey,false,true⟩,⟨job.challenger,false,false⟩,⟨proto.ata find job.challenger,false,true⟩,
      ⟨worker,false,true⟩,⟨job.worker,false,false⟩,⟨proto.ata find worker,false,true⟩,
      ⟨proto.tokenProgram,false,false⟩]⟩

def claimCustomerSlashCompensationIx (caller jobKey : Pubkey) (job : JobAccount) : Instruction :=
  let worker := proto.workerPda find job.worker
  ⟨proto.programId,anchorIxDiscriminator "claim_customer_slash_compensation",
    [⟨caller,true,true⟩,⟨proto.configPda find,false,false⟩,⟨proto.paymentMint,false,false⟩,
      ⟨jobKey,false,true⟩,⟨job.customer,false,false⟩,⟨proto.ata find job.customer,false,true⟩,
      ⟨worker,false,true⟩,⟨job.worker,false,false⟩,⟨proto.ata find worker,false,true⟩,
      ⟨proto.tokenProgram,false,false⟩]⟩

def assignVerifierIx (programId caller job verifier : Pubkey) : Instruction :=
  ⟨programId,anchorIxDiscriminator "assign_verifier" ++ verifier.val,
    [⟨caller,true,true⟩,⟨configPda find programId,false,false⟩,⟨job,false,true⟩]⟩

def reassignVerifierIx (programId caller job : Pubkey) : Instruction :=
  ⟨programId,anchorIxDiscriminator "reassign_verifier",[⟨caller,true,true⟩,⟨job,false,true⟩]⟩

def cancelAggregateProofJobIx (customer jobKey : Pubkey) (job : JobAccount) : Instruction :=
  ⟨proto.programId,anchorIxDiscriminator "cancel_aggregate_proof_job",
    [⟨customer,true,true⟩,⟨proto.configPda find,false,false⟩,⟨proto.paymentMint,false,false⟩,
      ⟨jobKey,false,true⟩,⟨proto.jobEscrowVault find jobKey,false,true⟩,
      ⟨proto.ata find customer,false,true⟩,⟨proto.tokenProgram,false,false⟩,
      ⟨proto.workerPda find job.worker,false,true⟩,⟨job.worker,false,false⟩]⟩

def cancelOpenJobIx (customer jobKey : Pubkey) : Instruction :=
  ⟨proto.programId,anchorIxDiscriminator "cancel_open_job",
    [⟨customer,true,true⟩,⟨proto.configPda find,false,false⟩,⟨proto.paymentMint,false,false⟩,
      ⟨jobKey,false,true⟩,⟨proto.jobEscrowVault find jobKey,false,true⟩,
      ⟨proto.ata find customer,false,true⟩,⟨proto.tokenProgram,false,false⟩]⟩

def slashStaleJobIx (caller jobKey : Pubkey) (job : JobAccount) : Instruction :=
  let worker := proto.workerPda find job.worker
  ⟨proto.programId,anchorIxDiscriminator "slash_stale_job",
    [⟨caller,true,true⟩,⟨proto.configPda find,false,false⟩,⟨proto.paymentMint,false,false⟩,
      ⟨jobKey,false,true⟩,⟨job.customer,false,false⟩,⟨proto.ata find job.customer,false,true⟩,
      ⟨worker,false,true⟩,⟨job.worker,false,false⟩,⟨proto.ata find worker,false,true⟩,
      ⟨proto.jobEscrowVault find jobKey,false,true⟩,⟨proto.tokenProgram,false,false⟩]⟩

end Builders

end Kswarm.Instructions
