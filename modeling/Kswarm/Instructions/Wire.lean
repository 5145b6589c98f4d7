import Kswarm.Instructions.Builders
import Kswarm.Lib.Wire

/-! What the program reads in the data of an instruction: which call it is, by its first bytes, and
the arguments behind them in Borsh order. The builders write exactly the data that is read back as
the call they were given. -/
namespace Kswarm.Instructions
open Accounts (JobAccount)

inductive Kind where
  | initializeProtocol
  | registerWorker
  | depositWorkerStake
  | withdrawUnlockedStake
  | openJob
  | commitInputArtifact
  | claimJob
  | submitReceipt
  | submitVerifierAttestation
  | recordAggregateVerificationRaw
  | settleJob
  | settleAggregateProofJob
  | challengeJob
  | refundSlashedJobEscrow
  | claimVerifierSlashReward
  | claimCustomerSlashCompensation
  | assignVerifier
  | reassignVerifier
  | cancelAggregateProofJob
  | cancelOpenJob
  | slashStaleJob
  deriving DecidableEq

namespace Kind

/-- The arguments of a call. -/
def Args : Kind → Type
  | initializeProtocol => InitializeProtocolArgs
  | registerWorker => ℤ × Bytes × Bytes
  | depositWorkerStake | withdrawUnlockedStake => ℤ
  | openJob => OpenJobArgs
  | commitInputArtifact => String
  | submitReceipt => String × Bytes
  | submitVerifierAttestation => Bytes × String × Bytes
  | recordAggregateVerificationRaw => (Bytes × Bytes × Bytes × Bytes × Bytes) × Bytes
  | assignVerifier => Pubkey
  | _ => Unit

/-- The name behind the discriminator; the raw callback has a single byte instead. -/
def name : Kind → Option String
  | initializeProtocol => some "initialize_protocol"
  | registerWorker => some "register_worker"
  | depositWorkerStake => some "deposit_worker_stake"
  | withdrawUnlockedStake => some "withdraw_unlocked_stake"
  | openJob => some "open_job"
  | commitInputArtifact => some "commit_input_artifact"
  | claimJob => some "claim_job"
  | submitReceipt => some "submit_receipt"
  | submitVerifierAttestation => some "submit_verifier_attestation"
  | recordAggregateVerificationRaw => none
  | settleJob => some "settle_job"
  | settleAggregateProofJob => some "settle_aggregate_proof_job"
  | challengeJob => some "challenge_job"
  | refundSlashedJobEscrow => some "refund_slashed_job_escrow"
  | claimVerifierSlashReward => some "claim_verifier_slash_reward"
  | claimCustomerSlashCompensation => some "claim_customer_slash_compensation"
  | assignVerifier => some "assign_verifier"
  | reassignVerifier => some "reassign_verifier"
  | cancelAggregateProofJob => some "cancel_aggregate_proof_job"
  | cancelOpenJob => some "cancel_open_job"
  | slashStaleJob => some "slash_stale_job"

/-- The first bytes of a call. -/
def tag (k : Kind) : Bytes := k.name.elim [1] anchorIxDiscriminator

/-- The tags, evaluated. -/
def tagBytes : Kind → Bytes
  | initializeProtocol => [0xbc,0xe9,0xfc,0x6a,0x86,0x92,0xca,0x5b]
  | registerWorker => [0x16,0xfd,0x17,0xe1,0xe6,0x1f,0x06,0xc0]
  | depositWorkerStake => [0x3b,0x80,0x3f,0x93,0x2d,0x52,0x50,0x44]
  | withdrawUnlockedStake => [0x77,0x44,0x26,0x9c,0x2e,0xa7,0xa4,0xb3]
  | openJob => [0xa3,0xcc,0x62,0x8c,0xb0,0x96,0x37,0x7b]
  | commitInputArtifact => [0x95,0x48,0x04,0xc4,0x06,0x8f,0x35,0xf8]
  | claimJob => [0x09,0xa0,0x05,0xe7,0x74,0x7b,0xc6,0x0e]
  | submitReceipt => [0xac,0x54,0x77,0x23,0xc3,0x9a,0xd6,0xb0]
  | submitVerifierAttestation => [0xe0,0xd0,0xa1,0xb9,0x87,0x3d,0x56,0x06]
  | recordAggregateVerificationRaw => [0x01]
  | settleJob => [0xf6,0x9b,0xdd,0x22,0xa8,0x46,0xad,0x48]
  | settleAggregateProofJob => [0x87,0x04,0x3a,0x4f,0x4d,0xe5,0xe1,0xaa]
  | challengeJob => [0x1c,0x49,0x1a,0x24,0x5d,0x45,0xd5,0xfd]
  | refundSlashedJobEscrow => [0x06,0x5e,0x6e,0xa0,0xc6,0x4a,0xf9,0x63]
  | claimVerifierSlashReward => [0xe4,0x19,0xe3,0xe1,0xf1,0x4a,0x67,0xcc]
  | claimCustomerSlashCompensation => [0x1c,0x9a,0xf5,0x60,0xc5,0xe4,0x05,0x57]
  | assignVerifier => [0x6c,0x5f,0xf6,0x32,0x05,0xa5,0xd6,0x0d]
  | reassignVerifier => [0x09,0x38,0x2c,0xbc,0x02,0x4a,0x7a,0x65]
  | cancelAggregateProofJob => [0x4f,0x76,0xdd,0x52,0x70,0x10,0x3b,0x33]
  | cancelOpenJob => [0x0c,0x5f,0x16,0x47,0x9a,0x5d,0x1c,0x38]
  | slashStaleJob => [0x0e,0xeb,0x1e,0xa1,0x79,0x23,0x37,0x3e]

lemma tag_eq (k : Kind) : k.tag = k.tagBytes := by
  cases k <;> decide +kernel

def all : List Kind := [initializeProtocol,registerWorker,depositWorkerStake,withdrawUnlockedStake,
  openJob,commitInputArtifact,claimJob,submitReceipt,submitVerifierAttestation,
  recordAggregateVerificationRaw,settleJob,settleAggregateProofJob,challengeJob,
  refundSlashedJobEscrow,claimVerifierSlashReward,claimCustomerSlashCompensation,assignVerifier,
  reassignVerifier,cancelAggregateProofJob,cancelOpenJob,slashStaleJob]

lemma mem_all (k : Kind) : k ∈ all := by
  cases k <;> decide

/-- No call is mistaken for another one, the raw callback included. -/
lemma tag_prefix_free : ∀ k l : Kind, k.tag <+: l.tag → k = l := by
  have h : ∀ k ∈ all, ∀ l ∈ all, k.tagBytes.isPrefixOf l.tagBytes = true → k = l := by decide
  intro k l hkl
  rw [tag_eq,tag_eq] at hkl
  exact h k (mem_all k) l (mem_all l) (List.isPrefixOf_iff_prefix.mpr hkl)

end Kind

section Formats
open Kswarm.Wire

def hash : Kswarm.Wire Bytes := bytes 32

def initializeProtocolWire : Kswarm.Wire InitializeProtocolArgs :=
  (pair (int 8) (pair (int 8) (pair (int 8) (pair (int 8) (int 4))))).ofEquiv {
    toFun := fun (one,two,three,verifier,window) => ⟨one,two,three,verifier,window⟩
    invFun := fun args => (args.tierOneStakeFloor,args.tierTwoStakeFloor,args.tierThreeStakeFloor,
      args.verifierStakeFloor,args.minChallengeWindowSeconds)
    left_inv := fun _ => rfl
    right_inv := fun _ => rfl }

def openJobWire : Kswarm.Wire OpenJobArgs :=
  (pair (int 8) (pair hash (pair hash (pair (int 8) (pair (int 8) (pair (int 1) (pair (int 1)
    (pair (int 1) (pair hash (pair hash (pair (int 4) (pair (int 4) (pair (int 4)
    (int 8)))))))))))))).ofEquiv {
    toFun := fun (nonce,input,expected,reward,stake,jobClass,role,tier,capability,software,claim,
      execution,challenge,bond) => ⟨nonce,input,expected,reward,stake,jobClass,role,tier,capability,
        software,claim,execution,challenge,bond⟩
    invFun := fun args => (args.nonce,args.inputBundleHash,args.expectedResultHash,
      args.rewardAmount,args.requiredStake,args.jobClass,args.requiredRole,args.requiredTier,
      args.requiredCapability,args.requiredDigest,args.claimWindowSeconds,
      args.executionWindowSeconds,args.challengeWindowSeconds,args.challengeBond)
    left_inv := fun _ => rfl
    right_inv := fun _ => rfl }

/-- The numbers of `open_job` fit their fields. -/
def OpenJobArgs.Packs (args : OpenJobArgs) : Prop :=
  (int 8).Fits args.nonce ∧ (int 8).Fits args.rewardAmount ∧ (int 8).Fits args.requiredStake ∧
    (int 1).Fits args.jobClass ∧ (int 1).Fits args.requiredRole ∧ (int 1).Fits args.requiredTier ∧
    (int 4).Fits args.claimWindowSeconds ∧ (int 4).Fits args.executionWindowSeconds ∧
    (int 4).Fits args.challengeWindowSeconds ∧ (int 8).Fits args.challengeBond

def OpenJobArgs.Hashed (args : OpenJobArgs) : Prop :=
  hash.Fits args.inputBundleHash ∧ hash.Fits args.expectedResultHash ∧
    hash.Fits args.requiredCapability ∧ hash.Fits args.requiredDigest

lemma OpenJobArgs.fits_iff (args : OpenJobArgs) :
    openJobWire.Fits args ↔ args.Packs ∧ args.Hashed := by
  constructor
  · rintro ⟨hnonce,hinput,hexpected,hreward,hstake,hclass,hrole,htier,hcapability,hdigest,hclaim,
      hexecution,hchallenge,hbond⟩
    exact ⟨⟨hnonce,hreward,hstake,hclass,hrole,htier,hclaim,hexecution,hchallenge,hbond⟩,hinput,
      hexpected,hcapability,hdigest⟩
  · rintro ⟨⟨hnonce,hreward,hstake,hclass,hrole,htier,hclaim,hexecution,hchallenge,hbond⟩,hinput,
      hexpected,hcapability,hdigest⟩
    exact ⟨hnonce,hinput,hexpected,hreward,hstake,hclass,hrole,htier,hcapability,hdigest,hclaim,
      hexecution,hchallenge,hbond⟩

/-- The arguments of a call, in the order the program declares them. -/
def Kind.format : (k : Kind) → Format k.Args
  | .initializeProtocol => initializeProtocolWire.whole
  | .registerWorker => (pair (int 1) (pair hash hash)).whole
  | .depositWorkerStake => (int 8).whole
  | .withdrawUnlockedStake => (int 8).whole
  | .openJob => openJobWire.whole
  | .commitInputArtifact => text.whole
  | .submitReceipt => (pair text vec).whole
  | .submitVerifierAttestation => (pair hash (pair text hash)).whole
  | .recordAggregateVerificationRaw =>
    (pair hash (pair hash (pair hash (pair hash hash)))).andRest
  | .assignVerifier => (block 32).whole
  | .claimJob => unit.whole
  | .settleJob => unit.whole
  | .settleAggregateProofJob => unit.whole
  | .challengeJob => unit.whole
  | .refundSlashedJobEscrow => unit.whole
  | .claimVerifierSlashReward => unit.whole
  | .claimCustomerSlashCompensation => unit.whole
  | .reassignVerifier => unit.whole
  | .cancelAggregateProofJob => unit.whole
  | .cancelOpenJob => unit.whole
  | .slashStaleJob => unit.whole

end Formats

/-- A call of the program: its kind and the arguments in its data. -/
abbrev Call := Σ k : Kind, k.Args

/-- The calls, as the program reads them. -/
def calls : Format Call := .tagged Kind.all Kind.mem_all Kind.tag Kind.tag_prefix_free Kind.format

section Calls
open Kswarm.Wire

/-- The numbers of a call fit their fields, and the lengths theirs. -/
def Call.Packs : Call → Prop
  | ⟨.initializeProtocol,args⟩ => initializeProtocolWire.Fits args
  | ⟨.registerWorker,role,_,_⟩ => (int 1).Fits role
  | ⟨.depositWorkerStake,amount⟩ => (int 8).Fits amount
  | ⟨.withdrawUnlockedStake,amount⟩ => (int 8).Fits amount
  | ⟨.openJob,args⟩ => args.Packs
  | ⟨.commitInputArtifact,cid⟩ => text.Fits cid
  | ⟨.submitReceipt,outputCid,resultBytes⟩ => text.Fits outputCid ∧ vec.Fits resultBytes
  | ⟨.submitVerifierAttestation,_,evidenceCid,_⟩ => text.Fits evidenceCid
  | _ => True

/-- The hashes of a call have 32 bytes each, which no builder checks. -/
def Call.Hashed : Call → Prop
  | ⟨.registerWorker,_,capability,digest⟩ => hash.Fits capability ∧ hash.Fits digest
  | ⟨.openJob,args⟩ => args.Hashed
  | ⟨.submitVerifierAttestation,resultHash,_,softwareDigest⟩ =>
    hash.Fits resultHash ∧ hash.Fits softwareDigest
  | ⟨.recordAggregateVerificationRaw,(execution,image,input,output,journal),_⟩ =>
    hash.Fits execution ∧ hash.Fits image ∧ hash.Fits input ∧ hash.Fits output ∧ hash.Fits journal
  | _ => True

/-- The program reads the calls that do both. -/
lemma calls_fits_iff (c : Call) : calls.Fits c ↔ c.Packs ∧ c.Hashed := by
  obtain ⟨k,args⟩ := c
  cases k with
  | initializeProtocol | depositWorkerStake | withdrawUnlockedStake | commitInputArtifact
  | submitReceipt => exact (and_iff_left trivial).symm
  | registerWorker => exact Iff.rfl
  | openJob => exact args.fits_iff
  | submitVerifierAttestation =>
    obtain ⟨resultHash,evidenceCid,software⟩ := args
    exact and_left_comm
  | recordAggregateVerificationRaw => exact (and_iff_right trivial).symm
  | claimJob | settleJob | settleAggregateProofJob | challengeJob | refundSlashedJobEscrow
  | claimVerifierSlashReward | claimCustomerSlashCompensation | assignVerifier | reassignVerifier
  | cancelAggregateProofJob | cancelOpenJob | slashStaleJob => exact (and_iff_left trivial).symm

end Calls

/-- The keys a builder takes beside the arguments of the call. -/
structure Parties where
  signer : Pubkey
  jobKey : Pubkey
  job : JobAccount
  marker : Pubkey

/-- The builder of a call. -/
def Call.build (find : FindProgramAddress) (proto : ProtocolAddresses) (p : Parties) :
    Call → Except StructError Instruction
  | ⟨.initializeProtocol,args⟩ => initializeProtocolIx find proto p.signer args
  | ⟨.registerWorker,role,capability,digest⟩ =>
    registerWorkerIx find proto p.signer role capability digest
  | ⟨.depositWorkerStake,amount⟩ => depositWorkerStakeIx find proto p.signer amount
  | ⟨.withdrawUnlockedStake,amount⟩ => withdrawUnlockedStakeIx find proto p.signer amount
  | ⟨.openJob,args⟩ => openJobIx find proto p.signer args
  | ⟨.commitInputArtifact,cid⟩ => commitInputArtifactIx proto.programId p.signer p.jobKey cid
  | ⟨.claimJob,_⟩ => .ok (claimJobIx find proto p.signer p.jobKey)
  | ⟨.submitReceipt,outputCid,resultBytes⟩ =>
    submitReceiptIx find proto.programId p.signer p.jobKey outputCid resultBytes
  | ⟨.submitVerifierAttestation,resultHash,evidenceCid,softwareDigest⟩ =>
    submitVerifierAttestationIx find proto p.signer p.jobKey resultHash evidenceCid softwareDigest
  | ⟨.recordAggregateVerificationRaw,(execution,image,input,output,journal),forwarded⟩ =>
    .ok (recordAggregateVerificationRawIx proto.programId p.signer p.marker p.jobKey execution image
      input output journal forwarded)
  | ⟨.settleJob,_⟩ => .ok (settleJobIx find proto p.signer p.jobKey p.job)
  | ⟨.settleAggregateProofJob,_⟩ =>
    .ok (settleAggregateProofJobIx find proto p.signer p.jobKey p.job p.marker)
  | ⟨.challengeJob,_⟩ => .ok (challengeJobIx find proto p.signer p.jobKey p.job)
  | ⟨.refundSlashedJobEscrow,_⟩ => .ok (refundSlashedJobEscrowIx find proto p.signer p.jobKey p.job)
  | ⟨.claimVerifierSlashReward,_⟩ =>
    .ok (claimVerifierSlashRewardIx find proto p.signer p.jobKey p.job)
  | ⟨.claimCustomerSlashCompensation,_⟩ =>
    .ok (claimCustomerSlashCompensationIx find proto p.signer p.jobKey p.job)
  | ⟨.assignVerifier,verifier⟩ =>
    .ok (assignVerifierIx find proto.programId p.signer p.jobKey verifier)
  | ⟨.reassignVerifier,_⟩ => .ok (reassignVerifierIx proto.programId p.signer p.jobKey)
  | ⟨.cancelAggregateProofJob,_⟩ =>
    .ok (cancelAggregateProofJobIx find proto p.signer p.jobKey p.job)
  | ⟨.cancelOpenJob,_⟩ => .ok (cancelOpenJobIx find proto p.signer p.jobKey)
  | ⟨.slashStaleJob,_⟩ => .ok (slashStaleJobIx find proto p.signer p.jobKey p.job)

/-- The keys that sign an instruction. -/
def Instruction.signers (ix : Instruction) : List Pubkey :=
  (ix.accounts.filter AccountMeta.isSigner).map AccountMeta.pubkey

section Packing

lemma pack_eq_ok {w : ℕ} {value : ℤ} {b : Bytes} :
    pack w value = .ok b ↔ (Wire.int w).Fits value ∧ b = (Wire.int w).write value := by
  simp only [pack,bind_eq_ok,failIf_eq_ok,pure_eq_ok,not_not,exists_const]
  constructor
  · rintro ⟨hfits,rfl⟩
    exact ⟨hfits,rfl⟩
  · rintro ⟨hfits,rfl⟩
    exact ⟨hfits,rfl⟩

lemma encodeVec_eq_ok {data b : Bytes} :
    encodeVec data = .ok b ↔ Wire.vec.Fits data ∧ b = Wire.vec.write data := by
  simp only [encodeVec,bind_eq_ok,u32,pack_eq_ok,pure_eq_ok]
  constructor
  · rintro ⟨_,⟨⟨-,hlt⟩,rfl⟩,rfl⟩
    have hsized : Sized data.length := by exact_mod_cast hlt
    refine ⟨hsized,?_⟩
    change _ = borshVec data
    rw [borshVec,borshU32,UInt32.toNat_ofNat_of_lt' hsized]
    rfl
  · rintro ⟨hsized,rfl⟩
    refine ⟨_,⟨⟨Int.natCast_nonneg _,by exact_mod_cast hsized⟩,rfl⟩,?_⟩
    change _ = borshVec data
    rw [borshVec,borshU32,UInt32.toNat_ofNat_of_lt' hsized]
    rfl

lemma encodeString_eq_ok {value : String} {b : Bytes} :
    encodeString value = .ok b ↔ Wire.text.Fits value ∧ b = Wire.text.write value :=
  encodeVec_eq_ok

end Packing

section Exact
variable {programId signer : Pubkey}

/-- A builder that succeeds exactly on what fits, and then writes `code` for the program, with one
signer. -/
structure Writes (programId signer : Pubkey) (x : Except StructError Instruction) (fits : Prop)
    (code : Bytes) : Prop where
  builds : fits → ∃ ix, x = .ok ix
  only : ∀ ix, x = .ok ix → fits ∧ ix.data = code ∧ ix.programId = programId ∧ ix.signers = [signer]

lemma Writes.done {data : Bytes} {accounts : List AccountMeta}
    (hsigners : (accounts.filter AccountMeta.isSigner).map AccountMeta.pubkey = [signer]) :
    Writes programId signer (.ok ⟨programId,data,accounts⟩) True data where
  builds _ := ⟨_,rfl⟩
  only := by
    intro ix hix
    obtain rfl := Except.ok.inj hix
    exact ⟨trivial,rfl,rfl,hsigners⟩

/-- One packed argument. -/
lemma Writes.bind {x : Except StructError Bytes} {f : Bytes → Except StructError Instruction}
    {fits fits' : Prop} {b code : Bytes} (hx : ∀ c, x = .ok c ↔ fits ∧ c = b)
    (h : Writes programId signer (f b) fits' code) :
    Writes programId signer (x >>= f) (fits ∧ fits') code where
  builds := by
    rintro ⟨hfits,hrest⟩
    obtain ⟨ix,hix⟩ := h.builds hrest
    exact ⟨ix,bind_eq_ok.mpr ⟨b,(hx b).mpr ⟨hfits,rfl⟩,hix⟩⟩
  only := by
    intro ix hix
    obtain ⟨c,hc,hix⟩ := bind_eq_ok.mp hix
    obtain ⟨hfits,rfl⟩ := (hx c).mp hc
    obtain ⟨hrest,hdata⟩ := h.only ix hix
    exact ⟨⟨hfits,hrest⟩,hdata⟩

lemma Writes.congr {x : Except StructError Instruction} {fits fits' : Prop} {code code' : Bytes}
    (h : Writes programId signer x fits code) (hfits : fits ↔ fits') (hcode : code = code') :
    Writes programId signer x fits' code' := by
  subst hcode
  refine ⟨fun hf => h.builds (hfits.mpr hf),fun ix hix => ?_⟩
  obtain ⟨hf,hdata⟩ := h.only ix hix
  exact ⟨hfits.mp hf,hdata⟩

lemma Writes.exact {x : Except StructError Instruction} {fits : Prop} {code data : Bytes}
    (h : Writes programId signer x fits code) :
    fits ∧ data = code ↔
      ∃ ix, x = .ok ix ∧ ix.data = data ∧ ix.programId = programId ∧ ix.signers = [signer] := by
  constructor
  · rintro ⟨hfits,rfl⟩
    obtain ⟨ix,hix⟩ := h.builds hfits
    obtain ⟨-,hdata⟩ := h.only ix hix
    exact ⟨ix,hix,hdata⟩
  · rintro ⟨ix,hix,rfl,-,-⟩
    obtain ⟨hfits,hdata,-,-⟩ := h.only ix hix
    exact ⟨hfits,hdata⟩

lemma Writes.builds_iff {x : Except StructError Instruction} {fits : Prop} {code : Bytes}
    (h : Writes programId signer x fits code) : (∃ ix, x = .ok ix) ↔ fits := by
  constructor
  · rintro ⟨ix,hix⟩
    exact (h.only ix hix).1
  · exact h.builds

variable (find : FindProgramAddress) (proto : ProtocolAddresses) (p : Parties)

lemma writes_pack (w : ℕ) (value : ℤ) (c : Bytes) :
    pack w value = .ok c ↔ (Wire.int w).Fits value ∧ c = (Wire.int w).write value := pack_eq_ok

lemma toBytes_eq_ok {args : InitializeProtocolArgs} (c : Bytes) :
    args.toBytes = .ok c ↔ initializeProtocolWire.Fits args ∧
      c = initializeProtocolWire.write args := by
  simp only [InitializeProtocolArgs.toBytes,u64,u32,bind_eq_ok,pack_eq_ok,pure_eq_ok]
  constructor
  · rintro ⟨_,⟨hone,rfl⟩,_,⟨htwo,rfl⟩,_,⟨hthree,rfl⟩,_,⟨hverifier,rfl⟩,_,⟨hwindow,rfl⟩,rfl⟩
    refine ⟨⟨hone,htwo,hthree,hverifier,hwindow⟩,?_⟩
    simp only [List.append_assoc]
    rfl
  · rintro ⟨⟨hone,htwo,hthree,hverifier,hwindow⟩,rfl⟩
    refine ⟨_,⟨hone,rfl⟩,_,⟨htwo,rfl⟩,_,⟨hthree,rfl⟩,_,⟨hverifier,rfl⟩,_,⟨hwindow,rfl⟩,?_⟩
    simp only [List.append_assoc]
    rfl

lemma writes_openJob (args : OpenJobArgs) :
    Writes proto.programId p.signer (openJobIx find proto p.signer args) args.Packs
      (Kind.openJob.tag ++ openJobWire.write args) := by
  unfold openJobIx jobPda
  simp only [bind_assoc,pure_bind]
  refine Writes.congr (Writes.bind (writes_pack _ _) (Writes.bind (writes_pack _ _)
    (Writes.bind (writes_pack _ _) (Writes.bind (writes_pack _ _) (Writes.bind (writes_pack _ _)
    (Writes.bind (writes_pack _ _) (Writes.bind (writes_pack _ _) (Writes.bind (writes_pack _ _)
    (Writes.bind (writes_pack _ _) (Writes.bind (writes_pack _ _) (Writes.bind (writes_pack _ _)
    (Writes.done (by rfl))))))))))))) ?_ ?_
  · constructor
    · rintro ⟨-,hnonce,hreward,hstake,hclass,hrole,htier,hclaim,hexecution,hchallenge,hbond,-⟩
      exact ⟨hnonce,hreward,hstake,hclass,hrole,htier,hclaim,hexecution,hchallenge,hbond⟩
    · rintro ⟨hnonce,hreward,hstake,hclass,hrole,htier,hclaim,hexecution,hchallenge,hbond⟩
      exact ⟨hnonce,hnonce,hreward,hstake,hclass,hrole,htier,hclaim,hexecution,hchallenge,hbond,
        trivial⟩
  · simp only [List.append_assoc]
    rfl

/-- Every builder writes the call it was given. -/
lemma writes_call (c : Call) : Writes proto.programId p.signer (c.build find proto p)
    c.Packs (calls.write c) := by
  obtain ⟨k,args⟩ := c
  cases k with
  | initializeProtocol =>
    refine Writes.congr (Writes.bind toBytes_eq_ok (Writes.done (by rfl))) ?_ rfl
    exact and_iff_left trivial
  | registerWorker =>
    obtain ⟨role,capability,software⟩ := args
    refine Writes.congr (Writes.bind (writes_pack _ _) (Writes.done (by rfl))) ?_ ?_
    · exact and_iff_left trivial
    · simp only [List.append_assoc]
      rfl
  | depositWorkerStake | withdrawUnlockedStake =>
    refine Writes.congr (Writes.bind (writes_pack _ _) (Writes.done (by rfl))) ?_ rfl
    exact and_iff_left trivial
  | openJob => exact writes_openJob find proto p args
  | commitInputArtifact =>
    refine Writes.congr (Writes.bind (fun _ => encodeString_eq_ok) (Writes.done (by rfl))) ?_ rfl
    exact and_iff_left trivial
  | submitReceipt =>
    obtain ⟨outputCid,resultBytes⟩ := args
    refine Writes.congr (Writes.bind (fun _ => encodeString_eq_ok)
      (Writes.bind (fun _ => encodeVec_eq_ok) (Writes.done (by rfl)))) ?_ ?_
    · exact ⟨fun h => ⟨h.1,h.2.1⟩,fun h => ⟨h.1,h.2,trivial⟩⟩
    · simp only [List.append_assoc]
      rfl
  | submitVerifierAttestation =>
    obtain ⟨resultHash,evidenceCid,software⟩ := args
    refine Writes.congr (Writes.bind (fun _ => encodeString_eq_ok) (Writes.done (by rfl))) ?_ ?_
    · exact and_iff_left trivial
    · simp only [List.append_assoc]
      rfl
  | recordAggregateVerificationRaw =>
    obtain ⟨⟨execution,image,input,output,journal⟩,forwarded⟩ := args
    refine Writes.congr (Writes.done (by rfl)) Iff.rfl ?_
    change _ = [1] ++ ((execution ++ (image ++ (input ++ (output ++ journal)))) ++ forwarded)
    simp only [List.append_assoc]
  | assignVerifier => exact Writes.done (by rfl)
  | claimJob | settleJob | settleAggregateProofJob | challengeJob | refundSlashedJobEscrow
  | claimVerifierSlashReward | claimCustomerSlashCompensation | reassignVerifier
  | cancelAggregateProofJob | cancelOpenJob | slashStaleJob =>
    exact Writes.congr (Writes.done (by rfl)) Iff.rfl (List.append_nil _).symm

/-- A builder raises exactly when a number or a length of its call does not fit; and the data of an
instruction is read as a call exactly when the hashes of that call have 32 bytes and its builder
writes these data, for the protocol's program and with one signer. So two calls with such hashes
never share their data. -/
theorem instruction_data_exact (find : FindProgramAddress) (proto : ProtocolAddresses)
    (p : Parties) (c : Call) :
    ((∃ ix, c.build find proto p = .ok ix) ↔ c.Packs) ∧
    ∀ data, calls.read data = some c ↔ c.Hashed ∧
      ∃ ix, c.build find proto p = .ok ix ∧ ix.data = data ∧ ix.programId = proto.programId ∧
        ix.signers = [p.signer] := by
  have hwrites := writes_call find proto p c
  refine ⟨hwrites.builds_iff,fun data => ?_⟩
  rw [calls.read_eq_some_iff,calls_fits_iff,and_comm (a := c.Packs),and_assoc,hwrites.exact]

end Exact

end Kswarm.Instructions
