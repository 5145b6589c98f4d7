import Kswarm.Instructions.Builders
import Kswarm.Settlement.Watcher

/-! The instruction builders of the JavaScript client (`protocol.mjs`) and the transactions the
watcher builds with them (`run-watcher.mjs`), against the builders of the command line. Token accounts
are derived by the token library, for an owner on the curve only, unless it is told otherwise. -/
namespace Kswarm.Instructions
open Accounts (JobAccount)
open Watcher (transactionFor)

namespace Js

inductive JsError where
  | unsupportedTokenProgram (tokenProgram : Pubkey)
  | tokenOwnerOffCurve
  | rangeError
  deriving DecidableEq

/-- `PROGRAM_ID`. -/
def programId : Pubkey := natKey (base58Value "ERNzRcYhX6UYboXAAP7vwzbCKsULYu21R4RFNvDD8CkM".toList)

def requireTokenProgramId (value : Pubkey) : Except JsError Pubkey := do
  failIf (¬KnownTokenProgram value) (.unsupportedTokenProgram value)
  pure value

def u64LE (value : ℤ) : Except JsError Bytes := do
  failIf (¬(0 ≤ value ∧ value < 256^8)) .rangeError
  pure (leBytes 8 value.toNat)

section Addresses

/-- `getAssociatedTokenAddressSync` of the token library: mint, owner, whether the owner may be off
the curve, and the token program. -/
abbrev GetTokenAddress := Pubkey → Pubkey → Bool → Pubkey → Except JsError Pubkey

/-- What the library documents: it derives the address, and refuses an owner off the curve unless it
is told otherwise. -/
def GetTokenAddress.Derives (get : GetTokenAddress) (find : FindProgramAddress)
    (onCurve : Pubkey → Bool) : Prop :=
  ∀ mint owner allowOwnerOffCurve tokenProgram, get mint owner allowOwnerOffCurve tokenProgram =
    if allowOwnerOffCurve = false ∧ onCurve owner = false then .error .tokenOwnerOffCurve
    else .ok (associatedTokenAddress find mint owner tokenProgram)

variable (get : GetTokenAddress)

def tokenAta (mint owner : Pubkey) (allowOwnerOffCurve : Bool) (tokenProgramId : Pubkey) :
    Except JsError Pubkey := do
  let tokenProgramId ← requireTokenProgramId tokenProgramId
  get mint owner allowOwnerOffCurve tokenProgramId

end Addresses

section Builders

def settleJobIx (caller config paymentMint tokenProgramId job worker workerAuthority jobEscrowVault
    workerPaymentAccount : Pubkey) : Except JsError Instruction := do
  let tokenProgramId ← requireTokenProgramId tokenProgramId
  pure ⟨programId,anchorIxDiscriminator "settle_job",
    [⟨caller,true,true⟩,⟨config,false,false⟩,⟨paymentMint,false,false⟩,⟨job,false,true⟩,
      ⟨worker,false,true⟩,⟨workerAuthority,false,false⟩,⟨jobEscrowVault,false,true⟩,
      ⟨workerPaymentAccount,false,true⟩,⟨tokenProgramId,false,false⟩]⟩

def refundSlashedJobEscrowIx (caller config paymentMint tokenProgramId job customerAuthority
    customerPaymentAccount jobEscrowVault : Pubkey) : Except JsError Instruction := do
  let tokenProgramId ← requireTokenProgramId tokenProgramId
  pure ⟨programId,anchorIxDiscriminator "refund_slashed_job_escrow",
    [⟨caller,true,true⟩,⟨config,false,false⟩,⟨paymentMint,false,false⟩,⟨job,false,true⟩,
      ⟨customerAuthority,false,false⟩,⟨customerPaymentAccount,false,true⟩,
      ⟨jobEscrowVault,false,true⟩,⟨tokenProgramId,false,false⟩]⟩

def claimVerifierSlashRewardIx (caller config paymentMint tokenProgramId job verifierAuthority
    verifierRewardAccount worker workerAuthority workerStakeVault : Pubkey) :
    Except JsError Instruction := do
  let tokenProgramId ← requireTokenProgramId tokenProgramId
  pure ⟨programId,anchorIxDiscriminator "claim_verifier_slash_reward",
    [⟨caller,true,true⟩,⟨config,false,false⟩,⟨paymentMint,false,false⟩,⟨job,false,true⟩,
      ⟨verifierAuthority,false,false⟩,⟨verifierRewardAccount,false,true⟩,⟨worker,false,true⟩,
      ⟨workerAuthority,false,false⟩,⟨workerStakeVault,false,true⟩,⟨tokenProgramId,false,false⟩]⟩

def claimCustomerSlashCompensationIx (caller config paymentMint tokenProgramId job customerAuthority
    customerPaymentAccount worker workerAuthority workerStakeVault : Pubkey) :
    Except JsError Instruction := do
  let tokenProgramId ← requireTokenProgramId tokenProgramId
  pure ⟨programId,anchorIxDiscriminator "claim_customer_slash_compensation",
    [⟨caller,true,true⟩,⟨config,false,false⟩,⟨paymentMint,false,false⟩,⟨job,false,true⟩,
      ⟨customerAuthority,false,false⟩,⟨customerPaymentAccount,false,true⟩,⟨worker,false,true⟩,
      ⟨workerAuthority,false,false⟩,⟨workerStakeVault,false,true⟩,⟨tokenProgramId,false,false⟩]⟩

def withdrawUnlockedStakeIx (authority config paymentMint tokenProgramId worker workerStakeVault
    workerDestinationAccount : Pubkey) (amount : ℤ) : Except JsError Instruction := do
  let amount ← u64LE amount
  let tokenProgramId ← requireTokenProgramId tokenProgramId
  pure ⟨programId,anchorIxDiscriminator "withdraw_unlocked_stake" ++ amount,
    [⟨authority,true,true⟩,⟨config,false,false⟩,⟨paymentMint,false,false⟩,⟨worker,false,true⟩,
      ⟨workerStakeVault,false,true⟩,⟨workerDestinationAccount,false,true⟩,
      ⟨tokenProgramId,false,false⟩]⟩

def cancelOpenJobIx (customer config paymentMint tokenProgramId job jobEscrowVault
    customerPaymentAccount : Pubkey) : Except JsError Instruction := do
  let tokenProgramId ← requireTokenProgramId tokenProgramId
  pure ⟨programId,anchorIxDiscriminator "cancel_open_job",
    [⟨customer,true,true⟩,⟨config,false,false⟩,⟨paymentMint,false,false⟩,⟨job,false,true⟩,
      ⟨jobEscrowVault,false,true⟩,⟨customerPaymentAccount,false,true⟩,
      ⟨tokenProgramId,false,false⟩]⟩

def slashStaleJobIx (caller config paymentMint tokenProgramId job customerAuthority
    customerPaymentAccount worker workerAuthority workerStakeVault jobEscrowVault : Pubkey) :
    Except JsError Instruction := do
  let tokenProgramId ← requireTokenProgramId tokenProgramId
  pure ⟨programId,anchorIxDiscriminator "slash_stale_job",
    [⟨caller,true,true⟩,⟨config,false,false⟩,⟨paymentMint,false,false⟩,⟨job,false,true⟩,
      ⟨customerAuthority,false,false⟩,⟨customerPaymentAccount,false,true⟩,⟨worker,false,true⟩,
      ⟨workerAuthority,false,false⟩,⟨workerStakeVault,false,true⟩,⟨jobEscrowVault,false,true⟩,
      ⟨tokenProgramId,false,false⟩]⟩

end Builders

section Watcher
open Kswarm.Watcher (jobStatusCompleted jobStatusSlashed jobStatusClaimed settlementSafetySeconds)
variable (find : FindProgramAddress) (get : GetTokenAddress)
variable (paymentMint tokenProgramId watcher : Pubkey)

/-- The instructions of the transaction a pass of the watcher sends for a job, if it sends one. -/
def watcherInstructions (now : ℤ) (publicKey : Pubkey) (job : JobAccount) :
    Except JsError (Option (List Instruction)) :=
  let config := configPda find programId
  let worker := workerPda find programId job.worker
  if job.status = jobStatusCompleted ∧
      job.challengeDeadline.toInt + settlementSafetySeconds ≤ now then do
    let workerPaymentAccount ← tokenAta get paymentMint job.worker false tokenProgramId
    let jobEscrowVault ← tokenAta get paymentMint publicKey true tokenProgramId
    let settle ← settleJobIx watcher config paymentMint tokenProgramId publicKey worker job.worker
      jobEscrowVault workerPaymentAccount
    pure (some [settle])
  else if job.status = jobStatusSlashed ∧ job.slashSettled = false then do
    let customerPaymentAccount ← tokenAta get paymentMint job.customer false tokenProgramId
    let verifierRewardAccount ← tokenAta get paymentMint job.challenger false tokenProgramId
    let workerStakeVault ← tokenAta get paymentMint worker true tokenProgramId
    let jobEscrowVault ← tokenAta get paymentMint publicKey true tokenProgramId
    let refund ← refundSlashedJobEscrowIx watcher config paymentMint tokenProgramId publicKey
      job.customer customerPaymentAccount jobEscrowVault
    let reward ← claimVerifierSlashRewardIx watcher config paymentMint tokenProgramId publicKey
      job.challenger verifierRewardAccount worker job.worker workerStakeVault
    if job.challengeBond < job.requiredStake then do
      let compensation ← claimCustomerSlashCompensationIx watcher config paymentMint tokenProgramId
        publicKey job.customer customerPaymentAccount worker job.worker workerStakeVault
      pure (some [refund,reward,compensation])
    else pure (some [refund,reward])
  else if job.status = jobStatusClaimed ∧
      job.executeDeadline.toInt + settlementSafetySeconds < now then do
    let customerPaymentAccount ← tokenAta get paymentMint job.customer false tokenProgramId
    let workerStakeVault ← tokenAta get paymentMint worker true tokenProgramId
    let jobEscrowVault ← tokenAta get paymentMint publicKey true tokenProgramId
    let slash ← slashStaleJobIx watcher config paymentMint tokenProgramId publicKey job.customer
      customerPaymentAccount worker job.worker workerStakeVault jobEscrowVault
    pure (some [slash])
  else pure none

end Watcher

end Js

section Agreement
open Js (GetTokenAddress)
variable (find : FindProgramAddress) (onCurve : Pubkey → Bool) (proto : ProtocolAddresses)

/-- The addresses of the command line, with the program the client is built for. -/
def onProgram : ProtocolAddresses := {proto with programId := Js.programId}

/-- The command line's instruction for a leg of the watcher. -/
def cliInstruction (caller : Pubkey) (job : JobAccount) : Watcher.Instruction → Instruction
  | .settleJob key _ => settleJobIx find (onProgram proto) caller key job
  | .refundSlashedJobEscrow key _ => refundSlashedJobEscrowIx find (onProgram proto) caller key job
  | .claimVerifierSlashReward key _ _ =>
    claimVerifierSlashRewardIx find (onProgram proto) caller key job
  | .claimCustomerSlashCompensation key _ _ =>
    claimCustomerSlashCompensationIx find (onProgram proto) caller key job
  | .slashStaleJob key _ _ => slashStaleJobIx find (onProgram proto) caller key job

/-- Whom an instruction pays. -/
def payee : Watcher.Instruction → Pubkey
  | .settleJob _ worker => worker
  | .refundSlashedJobEscrow _ customer => customer
  | .claimVerifierSlashReward _ verifier _ => verifier
  | .claimCustomerSlashCompensation _ customer _ => customer
  | .slashStaleJob _ customer _ => customer

lemma requireTokenProgramId_known :
    Js.requireTokenProgramId proto.tokenProgram = .ok proto.tokenProgram :=
  bind_eq_ok.mpr ⟨(),failIf_of_not (not_not.mpr proto.known),rfl⟩

section Accounts
variable {find : FindProgramAddress} {onCurve : Pubkey → Bool} {get : GetTokenAddress}

/-- A vault of the program is derived whether or not its owner is on the curve. -/
lemma tokenAta_allowed (hget : get.Derives find onCurve) (owner : Pubkey) :
    Js.tokenAta get proto.paymentMint owner true proto.tokenProgram =
      .ok ((onProgram proto).ata find owner) := by
  rw [Js.tokenAta,requireTokenProgramId_known,ok_bind,hget,if_neg (by simp)]
  rfl

/-- An account that is paid is derived for an owner on the curve. -/
lemma tokenAta_paid (hget : get.Derives find onCurve) {α : Type} {owner : Pubkey}
    {f : Pubkey → Except Js.JsError α} {a : α} :
    (Js.tokenAta get proto.paymentMint owner false proto.tokenProgram >>= f) = .ok a ↔
      onCurve owner = true ∧ f ((onProgram proto).ata find owner) = .ok a := by
  rw [Js.tokenAta,requireTokenProgramId_known,ok_bind,hget]
  cases onCurve owner with
  | true =>
    rw [if_neg (by simp),ok_bind]
    exact (and_iff_right rfl).symm
  | false =>
    rw [if_pos ⟨rfl,rfl⟩]
    constructor
    · intro h
      cases h
    · rintro ⟨h,-⟩
      cases h

end Accounts

/-- The legs that are sent, each payee on the curve. -/
lemma sends_iff {legs : List Watcher.Instruction} {instructions : List Instruction}
    {batch : Option (List Instruction)} {watcher : Pubkey} {job : JobAccount} {paid : Prop}
    (hpaid : paid ↔ ∀ leg ∈ legs, onCurve (payee leg) = true)
    (hsame : instructions = legs.map (cliInstruction find proto watcher job)) :
    (paid ∧ (pure (some instructions) : Except Js.JsError _) = .ok batch) ↔
      (∀ legs' ∈ some legs, ∀ leg ∈ legs', onCurve (payee leg) = true) ∧
      batch = (some legs).map (List.map (cliInstruction find proto watcher job)) := by
  rw [pure_eq_ok,hpaid,hsame,Option.map_some,@eq_comm _ batch]
  refine and_congr_left fun _ => ?_
  constructor
  · rintro h _ ⟨⟩
    exact h
  · exact fun h => h legs rfl

/-- For every job the watcher sends, byte for byte and account for account, what the command line
would send for the legs that are due; it sends nothing when a payee is not on the curve. -/
theorem watcher_sends_cli_instructions {find : FindProgramAddress} {onCurve : Pubkey → Bool}
    {get : GetTokenAddress} (hget : get.Derives find onCurve)
    (proto : ProtocolAddresses) (watcher : Pubkey) (now : ℤ) (publicKey : Pubkey)
    (job : JobAccount) (batch : Option (List Instruction)) :
    Js.watcherInstructions find get proto.paymentMint proto.tokenProgram watcher now publicKey
        job = .ok batch ↔
      (∀ legs ∈ transactionFor now publicKey job, ∀ leg ∈ legs, onCurve (payee leg) = true) ∧
      batch = (transactionFor now publicKey job).map
        (List.map (cliInstruction find proto watcher job)) := by
  unfold Js.watcherInstructions transactionFor
  dsimp only
  split_ifs with hsettle hslashed hcompensation hstale
  · simp only [Js.settleJobIx,requireTokenProgramId_known,tokenAta_allowed proto hget,
      tokenAta_paid proto hget,ok_bind,pure_bind]
    exact sends_iff find onCurve proto (by simp [payee]) rfl
  · simp only [Js.refundSlashedJobEscrowIx,Js.claimVerifierSlashRewardIx,
      Js.claimCustomerSlashCompensationIx,requireTokenProgramId_known,tokenAta_allowed proto hget,
      tokenAta_paid proto hget,ok_bind,pure_bind,← and_assoc]
    have hlegs : Kswarm.Watcher.slashInstructions publicKey job =
        [.refundSlashedJobEscrow publicKey job.customer,
          .claimVerifierSlashReward publicKey job.challenger job.worker,
          .claimCustomerSlashCompensation publicKey job.customer job.worker] := by
      rw [Kswarm.Watcher.slashInstructions,if_pos hcompensation]
      rfl
    rw [hlegs]
    refine sends_iff find onCurve proto ?_ rfl
    simp only [List.forall_mem_cons,payee,List.not_mem_nil,false_implies,implies_true,and_true]
    exact ⟨fun h => ⟨h.1,h.2,h.1⟩,fun h => ⟨h.1,h.2.1⟩⟩
  · simp only [Js.refundSlashedJobEscrowIx,Js.claimVerifierSlashRewardIx,
      requireTokenProgramId_known,tokenAta_allowed proto hget,tokenAta_paid proto hget,ok_bind,
      pure_bind,← and_assoc]
    have hlegs : Kswarm.Watcher.slashInstructions publicKey job =
        [.refundSlashedJobEscrow publicKey job.customer,
          .claimVerifierSlashReward publicKey job.challenger job.worker] := by
      rw [Kswarm.Watcher.slashInstructions,if_neg hcompensation]
      rfl
    rw [hlegs]
    exact sends_iff find onCurve proto (by simp [payee]) rfl
  · simp only [Js.slashStaleJobIx,requireTokenProgramId_known,tokenAta_allowed proto hget,
      tokenAta_paid proto hget,ok_bind,pure_bind]
    exact sends_iff find onCurve proto (by simp [payee]) rfl
  · rw [pure_eq_ok,Option.map_none,@eq_comm _ batch]
    simp

section Sample

/-- The first address the key library tries. -/
def sampleFind : FindProgramAddress := fun seeds programId =>
  sha256 (seeds.flatten ++ [255] ++ programId.val ++ utf8 "ProgramDerivedAddress".toList)

/-- The token library, where wallets are on the curve and derived addresses are not. -/
def sampleGet : GetTokenAddress := fun mint owner allowOwnerOffCurve tokenProgram =>
  if allowOwnerOffCurve = false ∧ (owner == Accounts.someKey) = false then .error .tokenOwnerOffCurve
  else .ok (associatedTokenAddress sampleFind mint owner tokenProgram)

def sampleProto : ProtocolAddresses := ⟨Js.programId,natKey 1,Cli.Swarm.tokenProgramId,.inl rfl⟩

/-- A finished job is settled two seconds after its challenge window. -/
theorem watcher_sends_cli_instructions_sample :
    Js.watcherInstructions sampleFind sampleGet sampleProto.paymentMint sampleProto.tokenProgram
        (natKey 2) 102 (natKey 3) Accounts.finishedJob.toJobAccount =
      .ok (some [settleJobIx sampleFind (onProgram sampleProto) (natKey 2) (natKey 3)
        Accounts.finishedJob.toJobAccount]) := by
  have hget : sampleGet.Derives sampleFind (· == Accounts.someKey) := fun _ _ _ _ => rfl
  refine (watcher_sends_cli_instructions hget sampleProto (natKey 2) 102 (natKey 3)
    Accounts.finishedJob.toJobAccount _).mpr ⟨?_,rfl⟩
  rintro legs ⟨⟩ leg hleg
  obtain rfl := List.mem_singleton.mp hleg
  exact beq_self_eq_true _

end Sample

/-- The two instructions that only scripts send, from the addresses the command line derives. -/
theorem scripts_build_cli_instructions (authority job : Pubkey) (amount : ℤ) (ix : Instruction) :
    (Js.withdrawUnlockedStakeIx authority (configPda find Js.programId) proto.paymentMint
        proto.tokenProgram (workerPda find Js.programId authority)
        ((onProgram proto).ata find (workerPda find Js.programId authority))
        ((onProgram proto).ata find authority) amount = .ok ix ↔
      withdrawUnlockedStakeIx find (onProgram proto) authority amount = .ok ix) ∧
    (Js.cancelOpenJobIx authority (configPda find Js.programId) proto.paymentMint
        proto.tokenProgram job ((onProgram proto).jobEscrowVault find job)
        ((onProgram proto).ata find authority) = .ok ix ↔
      cancelOpenJobIx find (onProgram proto) authority job = ix) := by
  constructor
  · simp only [Js.withdrawUnlockedStakeIx,withdrawUnlockedStakeIx,Js.u64LE,u64,pack,
      requireTokenProgramId_known,ok_bind,bind_eq_ok,failIf_eq_ok,pure_eq_ok]
    rfl
  · rw [Js.cancelOpenJobIx,requireTokenProgramId_known,ok_bind,pure_eq_ok]
    rfl

end Agreement

end Kswarm.Instructions
