import Kswarm.Accounts.Job
import Kswarm.Lib.Base58

/-! The watcher (`run-watcher.mjs`), and what becomes of a slashed job whose legs are also paid one
by one between its passes. The program that executes a leg is a parameter. -/
namespace Kswarm.Watcher
open Accounts (JobAccount)

def jobStatusClaimed : UInt8 := 3
def jobStatusCompleted : UInt8 := 4
def jobStatusSlashed : UInt8 := 7
def settlementSafetySeconds : ℤ := 2

/-- The instructions the watcher sends, with the keys it takes from the job. Addresses derived from
these are left out. -/
inductive Instruction where
  | settleJob (job workerAuthority : Digest)
  | refundSlashedJobEscrow (job customerAuthority : Digest)
  | claimVerifierSlashReward (job verifierAuthority workerAuthority : Digest)
  | claimCustomerSlashCompensation (job customerAuthority workerAuthority : Digest)
  | slashStaleJob (job customerAuthority workerAuthority : Digest)
  deriving DecidableEq

def slashInstructions (publicKey : Digest) (job : JobAccount) : List Instruction :=
  [.refundSlashedJobEscrow publicKey job.customer,
    .claimVerifierSlashReward publicKey job.challenger job.worker] ++
  if job.challengeBond < job.requiredStake then
    [.claimCustomerSlashCompensation publicKey job.customer job.worker]
  else []

/-- The transaction a pass sends for one job. -/
def transactionFor (now : ℤ) (publicKey : Digest) (job : JobAccount) : Option (List Instruction) :=
  if job.status = jobStatusCompleted ∧
      job.challengeDeadline.toInt + settlementSafetySeconds ≤ now then
    some [.settleJob publicKey job.worker]
  else if job.status = jobStatusSlashed ∧ job.slashSettled = false then
    some (slashInstructions publicKey job)
  else if job.status = jobStatusClaimed ∧
      job.executeDeadline.toInt + settlementSafetySeconds < now then
    some [.slashStaleJob publicKey job.customer job.worker]
  else none

/-- The payouts of a slash. -/
inductive Leg where
  | escrowRefund
  | verifierReward
  | customerCompensation
  deriving DecidableEq

def Instruction.leg : Instruction → Option Leg
  | .refundSlashedJobEscrow .. => some .escrowRefund
  | .claimVerifierSlashReward .. => some .verifierReward
  | .claimCustomerSlashCompensation .. => some .customerCompensation
  | _ => none

def paid (job : JobAccount) : Leg → Bool
  | .escrowRefund => job.escrowRefunded
  | .verifierReward => job.verifierRewardPaid
  | .customerCompensation => job.customerSlashPaid

/-- The legs of the batch the watcher sends for a slashed job. -/
def batchLegs (job : JobAccount) : List Leg :=
  [.escrowRefund,.verifierReward] ++
    if job.challengeBond < job.requiredStake then [.customerCompensation] else []

lemma legs_slashInstructions (publicKey : Digest) (job : JobAccount) :
    (slashInstructions publicKey job).filterMap Instruction.leg = batchLegs job := by
  unfold slashInstructions batchLegs
  split_ifs with h
  · rfl
  · rfl

/-- What the program does with a leg of a slashed job. -/
structure PaysLegs (execute : JobAccount → Leg → Option JobAccount) : Prop where
  rejects : ∀ job leg, paid job leg = true → execute job leg = none
  marks : ∀ job leg job', execute job leg = some job' →
    ∀ other, paid job' other = (paid job other || decide (other = leg))
  keeps : ∀ job leg job', execute job leg = some job' → job'.status = job.status ∧
    job'.requiredStake = job.requiredStake ∧ job'.challengeBond = job.challengeBond
  settles : ∀ job leg job', execute job leg = some job' →
    (job'.slashSettled = true ↔ ∀ other, paid job' other = true)

/-- A job as its challenge leaves it. Where the bond takes all of the stake nothing is due to the
customer. -/
structure JustSlashed (job : JobAccount) : Prop where
  status : job.status = jobStatusSlashed
  settled : job.slashSettled = false
  escrow : job.escrowRefunded = false
  reward : job.verifierRewardPaid = false
  compensation : job.customerSlashPaid = decide (job.requiredStake ≤ job.challengeBond)

/-- The legs of the batch are those a challenge leaves to be paid. -/
lemma JustSlashed.mem_batchLegs {job : JobAccount} (h : JustSlashed job) (leg : Leg) :
    leg ∈ batchLegs job ↔ paid job leg = false := by
  unfold batchLegs
  cases leg with
  | escrowRefund => simp [paid,h.escrow]
  | verifierReward => simp [paid,h.reward]
  | customerCompensation =>
    rw [paid,h.compensation,decide_eq_false_iff_not,UInt64.not_le]
    split_ifs with hlt
    · simp [hlt]
    · simp [hlt]

section Runs
variable (execute : JobAccount → Leg → Option JobAccount)

/-- A transaction is executed whole or not at all. -/
def transact (job : JobAccount) (legs : List Leg) : Option JobAccount := legs.foldlM execute job

/-- The states of a job over the transactions that landed on it, whoever sent them. -/
inductive Reached (start : JobAccount) : List (List Leg) → JobAccount → Prop
  | slashed : Reached start [] start
  | landed {txs : List (List Leg)} {legs : List Leg} {job job' : JobAccount}
    (run : Reached start txs job) (lands : transact execute job legs = some job') :
    Reached start (txs ++ [legs]) job'

/-- What holds of a slashed job of which `legs` have been paid. -/
structure Owes (start : JobAccount) (legs : List Leg) (job : JobAccount) : Prop where
  status : job.status = jobStatusSlashed
  batch : batchLegs job = batchLegs start
  flags : ∀ leg, paid job leg = true ↔ paid start leg = true ∨ leg ∈ legs
  settled : job.slashSettled = true ↔ ∀ leg, paid job leg = true

variable {execute} (hexec : PaysLegs execute)

lemma JustSlashed.owes {start : JobAccount} (h : JustSlashed start) : Owes start [] start where
  status := h.status
  batch := rfl
  flags := by simp
  settled := by
    rw [h.settled]
    refine iff_of_false (by decide) (fun hall => ?_)
    have hescrow := hall .escrowRefund
    rw [paid,h.escrow] at hescrow
    cases hescrow

include hexec in
/-- One leg. -/
lemma Owes.leg {start job job' : JobAccount} {legs : List Leg} {leg : Leg}
    (h : Owes start legs job) (hrun : execute job leg = some job') :
    Owes start (legs ++ [leg]) job' := by
  obtain ⟨hstatus,hstake,hbond⟩ := hexec.keeps job leg job' hrun
  refine ⟨hstatus.trans h.status,?_,?_,hexec.settles job leg job' hrun⟩
  · rw [← h.batch,batchLegs,batchLegs,hstake,hbond]
  · intro other
    rw [hexec.marks job leg job' hrun other,Bool.or_eq_true,h.flags,decide_eq_true_eq,
      List.mem_append,List.mem_singleton,or_assoc]

include hexec in
/-- One transaction. -/
lemma Owes.landed {start job job' : JobAccount} {legs tx : List Leg} (h : Owes start legs job)
    (hrun : transact execute job tx = some job') : Owes start (legs ++ tx) job' := by
  induction tx generalizing job legs with
  | nil =>
    obtain rfl := Option.some.inj hrun
    rwa [List.append_nil]
  | cons leg tx ih =>
    obtain ⟨mid,hmid,hrest⟩ := Option.bind_eq_some_iff.mp hrun
    have := ih (h.leg hexec hmid) hrest
    rwa [List.append_assoc,List.singleton_append] at this

include hexec in
/-- A whole run. -/
lemma Reached.owes {start job : JobAccount} {txs : List (List Leg)} (hstart : JustSlashed start)
    (h : Reached execute start txs job) : Owes start txs.flatten job := by
  induction h with
  | slashed => exact hstart.owes
  | landed run lands ih =>
    rw [List.flatten_append,List.flatten_singleton]
    exact ih.landed hexec lands

lemma transactionFor_slashed {job : JobAccount} (h : job.status = jobStatusSlashed) (now : ℤ)
    (publicKey : Digest) : transactionFor now publicKey job =
      if job.slashSettled = false then some (slashInstructions publicKey job) else none := by
  have hcompleted : ¬(job.status = jobStatusCompleted ∧
      job.challengeDeadline.toInt + settlementSafetySeconds ≤ now) := by
    rw [h]
    exact fun hc => absurd hc.1 (by decide)
  have hclaimed : ¬(job.status = jobStatusClaimed ∧
      job.executeDeadline.toInt + settlementSafetySeconds < now) := by
    rw [h]
    exact fun hc => absurd hc.1 (by decide)
  rw [transactionFor,if_neg hcompleted,if_neg hclaimed]
  simp only [h,true_and]

/-- The watcher's transaction for the job holds no paid leg. -/
def Payable (publicKey : Digest) (job : JobAccount) : Prop :=
  ∀ now batch, transactionFor now publicKey job = some batch →
    ∀ leg ∈ batch.filterMap Instruction.leg, paid job leg = false

lemma payable_iff {job : JobAccount} (h : job.status = jobStatusSlashed) (publicKey : Digest) :
    Payable publicKey job ↔
      job.slashSettled = true ∨ ∀ leg ∈ batchLegs job, paid job leg = false := by
  constructor
  · intro hpay
    cases hsettled : job.slashSettled with
    | true => exact .inl rfl
    | false =>
      refine .inr ?_
      have hsend : transactionFor 0 publicKey job = some (slashInstructions publicKey job) := by
        rw [transactionFor_slashed h,if_pos hsettled]
      rw [← legs_slashInstructions publicKey job]
      exact hpay 0 _ hsend
  · rintro hcase now batch hsend
    rw [transactionFor_slashed h] at hsend
    split_ifs at hsend with hsettled
    obtain rfl := Option.some.inj hsend
    rw [legs_slashInstructions]
    cases hcase with
    | inl htrue => rw [hsettled] at htrue; cases htrue
    | inr hlegs => exact hlegs

include hexec in
/-- A batch with a paid leg in it does not land. -/
lemma transact_eq_none {job : JobAccount} {legs : List Leg} {leg : Leg} (hmem : leg ∈ legs)
    (hpaid : paid job leg = true) : transact execute job legs = none := by
  induction legs generalizing job with
  | nil => simp at hmem
  | cons next legs ih =>
    cases hnext : execute job next with
    | none =>
      change (execute job next).bind (fun mid => transact execute mid legs) = none
      rw [hnext]
      rfl
    | some mid =>
      have hmid : paid mid leg = true := by rw [hexec.marks job next mid hnext,hpaid]; rfl
      have hleg : leg ∈ legs := by
        rcases List.mem_cons.mp hmem with rfl | htail
        · rw [hexec.rejects job leg hpaid] at hnext
          cases hnext
        · exact htail
      change (execute job next).bind (fun mid => transact execute mid legs) = none
      rw [hnext]
      exact ih hleg hmid

/-- What one pass makes of a slashed job on its own. -/
def attempt (execute : JobAccount → Leg → Option JobAccount) (publicKey : Digest) (job : JobAccount)
    (now : ℤ) : JobAccount :=
  match transactionFor now publicKey job with
  | some batch => (transact execute job (batch.filterMap Instruction.leg)).getD job
  | none => job

include hexec in
/-- A slash that is paid in part stays so over all passes of the watcher. -/
theorem attempts_stuck {job : JobAccount} (hslashed : job.status = jobStatusSlashed)
    {leg : Leg} (hmem : leg ∈ batchLegs job) (hpaid : paid job leg = true) (publicKey : Digest)
    (nows : List ℤ) : nows.foldl (attempt execute publicKey) job = job := by
  have hstep : ∀ now, attempt execute publicKey job now = job := by
    intro now
    rw [attempt,transactionFor_slashed hslashed]
    split_ifs
    · simp only [legs_slashInstructions,transact_eq_none hexec hmem hpaid,Option.getD_none]
    · rfl
  induction nows with
  | nil => rfl
  | cons now nows ih => rw [List.foldl_cons,hstep,ih]

end Runs

/-- A program that pays each leg of a slashed job once. -/
def payLeg (job : JobAccount) (leg : Leg) : Option JobAccount :=
  if job.status ≠ jobStatusSlashed ∨ paid job leg = true then none
  else
    let escrow := job.escrowRefunded || decide (leg = .escrowRefund)
    let reward := job.verifierRewardPaid || decide (leg = .verifierReward)
    let compensation := job.customerSlashPaid || decide (leg = .customerCompensation)
    some {job with
      escrowRefunded := escrow
      verifierRewardPaid := reward
      customerSlashPaid := compensation
      slashSettled := escrow && reward && compensation}

lemma payLeg_paysLegs : PaysLegs payLeg where
  rejects job leg hpaid := by rw [payLeg,if_pos (.inr hpaid)]
  marks job leg job' hrun other := by
    unfold payLeg at hrun
    split_ifs at hrun
    obtain rfl := Option.some.inj hrun
    cases other with
    | escrowRefund => simp only [paid,eq_comm]
    | verifierReward => simp only [paid,eq_comm]
    | customerCompensation => simp only [paid,eq_comm]
  keeps job leg job' hrun := by
    unfold payLeg at hrun
    split_ifs at hrun
    obtain rfl := Option.some.inj hrun
    exact ⟨rfl,rfl,rfl⟩
  settles job leg job' hrun := by
    unfold payLeg at hrun
    split_ifs at hrun
    obtain rfl := Option.some.inj hrun
    simp only [Bool.and_eq_true]
    constructor
    · rintro ⟨⟨hescrow,hreward⟩,hcompensation⟩ other
      cases other with
      | escrowRefund => exact hescrow
      | verifierReward => exact hreward
      | customerCompensation => exact hcompensation
    · intro hall
      exact ⟨⟨hall .escrowRefund,hall .verifierReward⟩,hall .customerCompensation⟩

/-- A challenged job whose stake exceeds the bond. -/
def challengedJob : JobAccount where
  bump := 255
  nonce := 1
  customer := natKey 1
  worker := natKey 2
  status := jobStatusSlashed
  rewardAmount := 50
  requiredStake := 500
  jobClass := 1
  requiredRole := 1
  requiredTier := 1
  requiredCapabilityClassHash := List.replicate 32 0
  requiredSoftwareDigest := List.replicate 32 0
  createdAt := 0
  claimDeadline := 100
  executionWindowSeconds := 100
  executeDeadline := 200
  challengeWindowSeconds := 100
  challengeDeadline := 300
  challengeBond := 100
  challenger := natKey 3
  slashSettled := false
  escrowRefunded := false
  verifierRewardPaid := false
  customerSlashPaid := false
  inputBundleHash := List.replicate 32 0
  expectedResultHash := List.replicate 32 0
  submittedResultHash := List.replicate 32 0
  inputCid := ""
  outputCid := ""
  resultBytes := []
  verifierAuthority := none
  verifierAttestationHash := none
  verifierEvidenceCid := none
  verifierAttestationUnix := none
  assignedVerifierAuthority := none
  assignedVerifierUnix := none
  reassignmentCounter := 0

lemma challengedJob_justSlashed : JustSlashed challengedJob where
  status := rfl
  settled := rfl
  escrow := rfl
  reward := rfl
  compensation := by decide

/-- The job after a transaction of its own has refunded the escrow. -/
def refundedJob : JobAccount := {challengedJob with escrowRefunded := true}

lemma refunded_reached : Reached payLeg challengedJob [[.escrowRefund]] refundedJob :=
  .landed .slashed rfl

/-- The job after the watcher's own transaction. -/
def settledJob : JobAccount :=
  {challengedJob with
    escrowRefunded := true
    verifierRewardPaid := true
    customerSlashPaid := true
    slashSettled := true}

lemma settled_reached : Reached payLeg challengedJob
    [[.escrowRefund,.verifierReward,.customerCompensation]] settledJob :=
  .landed .slashed rfl

/-- Over every run that pays legs of a slashed job, one by one or together and in any order, the
watcher's transaction is free of paid legs exactly while none or all of its legs have been paid. -/
theorem watcher_payable_iff {execute : JobAccount → Leg → Option JobAccount}
    (hexec : PaysLegs execute) {start job : JobAccount} (hstart : JustSlashed start)
    {txs : List (List Leg)} (hrun : Reached execute start txs job) (publicKey : Digest) :
    Payable publicKey job ↔
      (∀ leg ∈ batchLegs start, leg ∉ txs.flatten) ∨ ∀ leg ∈ batchLegs start, leg ∈ txs.flatten := by
  have howes := hrun.owes hexec hstart
  have hdue := hstart.mem_batchLegs
  have hopen : (∀ leg ∈ batchLegs start, paid job leg = false) ↔
      ∀ leg ∈ batchLegs start, leg ∉ txs.flatten := by
    refine forall₂_congr (fun leg hleg => ?_)
    have hstartLeg := (hdue leg).mp hleg
    rw [← Bool.not_eq_true,howes.flags,hstartLeg]
    simp
  have hclosed : (∀ leg, paid job leg = true) ↔ ∀ leg ∈ batchLegs start, leg ∈ txs.flatten := by
    refine forall_congr' (fun leg => ?_)
    rw [howes.flags,hdue]
    cases hleg : paid start leg with
    | true => simp
    | false => simp
  rw [payable_iff howes.status,howes.batch,howes.settled,hopen,hclosed]
  exact or_comm

theorem watcher_payable_settled : Payable challengedJob.customer settledJob :=
  (watcher_payable_iff payLeg_paysLegs challengedJob_justSlashed settled_reached _).mpr
    (.inr (fun leg _ => by cases leg <;> decide))

/-- A refund on its own leaves the watcher with a transaction the program rejects. -/
theorem watcher_batch_halfPaid :
    JustSlashed challengedJob ∧ Reached payLeg challengedJob [[.escrowRefund]] refundedJob ∧
      refundedJob.slashSettled = false ∧ ¬Payable challengedJob.customer refundedJob := by
  refine ⟨challengedJob_justSlashed,refunded_reached,rfl,fun h => ?_⟩
  have hsend : transactionFor 0 challengedJob.customer refundedJob =
      some (slashInstructions challengedJob.customer refundedJob) := by
    rw [transactionFor_slashed rfl]
    rfl
  have hpaid := h 0 _ hsend .escrowRefund
    (by rw [legs_slashInstructions]; exact List.mem_append_left _ List.mem_cons_self)
  cases hpaid

end Kswarm.Watcher
