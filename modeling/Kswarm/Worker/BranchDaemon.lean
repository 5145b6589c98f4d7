import Kswarm.Accounts.Job
import Kswarm.Cli.Rpc
import Kswarm.Lib.Base58
import Kswarm.Worker.Executor

/-! The branch worker daemon (`branch_worker/daemon.py`): one pass over the open jobs, with the claim
budget, the check before a claim, the retries after it and the circuit breaker. Times are rational
seconds. -/
namespace Kswarm.Worker.Branch
open Accounts Protocol

/-- The claim discipline of a worker's configuration, as its loader accepts it. -/
structure Config where
  wallet : Digest
  capabilities : List Bytes
  softwareDigest : Bytes
  role : ℕ
  tier : ℕ
  maxConcurrentClaims : ℕ
  claimCooldownSeconds : ℚ
  executeDeadlineMarginSeconds : ℚ
  executeRetryInitialSeconds : ℚ
  executeRetryMaxSeconds : ℚ
  claims_pos : 0 < maxConcurrentClaims
  cooldown_nonneg : 0 ≤ claimCooldownSeconds
  initial_pos : 0 < executeRetryInitialSeconds
  initial_le_max : executeRetryInitialSeconds ≤ executeRetryMaxSeconds

/-- `ClaimCircuitBreaker`; the cooldown is the configuration's. -/
structure Breaker where
  openUntil : ℚ
  deriving DecidableEq

def Breaker.trip (c : Config) (now : ℚ) : Breaker := ⟨now + c.claimCooldownSeconds⟩

def Breaker.isOpen (b : Breaker) (now : ℚ) : Bool := decide (now < b.openUntil)

/-- The classes of exception a call can raise; `other` is any class the daemon does not name. -/
inductive CallError where
  | rpc (error : Cli.RpcError)
  | ipfs (text : String)
  | endpoint (text : String) (retryable : Bool)
  | other (text : String)

inductive Op where
  | clock
  | sleep (seconds : ℚ)
  | workerAccount
  | jobs
  | checkEndpoint
  | ipfsCheck
  | claimJob (job : Digest)
  | job (job : Digest)
  | catBytes (cid : String)
  | execute (job : Digest) (branchInput : BranchInput)
  | submitReceipt (job : Digest) (outputCid : String) (resultBytes : Bytes)

/-- What a call returns: of the worker's account the number of its active claims, and of an
execution the host it ran on. -/
abbrev Result : Op → Type
  | .clock => ℚ
  | .sleep _ => Unit
  | .workerAccount => Option ℕ
  | .jobs => List (Digest × JobAccount)
  | .checkEndpoint => Unit
  | .ipfsCheck => Unit
  | .claimJob _ => Unit
  | .job _ => Option JobAccount
  | .catBytes _ => Bytes
  | .execute _ _ => Host
  | .submitReceipt _ _ _ => Unit

/-- The clock and the sleep do not raise. -/
abbrev Ans : Op → Type
  | .clock => ℚ
  | .sleep _ => Unit
  | o => Except CallError (Result o)

/-- What leaves `run_once` as an exception: before a claim, or after it; `overflow` is the one that a
handler raises. The last one stands for a clock that does not advance with the sleeps. -/
inductive Escape where
  | notRegistered
  | beforeClaim (error : CallError)
  | afterClaim (error : CallError)
  | execution (error : ExecutionError)
  | overflow
  | clockStopped

abbrev Run (α : Type) : Type := Process Op Ans Escape α

/-- Why a claim was abandoned. -/
inductive Reason where
  | submitted
  | notVisible
  | noInputCid
  | nonRetryable (text : String)
  | deadlineMargin (attempts : ℕ) (text : String)
  | outputRejected (text : String)
  | invalidInput
  | submitFailed (error : Cli.RpcError)

structure ExecutionOutcome where
  submitted : Bool
  reason : Reason
  attempts : ℕ

/-- The exceptions `execute_claimed` handles. -/
inductive Caught where
  | endpoint (text : String) (retryable : Bool)
  | ipfs (text : String)
  | rejected (text : String)
  | invalid
  | rpc (error : Cli.RpcError)

/-- The handler list, for what a call raises. -/
def CallError.caught : CallError → Option Caught
  | .rpc error => some (.rpc error)
  | .ipfs text => some (.ipfs text)
  | .endpoint text retryable => some (.endpoint text retryable)
  | .other _ => none

/-- The handler list, for what an execution raises: no handler names a failed receipt, the OASIS
engine, a timeout or a plain `ValueError`. -/
def caught : ExecutionError → Option Caught
  | .endpoint text retryable => some (.endpoint text retryable)
  | .ipfs text => some (.ipfs text)
  | .modelOutputRejected text _ => some (.rejected text)
  | .validation => some .invalid
  | _ => none

/-- The last attempt whose `2 ** (attempt - 1)` fits a binary64 number. -/
def lastBackoff : ℕ := 1024

/-- `backoff_seconds`; none stands for the `OverflowError` of the product with a wider integer. -/
def backoffSeconds (c : Config) (attempt : ℕ) : Option ℚ :=
  if lastBackoff < attempt then none
  else some (min c.executeRetryMaxSeconds (c.executeRetryInitialSeconds * 2^(attempt-1)))

def statusOpen : UInt8 := 2
def statusClaimed : UInt8 := 3
def classBranchProof : UInt8 := 2
def zeroBytes : Bytes := List.replicate 32 0

/-- `_matches_open_branch_job`. -/
def matchesOpenBranchJob (c : Config) (job : JobAccount) (now : ℚ) : Bool :=
  if job.status ≠ statusOpen then false
  else if job.jobClass ≠ classBranchProof then false
  else if (job.claimDeadline.toInt : ℚ) < now then false
  else if job.requiredCapabilityClassHash ∉ c.capabilities ∧
      job.requiredCapabilityClassHash ≠ zeroBytes then false
  else if job.requiredSoftwareDigest ≠ c.softwareDigest ∧
      job.requiredSoftwareDigest ≠ zeroBytes then false
  else if c.role < job.requiredRole.toNat ∧ job.requiredRole.toNat ∈ [1,2,3] then false
  else if job.requiredRole.toNat ∉ [c.role,1,2,3] ∧ job.requiredRole.toNat ≠ c.role then false
  else if c.tier < job.requiredTier.toNat then false
  else true

/-- An abandoned claim, as the log reports it. -/
structure Abandonment where
  job : Digest
  outcome : ExecutionOutcome
  stakeAtRisk : UInt64

/-- What a pass leaves: the count it returns, its breaker, and the claim it abandoned. -/
structure PassResult where
  processed : ℕ
  breaker : Breaker
  abandoned : Option Abandonment

section Daemon
variable [CharData] (c : Config) (readInput : Bytes → Option BranchInput)

/-- A call before a claim, none of whose exceptions is handled. -/
def before {α : Type} (answer : Except CallError α) : Run α := .lift (answer.mapError .beforeClaim)

def claimBudget : Run ℤ := do
  let answer ← Process.query Op.workerAccount
  let worker ← before answer
  match worker with
  | none => .raise .notRegistered
  | some activeClaims => pure ((c.maxConcurrentClaims : ℤ) - activeClaims)

/-- The failures the health check absorbs. -/
def absorbed : Except CallError Unit → Run Bool
  | .ok _ => pure true
  | .error (.endpoint _ _) => pure false
  | .error (.ipfs _) => pure false
  | .error error => .raise (.beforeClaim error)

def preflightOk : Run Bool := do
  let endpoint ← Process.query Op.checkEndpoint
  let reachable ← absorbed endpoint
  if reachable then do
    let ipfs ← Process.query Op.ipfsCheck
    absorbed ipfs
  else pure false

/-- `_claim`. -/
def claim (job : Digest) : Run Bool := do
  let answer ← Process.query (Op.claimJob job)
  match answer with
  | .ok _ => pure true
  | .error (.rpc _) => pure false
  | .error error => .raise (.beforeClaim error)

/-- What a call of an attempt raises is caught, or leaves the daemon. -/
def orCaught {α : Type} (error : CallError) : Run (Except Caught α) :=
  match error.caught with
  | some failure => pure (.error failure)
  | none => .raise (.afterClaim error)

/-- The `try` block of one attempt, from the host it executes on. -/
def submitExecution (job : Digest) (host : Host) (branchInput : BranchInput) :
    Run (Except Caught BranchExecution) :=
  match execute host (keyText job) branchInput none with
  | .error error =>
    match caught error with
    | some failure => pure (.error failure)
    | none => .raise (.execution error)
  | .ok execution => do
    let answer ← Process.query (Op.submitReceipt job execution.outputCid execution.resultBytes)
    match answer with
    | .error error => orCaught error
    | .ok _ => pure (.ok execution)

/-- The `try` block of one attempt. -/
def attemptOnce (job : Digest) (claimed : JobAccount) : Run (Except Caught BranchExecution) := do
  let answer ← Process.query (Op.catBytes claimed.inputCid)
  match answer with
  | .error error => orCaught error
  | .ok bytes =>
    match readInput bytes with
    | none => pure (.error .invalid)
    | some branchInput => do
      let answer ← Process.query (Op.execute job branchInput)
      match answer with
      | .error error => orCaught error
      | .ok host => submitExecution job host branchInput

/-- The handlers of one attempt: an outcome, or the text of a failure to retry. -/
def handle (attempt : ℕ) : Except Caught BranchExecution → ExecutionOutcome ⊕ String
  | .ok _ => .inl ⟨true,.submitted,attempt⟩
  | .error (.endpoint text false) => .inl ⟨false,.nonRetryable text,attempt⟩
  | .error (.endpoint text true) => .inr text
  | .error (.ipfs text) => .inr text
  | .error (.rejected text) => .inl ⟨false,.outputRejected text,attempt⟩
  | .error .invalid => .inl ⟨false,.invalidInput,attempt⟩
  | .error (.rpc error) => .inl ⟨false,.submitFailed error,attempt⟩

/-- The attempts from one on, with so many retries left at most. -/
def attempts (job : Digest) (claimed : JobAccount) (latestStart : ℚ) : ℕ → ℕ → Run ExecutionOutcome
  | retries,attempt => do
    let result ← attemptOnce readInput job claimed
    match handle attempt result with
    | .inl outcome => pure outcome
    | .inr text =>
      match backoffSeconds c attempt with
      | none => .raise .overflow
      | some wait => do
        let now ← Process.query Op.clock
        if latestStart < now + wait then pure ⟨false,.deadlineMargin attempt text,attempt⟩
        else match retries with
          | 0 => .raise .clockStopped
          | retries+1 => do
            let _ ← Process.query (Op.sleep wait)
            attempts job claimed latestStart retries (attempt+1)

/-- The retries that fit between the start of the pass and the latest start: every one of them
sleeps for the initial backoff at least. -/
def retriesUntil (now latestStart : ℚ) : ℕ :=
  ⌊(latestStart - now) / c.executeRetryInitialSeconds⌋₊ + 1

/-- `execute_claimed`, in a pass that started at `now`. -/
def executeClaimed (now : ℚ) (job : Digest) : Run ExecutionOutcome := do
  let answer ← Process.query (Op.job job)
  match answer with
  | .error error => .raise (.afterClaim error)
  | .ok none => pure ⟨false,.notVisible,0⟩
  | .ok (some claimed) =>
    if claimed.status ≠ statusClaimed ∨ claimed.worker ≠ c.wallet then pure ⟨false,.notVisible,0⟩
    else if claimed.inputCid = "" then pure ⟨false,.noInputCid,0⟩
    else
      let latestStart := (claimed.executeDeadline.toInt : ℚ) - c.executeDeadlineMarginSeconds
      attempts c readInput job claimed latestStart (retriesUntil c now latestStart) 1

/-- The loop of `run_once`. -/
def walk (breaker : Breaker) (now : ℚ) : List (Digest × JobAccount) → ℤ → ℕ → Run PassResult
  | [],_,processed => pure ⟨processed,breaker,none⟩
  | (key,job)::jobs,budget,processed =>
    if matchesOpenBranchJob c job now = false then walk breaker now jobs budget processed
    else if budget ≤ 0 then pure ⟨processed,breaker,none⟩
    else do
      let healthy ← preflightOk
      if healthy = false then pure ⟨processed,breaker,none⟩
      else do
        let claimed ← claim key
        if claimed = false then walk breaker now jobs budget processed
        else do
          let outcome ← executeClaimed c readInput now key
          if outcome.submitted then walk breaker now jobs (budget-1) (processed+1)
          else do
            let tripped ← Process.query Op.clock
            pure ⟨processed,.trip c tripped,some ⟨key,outcome,job.requiredStake⟩⟩

def runOnce (breaker : Breaker) : Run PassResult := do
  let now ← Process.query Op.clock
  if breaker.isOpen now then pure ⟨0,breaker,none⟩
  else do
    let budget ← claimBudget c
    if budget ≤ 0 then pure ⟨0,breaker,none⟩
    else do
      let answer ← Process.query Op.jobs
      let jobs ← before answer
      walk c readInput breaker now jobs budget 0

end Daemon
end Kswarm.Worker.Branch
