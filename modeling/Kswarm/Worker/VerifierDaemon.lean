import Kswarm.Worker.AggregateVerifier
import Kswarm.Worker.BranchDaemon
import Kswarm.Worker.Verifier

/-! The verifier daemon (`verifier_worker/daemon.py`): one pass over the jobs whose receipt can
still be challenged, and the passes of `serve_forever`. An exception that stops one job is counted,
and the pass goes on with the next; a panic of the key library is no `Exception` and ends the pass. -/
namespace Kswarm.Worker.Verifying
open Branch (CallError)

/-- The counters of a pass; those of the receipt checks are left to the checks. -/
inductive Metric where
  | attestationRaces
  | aggregateVerificationFailures
  | attestationsFailed
  | reexecutionFailures
  | reexecutionModelMismatches
  | receiptVerificationRefusals
  | attestationsSubmitted
  | aggregateAttestationsSubmitted
  | mismatches
  | aggregateMismatches
  | challengesNotAssigned
  | challengesSubmitted
  deriving DecidableEq

def challengeNotAssignedCodes : List String :=
  ["ChallengeRequiresAssignedVerifier","VerifierNotAssigned"]

section Daemon
variable [CharData]

/-- Both verifiers of one process. -/
structure Daemon extends Verifier where
  fetchJob : Digest → Except AccountError (Option Job)

def Daemon.aggregate (d : Daemon) : AggregateVerifier where
  softwareDigest := d.softwareDigest
  wallet := d.wallet
  challengeOnMismatch := d.challengeOnMismatch
  fetchJob := d.fetchJob
  catBytes := d.catBytes
  addJson := d.addJson

/-- What the verification of one job finds outside: the model, OASIS, the prover and the clocks of
its execution, IPFS, the receipt verifier and the jobs on chain. -/
structure Surroundings where
  host : Host
  catBytes : String → Except String Bytes
  addJson : String → Json → Except String String
  hostVerify : Json → Except String Json
  fetchJob : Digest → Except AccountError (Option Job)

def Surroundings.executes (s : Surroundings) (h : Host) : Host :=
  {h with chat := s.host.chat, runOasis := s.host.runOasis, addJson := s.host.addJson,
          prove := s.host.prove, clock := s.host.clock, latencySeconds := s.host.latencySeconds,
          proveSeconds := s.host.proveSeconds}

/-- The daemon with its configuration, among what one job finds. -/
def Daemon.within (d : Daemon) (s : Surroundings) : Daemon :=
  {d with executor := d.executor.map s.executes, catBytes := s.catBytes, addJson := s.addJson,
          hostVerify := s.hostVerify, fetchJob := s.fetchJob}

/-- Why job accounts are not read: an exception, or a panic over keys cut short. -/
inductive Fault where
  | call (error : CallError)
  | panic

/-- The questions of a pass. The work on a job up to its attestation is one of them. -/
inductive Op where
  | clock
  | sleep
  | jobs
  | work (job : Digest)
  | submitAttestation (job : Digest) (resultBytes : Bytes) (evidenceCid : String)
      (softwareDigest : Digest)
  | job (job : Digest)
  | challengeJob (job : Digest) (account : Job)
  | count (metric : Metric)

abbrev Ans : Op → Type
  | .clock => ℚ
  | .sleep => Unit
  | .jobs => Except Fault (List (Digest × Job))
  | .work _ => Except CallError Surroundings
  | .submitAttestation _ _ _ _ => Except CallError Unit
  | .job _ => Except Fault (Option Job)
  | .challengeJob _ _ => Except CallError Unit
  | .count _ => Unit

/-- What the work on a job raises. -/
inductive Failure where
  | call (error : CallError)
  | branch (error : VerifierError)
  | aggregate (error : AggregateVerifierError)
  | panic

/-- What no handler of `Exception` catches. -/
def Failure.escapes : Failure → Bool
  | .panic => true
  | .aggregate (.account .panic) => true
  | _ => false

def Fault.failure : Fault → Failure
  | .call error => .call error
  | .panic => .panic

abbrev Run (α : Type) : Type := Process Op Ans Failure α

def count (metric : Metric) : Run Unit := Process.query (Op.count metric)

/-- A call none of whose exceptions is handled where it is made. -/
def called {α : Type} (answer : Except CallError α) : Run α := .lift (answer.mapError .call)

def fetched {α : Type} (answer : Except Fault α) : Run α := .lift (answer.mapError Fault.failure)

/-- `_challenge`. The attestation before it stands even when it is refused. -/
def challenge (key : Digest) : Run Unit := do
  let answer ← Process.query (Op.job key)
  let found ← fetched answer
  match found with
  | none => pure ()
  | some refreshed => do
    let answer ← Process.query (Op.challengeJob key refreshed)
    match answer with
    | .ok _ => count .challengesSubmitted
    | .error (.rpc error) =>
      if error.code ∈ challengeNotAssignedCodes then count .challengesNotAssigned
      else .raise (.call (.rpc error))
    | .error error => .raise (.call error)

/-- What a verification leaves to be said on chain. -/
structure Finding where
  resultBytes : Bytes
  evidenceCid : String
  softwareDigest : Digest
  isMatch : Bool
  challenges : Bool

/-- The attestation, and the challenge when the finding asks for one. -/
def report (submitted mismatched : Metric) (key : Digest) (finding : Finding) : Run Bool := do
  let answer ← Process.query
    (Op.submitAttestation key finding.resultBytes finding.evidenceCid finding.softwareDigest)
  let _ ← called answer
  let _ ← count submitted
  if finding.isMatch then pure true
  else do
    let _ ← count mismatched
    if finding.challenges then do
      let _ ← challenge key
      pure true
    else pure true

/-- What `_verify_and_attest` says when it attests. -/
def Attestation.finding (job : Job) (a : Attestation) : Finding where
  resultBytes := a.resultBytes
  evidenceCid := a.evidenceCid
  softwareDigest := a.softwareDigest
  isMatch := decide (sha256 a.resultBytes = job.submittedResultHash) &&
    a.validationErrors.isEmpty && a.receiptErrors.isEmpty
  challenges := a.challenges

def AggregateAttestation.finding (a : AggregateAttestation) : Finding where
  resultBytes := a.resultBytes
  evidenceCid := a.evidenceCid
  softwareDigest := a.softwareDigest
  isMatch := a.errors.isEmpty
  challenges := a.challenges

/-- `_verify_and_attest`, with its calls to the program. -/
def attestBranch (d : Daemon) (key : Digest) (job : Job) : Run Bool := do
  let answer ← Process.query (Op.work key)
  let s ← called answer
  let verdict ← Process.lift ((verifyAndAttest (d.within s).toVerifier key job).mapError .branch)
  match verdict with
  | .otherModel => do
    let _ ← count .reexecutionModelMismatches
    pure false
  | .refused _ => do
    let _ ← count .receiptVerificationRefusals
    pure false
  | .attested a => report .attestationsSubmitted .mismatches key (Attestation.finding job a)

/-- `_verify_and_attest_aggregate`, with its calls to the program. -/
def attestAggregate (d : Daemon) (key : Digest) (job : Job) : Run Bool := do
  let answer ← Process.query (Op.work key)
  let s ← called answer
  let a ← Process.lift
    ((verifyAndAttestAggregate (d.within s).aggregate key job).mapError .aggregate)
  report .aggregateAttestationsSubmitted .aggregateMismatches key (AggregateAttestation.finding a)

/-- The handlers of `run_once` for a branch job. -/
def branchHandler : Failure → Metric
  | .call (.rpc _) => .attestationRaces
  | .call (.ipfs _) => .reexecutionFailures
  | .call (.endpoint _ _) => .reexecutionFailures
  | .branch (.ipfs _) => .reexecutionFailures
  | .branch (.execution (.endpoint _ _)) => .reexecutionFailures
  | .branch (.execution (.ipfs _)) => .reexecutionFailures
  | .branch (.execution (.modelOutputRejected _ _)) => .reexecutionFailures
  | _ => .attestationsFailed

/-- The handlers of `run_once` for an aggregate job. -/
def aggregateHandler : Failure → Metric
  | .call (.rpc _) => .attestationRaces
  | .call (.ipfs _) => .aggregateVerificationFailures
  | .aggregate (.account (.rpc _)) => .attestationRaces
  | .aggregate (.ipfs _) => .aggregateVerificationFailures
  | .aggregate (.rejected _) => .aggregateVerificationFailures
  | .aggregate (.badReceipt _) => .aggregateVerificationFailures
  | _ => .attestationsFailed

/-- A job whose exception is counted. -/
def attempt (handler : Failure → Metric) (p : Run Bool) : Run Bool :=
  p.recover (fun failure =>
    if failure.escapes then .raise failure
    else do
      let _ ← count (handler failure)
      pure false)

/-- The work on one attestable job, or none for another job. -/
def workOn (d : Daemon) (now : ℕ) (key : Digest) (job : Job) : Option (Run Bool) :=
  if matchesAttestableAggregateJob d.aggregate job now then
    some (attempt aggregateHandler (attestAggregate d key job))
  else if matchesAttestableBranchJob d.toVerifier job now then
    some (attempt branchHandler (attestBranch d key job))
  else none

/-- The loop of `run_once`. -/
def walk (d : Daemon) (now : ℕ) : List (Digest × Job) → ℕ → Run ℕ
  | [],processed => pure processed
  | (key,job)::jobs,processed =>
    match workOn d now key job with
    | none => walk d now jobs processed
    | some p => do
      let done ← p
      walk d now jobs (if done then processed+1 else processed)

/-- A deadline is an integer, so the clock is compared with it at its whole second. -/
def runOnce (d : Daemon) : Run ℕ := do
  let now ← Process.query Op.clock
  let answer ← Process.query Op.jobs
  let jobs ← fetched answer
  walk d ⌊now⌋₊ jobs 0

end Daemon

end Kswarm.Worker.Verifying
