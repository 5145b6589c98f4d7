import Kswarm.Worker.ClaimDiscipline
import Kswarm.Worker.Reexecution

/-! The whole pass of the branch worker: its claims stay within the cap unless a claim lands while
its call raises, and each of them ends in a receipt or in the trip of the breaker exactly when every
failure after it is one that the daemon handles. -/
namespace Kswarm.Worker.Branch
open Accounts Protocol

/-- An exception raised before a claim. -/
def Early : Escape → Prop
  | .notRegistered => True
  | .beforeClaim _ => True
  | _ => False

section Discipline
variable [CharData]

/-- The pass gave up the claim on a job and tripped the breaker. -/
def Abandoned (c : Config) (start : ℚ) (r : Except Escape PassResult) (job : Digest) (w : World) :
    Prop :=
  ∃ pass, r = .ok pass ∧ pass.abandoned.map Abandonment.job = some job ∧
    ∃ time, start ≤ time ∧ time ≤ w.now ∧ pass.breaker = .trip c time

/-- Each of these claims has its receipt, or was given up. -/
def Accounted (c : Config) (start : ℚ) (r : Except Escape PassResult) (w : World)
    (claims : List Digest) : Prop := ∀ job ∈ claims, job ∈ w.receipts ∨ Abandoned c start r job w

/-- How a pass ends: in order, or with a failure after a claim that the daemon does not handle. -/
def Ends (c : Config) (start : ℚ) (r : Except Escape PassResult) (w : World) : Prop :=
  (Clean w ∧ (∀ e, r = .error e → Early e) ∧ Accounted c start r w w.claimed) ∨
    (¬Clean w ∧ ∃ e, r = .error e ∧ Lost e)

section Pass
variable {c : Config} {readInput : Bytes → Option BranchInput} {start : ℚ} {budget : ℤ}
  {job : Digest} {failed : ℕ} {w : World} {active : ℕ} {α : Type}

lemma Busy.accounted (hw : Busy c start budget none failed w) (r : Except Escape PassResult) :
    Accounted c start r w w.claimed := by
  intro job hjob
  rcases hw.settled job hjob with hr | hr
  · exact .inl hr
  · cases hr

/-- A pass in order with no claim open, whose attempts so far all had their backoff. -/
def Rests (c : Config) (start : ℚ) (budget : ℤ) (w : World) : Prop :=
  ∃ failed ≤ lastBackoff, Busy c start budget none failed w

namespace Rests

lemma query {o : Op} {f : Ans o → Run α} {post : Except Escape α → World → Prop}
    (hw : Rests c start budget w)
    (h : ∀ failed ≤ lastBackoff, ∀ v, Busy c start budget none failed v → ∀ answer u,
      acts o v answer u →
      Safe ledger (Within c active) (fun _ _ => True) post (f answer) (u.tell o answer)) :
    Safe ledger (Within c active) (fun _ _ => True) post (Process.query o >>= f) w := by
  obtain ⟨failed,hfailed,hw⟩ := hw
  apply hw.query
  intro v hv _ answer u hu
  exact h failed hfailed v hv answer u hu

lemma done {a : α} {post : Except Escape α → World → Prop} (hw : Rests c start budget w)
    (h : ∀ v, Rests c start budget v → post (.ok a) v) :
    Safe ledger (Within c active) (fun _ _ => True) post (.done a) w := by
  obtain ⟨failed,hfailed,hw⟩ := hw
  apply hw.done
  intro v hv _
  exact h v ⟨failed,hfailed,hv⟩

lemma finish {r : Except Escape PassResult} (hw : Rests c start budget w)
    (hr : ∀ e, r = .error e → Early e) : Ends c start r w := by
  obtain ⟨failed,hfailed,hw⟩ := hw
  exact .inl ⟨hw.clean hfailed,hr,hw.accounted r⟩

lemma ends {pass : PassResult} (hw : Rests c start budget w) :
    Safe ledger (Within c active) (fun _ _ => True) (Ends c start) (.done pass) w :=
  hw.done (fun _ hv => hv.finish (fun _ he => nomatch he))

end Rests

/-- A program run while no claim is open: what it raises was raised before a claim. -/
def Awaits (c : Config) (start : ℚ) (budget : ℤ) (active : ℕ) (p : Run α) (w : World)
    (Q : α → World → Prop) : Prop :=
  Safe ledger (Within c active) (fun _ _ => True)
    (fun r v => match r with
      | .ok a => Q a v
      | .error e => Early e ∧ Rests c start budget v) p w

lemma Awaits.andThen {p : Run α} {f : α → Run PassResult} {Q : α → World → Prop}
    (h : Awaits c start budget active p w Q)
    (hf : ∀ a v, Q a v → Safe ledger (Within c active) (fun _ _ => True) (Ends c start) (f a) v) :
    Safe ledger (Within c active) (fun _ _ => True) (Ends c start) (p >>= f) w := by
  apply Safe.andThen h (fun a v _ ha => hf a v ha)
  rintro e v _ ⟨he,hv⟩
  apply hv.finish
  intro e' he'
  cases he'
  exact he

lemma Rests.early {e : Escape} {Q : α → World → Prop} (hw : Rests c start budget w)
    (he : Early e) : Awaits c start budget active (.raise e) w Q := by
  obtain ⟨failed,hfailed,hw⟩ := hw
  intro v hd
  have hv := hw.drift hd
  exact ⟨hv.within active,he,failed,hfailed,hv⟩

lemma absorbed_awaits (answer : Except CallError Unit) (hw : Rests c start budget w) :
    Awaits c start budget active (absorbed answer) w (fun _ => Rests c start budget) := by
  unfold absorbed
  split
  · exact hw.done (fun _ hv => hv)
  · exact hw.done (fun _ hv => hv)
  · exact hw.done (fun _ hv => hv)
  · exact hw.early trivial

lemma preflightOk_awaits (hw : Rests c start budget w) :
    Awaits c start budget active preflightOk w (fun _ => Rests c start budget) := by
  unfold preflightOk
  apply hw.query
  rintro failed hfailed v hv answer u rfl
  have hplain : ¬Uncaught .checkEndpoint answer := id
  have htold : Rests c start budget (u.tell .checkEndpoint answer) :=
    ⟨failed,hfailed,hv.tell hplain⟩
  apply Safe.andThen (absorbed_awaits answer htold) _ (fun _ _ _ he => he)
  intro reachable v _ hv
  split
  · apply Rests.query hv
    rintro failed hfailed v hv answer u rfl
    have hplain : ¬Uncaught .ipfsCheck answer := id
    exact absorbed_awaits answer ⟨failed,hfailed,hv.tell hplain⟩
  · exact Rests.done hv (fun _ hv => hv)

/-- A claim that returned is open and paid for; of one that raised the pass knows nothing. -/
lemma claim_awaits (hw : Rests c start budget w) (hbudget : 0 < budget) :
    Awaits c start budget active (claim job) w (fun
      | true => Busy c start (budget-1) (some job) 0
      | false => Rests c start budget) := by
  unfold claim
  apply hw.query
  intro failed hfailed v hv answer u hu
  have hplain : ¬Uncaught (.claimJob job) answer := id
  cases answer with
  | ok _ =>
    obtain rfl := hu
    have hopen : Busy c start (budget-1) (some job) 0 (World.tell {v with
        active := v.active + 1, claimed := v.claimed ++ [job]} (.claimJob job) (.ok ())) :=
      (hv.claim hbudget job).tell hplain
    exact hopen.done (fun v hv _ => hv)
  | error error =>
    have hu' : Rests c start budget (u.tell (.claimJob job) (.error error)) := by
      refine ⟨0,Nat.zero_le _,?_⟩
      rcases hu with rfl | rfl
      · exact hv.tell hplain
      · exact (hv.silently job).tell hplain
    cases error with
    | rpc error => exact hu'.done (fun _ hv => hv)
    | ipfs text => exact hu'.early trivial
    | endpoint text retryable => exact hu'.early trivial
    | other text => exact hu'.early trivial

/-- A claim that was given up trips the breaker at the end of the pass. -/
lemma abandon_ends {outcome : ExecutionOutcome} {stake : UInt64} {processed : ℕ}
    (hw : Busy c start budget (some job) failed w) (hfailed : failed ≤ lastBackoff) :
    Safe ledger (Within c active) (fun _ _ => True) (Ends c start) (do
      let tripped ← Process.query Op.clock
      pure (⟨processed,.trip c tripped,some ⟨job,outcome,stake⟩⟩ : PassResult)) w := by
  apply hw.query
  rintro v hv _ now u ⟨rfl,rfl⟩
  have hclock : ¬Uncaught .clock u.now := id
  have htold : Busy c start budget (some job) failed (u.tell .clock u.now) := hv.tell hclock
  apply htold.done
  intro v' hv' hd
  refine .inl ⟨hv'.clean hfailed,fun e he => (nomatch he),?_⟩
  intro k hk
  rcases hv'.settled k hk with hr | hr
  · exact .inl hr
  · exact .inr ⟨_,rfl,hr.symm,u.now,hv.time,hd.now,rfl⟩

lemma walk_ends (breaker : Breaker) (jobs : List (Digest × JobAccount)) (processed : ℕ)
    (hw : Rests c start budget w) :
    Safe ledger (Within c active) (fun _ _ => True) (Ends c start)
      (walk c readInput breaker start jobs budget processed) w := by
  induction jobs generalizing budget processed w with
  | nil => exact hw.ends
  | cons entry jobs ih =>
    obtain ⟨key,job⟩ := entry
    unfold walk
    split
    · exact ih processed hw
    split
    · exact hw.ends
    apply (preflightOk_awaits hw).andThen
    intro healthy v hv
    split
    · exact Rests.ends hv
    apply (claim_awaits hv (not_le.mp ‹_›)).andThen
    intro claimed v hv
    cases claimed with
    | false => exact ih processed hv
    | true =>
      apply Safe.andThen (executeClaimed_holds hv)
      · rintro outcome v _ ⟨⟨failed,hfailed,hbusy⟩,hreceipt⟩
        split
        · exact ih (processed+1) ⟨failed,hfailed,hbusy.close (hreceipt ‹_›)⟩
        · exact abandon_ends hbusy hfailed
      · intro e v _ he
        exact .inr ⟨he.2,e,rfl,he.1⟩

/-- A pass that has asked for no claim yet. -/
structure Idle (start : ℚ) (active : ℕ) (w : World) : Prop where
  clean : Clean w
  time : start ≤ w.now
  active : w.active ≤ active
  claimed : w.claimed = []
  silent : w.silent = []

namespace Idle
variable {v : World}

lemma drift (h : Idle start active w) (hd : Drifts w v) : Idle start active v where
  clean := ⟨hd.handled h.clean.handled,hd.failed.trans_le h.clean.failed_le⟩
  time := h.time.trans hd.now
  active := hd.active.trans h.active
  claimed := hd.claimed.trans h.claimed
  silent := hd.silent.trans h.silent

lemma tell (h : Idle start active w) {o : Op} {answer : Ans o} (ho : ¬Uncaught o answer)
    (ht : tally w.failed o answer = w.failed) : Idle start active (w.tell o answer) where
  clean := by
    refine ⟨handled_tell.mpr ⟨h.clean.handled,ho⟩,?_⟩
    rw [failed_tell,ht]
    exact h.clean.failed_le
  time := h.time
  active := h.active
  claimed := h.claimed
  silent := h.silent

lemma within (h : Idle start active w) (c : Config) : Within c active w := by
  intro _
  exact h.active.trans (le_max_right _ _)

lemma ends (h : Idle start active w) {r : Except Escape PassResult} (hr : ∀ e, r = .error e → Early e) :
    Ends c start r w := by
  refine .inl ⟨h.clean,hr,?_⟩
  rw [h.claimed]
  intro k hk
  cases hk

lemma rests (h : Idle start active w) (hbudget : 0 < budget)
    (hfits : (w.active : ℤ) + budget ≤ c.maxConcurrentClaims) : Rests c start budget w := by
  refine ⟨w.failed,h.clean.failed_le,h.clean.handled,rfl,h.time,hbudget.le,fun _ => hfits,?_⟩
  rw [h.claimed]
  intro k hk
  cases hk

lemma query {o : Op} {f : Ans o → Run α} {post : Except Escape α → World → Prop}
    (hw : Idle start active w)
    (h : ∀ v, Idle start active v → ∀ answer u, acts o v answer u →
      Safe ledger (Within c active) (fun _ _ => True) post (f answer) (u.tell o answer)) :
    Safe ledger (Within c active) (fun _ _ => True) post (Process.query o >>= f) w := by
  intro v hd
  have hv := hw.drift hd
  refine ⟨hv.within c,trivial,?_⟩
  rintro answer _ ⟨u,hacts,rfl⟩
  exact h v hv answer u hacts

lemma liftEnd {r : Except Escape PassResult} (hw : Idle start active w)
    (hr : ∀ e, r = .error e → Early e) :
    Safe ledger (Within c active) (fun _ _ => True) (Ends c start) (.lift r) w := by
  apply Safe.liftEnd (J := Idle start active) (fun _ _ hd hw => hw.drift hd) hw
  intro v hv
  exact ⟨hv.within c,hv.ends hr⟩

end Idle

/-- What the budget leaves room for: claims that end meanwhile only make it larger. -/
lemma claimBudget_fits (hw : Idle start active w) :
    Safe ledger (Within c active) (fun _ _ => True) (fun r v => Idle start active v ∧
      (∀ b, r = .ok b → (v.active : ℤ) + b ≤ c.maxConcurrentClaims) ∧
      ∀ e, r = .error e → Early e) (claimBudget c) w := by
  unfold claimBudget
  apply hw.query
  rintro v hv answer u ⟨hanswer,rfl⟩
  have hplain : ¬Uncaught .workerAccount answer := id
  have htold := hv.tell hplain rfl
  cases answer with
  | error error =>
    intro v hd
    have hv := htold.drift hd
    refine ⟨hv.within c,hv,fun b hb => (nomatch hb),?_⟩
    rintro e ⟨⟩
    trivial
  | ok worker =>
    cases worker with
    | none =>
      intro v hd
      have hv := htold.drift hd
      refine ⟨hv.within c,hv,fun b hb => (nomatch hb),?_⟩
      rintro e ⟨⟩
      trivial
    | some n =>
      intro v hd
      have hv := htold.drift hd
      refine ⟨hv.within c,hv,?_,fun e he => (nomatch he)⟩
      rintro b ⟨⟩
      have hn := hanswer n rfl
      have hactive : v.active ≤ u.active := hd.active
      omega

lemma Ends.earlier {time : ℚ} {r : Except Escape PassResult} (h : Ends c start r w)
    (ht : time ≤ start) : Ends c time r w := by
  rcases h with ⟨hclean,hearly,hall⟩ | h
  · refine .inl ⟨hclean,hearly,?_⟩
    intro k hk
    rcases hall k hk with hr | ⟨pass,hpass,hjob,tripped,hstart,hnow,htrip⟩
    · exact .inl hr
    · exact .inr ⟨pass,hpass,hjob,tripped,ht.trans hstart,hnow,htrip⟩
  · exact .inr h

lemma jobs_ends (breaker : Breaker) (hw : Rests c start budget w) :
    Safe ledger (Within c active) (fun _ _ => True) (Ends c start) (do
      let answer ← Process.query Op.jobs
      let jobs ← before answer
      walk c readInput breaker start jobs budget 0) w := by
  apply hw.query
  rintro failed hfailed v hv answer u rfl
  have hplain : ¬Uncaught .jobs answer := id
  have htold : Rests c start budget (u.tell .jobs answer) := ⟨failed,hfailed,hv.tell hplain⟩
  cases answer with
  | error error =>
    exact Awaits.andThen (p := before (.error error)) (htold.early trivial) (fun _ _ ha => ha)
  | ok jobs => exact walk_ends breaker jobs 0 htold

lemma runOnce_ends (c : Config) (readInput : Bytes → Option BranchInput) (breaker : Breaker)
    (now : ℚ) (active : ℕ) :
    Safe ledger (Within c active) (fun _ _ => True) (Ends c now) (runOnce c readInput breaker)
      (opening now active) := by
  have hopening : Idle now active (opening now active) :=
    ⟨⟨fun _ hentry => (nomatch hentry),Nat.zero_le _⟩,le_rfl,le_rfl,rfl,rfl⟩
  unfold runOnce
  apply hopening.query
  rintro v hv start u ⟨rfl,rfl⟩
  have hclock : ¬Uncaught .clock u.now := id
  have hstart : Idle u.now active (u.tell .clock u.now) :=
    {hv.tell hclock rfl with time := le_rfl}
  refine Safe.weaken ?_ (fun r v _ (h : Ends c u.now r v) => h.earlier hv.time)
  split
  · exact hstart.liftEnd (r := .ok _) (fun e he => (nomatch he))
  · apply Safe.andThen (claimBudget_fits hstart)
    · rintro budget v _ ⟨hv,hfits,_⟩
      split
      · exact hv.liftEnd (r := .ok _) (fun e he => (nomatch he))
      · exact jobs_ends breaker (hv.rests (not_le.mp ‹_›) (hfits budget rfl))
    · rintro e v _ ⟨hv,_,hearly⟩
      exact hv.ends (fun e' he' => hearly e' (by cases he'; rfl))

end Pass

end Discipline

section Results

/-- One claim at a time, with a cooldown of five minutes. -/
def sampleConfig : Config where
  wallet := natKey 9
  capabilities := []
  softwareDigest := zeroBytes
  role := 1
  tier := 1
  maxConcurrentClaims := 1
  claimCooldownSeconds := 300
  executeDeadlineMarginSeconds := 60
  executeRetryInitialSeconds := 5
  executeRetryMaxSeconds := 60
  claims_pos := by decide
  cooldown_nonneg := by decide
  initial_pos := by decide
  initial_le_max := by decide

/-- A branch job that any worker may claim for a hundred seconds. -/
def openJob : JobAccount where
  bump := 255
  nonce := 1
  customer := natKey 8
  worker := natKey 0
  status := statusOpen
  rewardAmount := 10
  requiredStake := 100
  jobClass := classBranchProof
  requiredRole := 1
  requiredTier := 0
  requiredCapabilityClassHash := zeroBytes
  requiredSoftwareDigest := zeroBytes
  createdAt := 0
  claimDeadline := 100
  executionWindowSeconds := 600
  executeDeadline := 0
  challengeWindowSeconds := 600
  challengeDeadline := 0
  challengeBond := 1
  challenger := natKey 0
  slashSettled := false
  escrowRefunded := false
  verifierRewardPaid := false
  customerSlashPaid := false
  inputBundleHash := zeroBytes
  expectedResultHash := zeroBytes
  submittedResultHash := zeroBytes
  inputCid := "cid-input"
  outputCid := ""
  resultBytes := []
  verifierAuthority := none
  verifierAttestationHash := none
  verifierEvidenceCid := none
  verifierAttestationUnix := none
  assignedVerifierAuthority := none
  assignedVerifierUnix := none
  reassignmentCounter := 0

def claimedJob : JobAccount :=
  {openJob with status := statusClaimed, worker := natKey 9, executeDeadline := 600}

/-- A committed input that asks for no context window at all. -/
def noContextInput : BranchInput := {labelInput with parameters := [("num_ctx",.int 0)]}

def noContextText : Bytes := utf8 (Json.render noContextInput.modelDump.sortKeys)

def readNoContext (bytes : Bytes) : Option BranchInput :=
  if bytes = noContextText then some noContextInput else none

/-- A claim that lands whatever its call answers. -/
def landClaim (key : Digest) (w : World) : Except CallError Unit → Except CallError Unit × World
  | .ok _ => (.ok (),{w with active := w.active + 1, claimed := w.claimed ++ [key]})
  | .error error => (.error error,{w with active := w.active + 1, silent := w.silent ++ [key]})

/-- A cluster with two open jobs. The claim on the first may raise although it landed, and the store
serves one document. -/
def respond (first : Except CallError Unit) (document : Bytes) : (o : Op) → World → Ans o × World
  | .clock,w => (w.now,w)
  | .sleep seconds,w => ((),{w with now := w.now + seconds})
  | .workerAccount,w => (.ok (some w.active),w)
  | .jobs,w => (.ok [(natKey 1,openJob),(natKey 2,openJob)],w)
  | .checkEndpoint,w => (.ok (),w)
  | .ipfsCheck,w => (.ok (),w)
  | .claimJob key,w => landClaim key w (if key = natKey 1 then first else .ok ())
  | .job _,w => (.ok (some claimedJob),w)
  | .catBytes _,w => (.ok document,w)
  | .execute _ _,w => (.ok (labelHost "http://worker" 0 0),w)
  | .submitReceipt key _ _,w => (.ok (),{w with receipts := w.receipts ++ [key]})

def respondTold (first : Except CallError Unit) (document : Bytes) (o : Op) (w : World) :
    Ans o × World :=
  ((respond first document o w).1,(respond first document o w).2.tell o (respond first document o w).1)

lemma ledger_respond (first : Except CallError Unit) (document : Bytes) (o : Op) (w : World) :
    ledger.serves o w (respondTold first document o w).1 (respondTold first document o w).2 := by
  refine ⟨(respond first document o w).2,?_,rfl⟩
  cases o with
  | clock => exact ⟨rfl,rfl⟩
  | workerAccount =>
    refine ⟨?_,rfl⟩
    rintro n ⟨⟩
    rfl
  | claimJob key =>
    change acts (.claimJob key) w (landClaim key w _).1 (landClaim key w _).2
    cases (if key = natKey 1 then first else .ok ()) with
    | ok _ => rfl
    | error error => exact .inr rfl
  | sleep seconds => rfl
  | jobs => rfl
  | checkEndpoint => rfl
  | ipfsCheck => rfl
  | job key => rfl
  | catBytes cid => rfl
  | execute job branchInput => rfl
  | submitReceipt job cid bytes => rfl

local instance : CharData := CharData.ascii

def samplePlay (first : Except CallError Unit) (document : Bytes) : World × Run PassResult :=
  Process.play (respondTold first document) 20 (opening 0 0)
    (runOnce sampleConfig readNoContext ⟨0⟩)

lemma reaches_samplePlay (first : Except CallError Unit) (document : Bytes) :
    Reaches ledger (opening 0 0) (runOnce sampleConfig readNoContext ⟨0⟩)
      (samplePlay first document).1 (samplePlay first document).2 :=
  .play (ledger_respond first document) _ _ _

def abandonedJob : Run PassResult → Option Digest
  | .done pass => pass.abandoned.map Abandonment.job
  | _ => none

lemma exists_pass {p : Run PassResult} {job : Digest} (h : abandonedJob p = some job) :
    ∃ pass, p = .done pass ∧ pass.abandoned.map Abandonment.job = some job := by
  cases p with
  | done pass => exact ⟨pass,rfl,h⟩
  | raise e => cases h
  | ask o next => cases h

/-- The input of the first job is no valid input: its claim is given up. -/
lemma sample_abandons : ∃ v pass,
    Reaches ledger (opening 0 0) (runOnce sampleConfig readNoContext ⟨0⟩) v (.lift (.ok pass)) ∧
      v.claimed = [natKey 1] ∧ v.silent = [] ∧ Clean v := by
  obtain ⟨pass,hpass,_⟩ := exists_pass
    (by decide +kernel : abandonedJob (samplePlay (.ok ()) []).2 = some (natKey 1))
  have hrun := reaches_samplePlay (.ok ()) []
  rw [hpass] at hrun
  refine ⟨_,pass,hrun,by decide +kernel,by decide +kernel,?_⟩
  rcases ((runOnce_ends _ _ _ _ _).reaches hrun).outcome with ⟨hclean,_⟩ | ⟨_,e,he,_⟩
  · exact hclean
  · cases he

variable {c : Config} {readInput : Bytes → Option BranchInput} {breaker : Breaker} {now : ℚ}
  {active : ℕ} {v : World}

/-- A pass keeps within its cap as long as no claim landed while its call raised, and then every
claim that landed is submitted or given up with the breaker tripped, unless a failure after it was
none that the daemon handles. -/
theorem claims_capped_and_accounted [CharData] {q : Run PassResult}
    (hrun : Reaches ledger (opening now active) (runOnce c readInput breaker) v q)
    (hsilent : v.silent = []) :
    v.active ≤ max c.maxConcurrentClaims active ∧
      ∀ r, q = .lift r → Clean v → Accounted c now r v v.landed := by
  have hsafe := (runOnce_ends c readInput breaker now active).reaches hrun
  refine ⟨hsafe.invariant hsilent,?_⟩
  rintro r rfl hclean
  rcases hsafe.ended with ⟨_,_,hall⟩ | ⟨hunclean,_⟩
  · unfold World.landed
    rwa [hsilent,List.append_nil]
  · exact absurd hclean hunclean

theorem claims_accounted_invalid_input : ∃ v pass,
    Reaches ledger (opening 0 0) (runOnce sampleConfig readNoContext ⟨0⟩) v (.lift (.ok pass)) ∧
      v.claimed = [natKey 1] ∧ v.active ≤ max sampleConfig.maxConcurrentClaims 0 ∧
      Accounted sampleConfig 0 (.ok pass) v v.landed := by
  obtain ⟨v,pass,hrun,hclaimed,hsilent,hclean⟩ := sample_abandons
  have h := claims_capped_and_accounted hrun hsilent
  exact ⟨v,pass,hrun,hclaimed,h.1,h.2 _ rfl hclean⟩

/-- The first claim lands while its confirmation times out: the second one exceeds the cap, and the
first is left behind. -/
theorem timed_out_claim_exceeds_cap : ∃ v pass,
    Reaches ledger (opening 0 0) (runOnce sampleConfig readNoContext ⟨0⟩) v (.lift (.ok pass)) ∧
      ¬v.active ≤ max sampleConfig.maxConcurrentClaims 0 ∧
      ¬Accounted sampleConfig 0 (.ok pass) v v.landed := by
  let first : Except CallError Unit :=
    .error (.rpc ⟨"ConfirmationTimeout","timed out waiting for the claim"⟩)
  obtain ⟨pass,hpass,habandoned⟩ := exists_pass
    (by decide +kernel : abandonedJob (samplePlay first []).2 = some (natKey 2))
  have hrun := reaches_samplePlay first []
  rw [hpass] at hrun
  refine ⟨_,pass,hrun,by decide +kernel,?_⟩
  intro hall
  have hlanded : natKey 1 ∈ (samplePlay first []).1.landed := by decide +kernel
  rcases hall _ hlanded with hreceipt | ⟨other,hother,hjob,_⟩
  · have hnone : natKey 1 ∉ (samplePlay first []).1.receipts := by decide +kernel
    exact hnone hreceipt
  · obtain rfl := Except.ok.inj hother
    have hne : some (natKey 2) ≠ some (natKey 1) := by decide +kernel
    exact hne (habandoned.symm.trans hjob)

end Results
end Kswarm.Worker.Branch
