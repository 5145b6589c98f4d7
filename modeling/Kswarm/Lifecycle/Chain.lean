import Kswarm.Cli.PredictRun
import Mathlib.Logic.Function.Basic

/-! The world a run lives in: its manifest file, the job accounts, and the program that owns them.
The program is not part of this repository; what the commands rely on is stated as its laws. -/
namespace Kswarm.Lifecycle
open Cli Worker

abbrev Chain := Digest → Option Job

/-- The on-chain program: its addresses, the effect of a transaction that lands, and what everyone
but the holder of a wallet can do in the meantime. -/
structure Program where
  jobPda : Digest → ℕ → Digest
  executes : Chain → Transaction → Chain → Prop
  others : Digest → Chain → Chain → Prop
  others_refl : ∀ who c, others who c c
  others_trans : ∀ who a b c, others who a b → others who b c → others who a c

/-- The run file, the job accounts, the transactions the commands landed, and the payloads handed
to the proof hook. -/
structure World where
  file : Option RunManifest
  chain : Chain
  landed : List Transaction
  hooked : List Json

def World.store (w : World) (run : RunManifest) : World := {w with file := some run}

@[simp] theorem World.store_file (w : World) (run : RunManifest) :
    (w.store run).file = some run := rfl
@[simp] theorem World.store_chain (w : World) (run : RunManifest) :
    (w.store run).chain = w.chain := rfl
@[simp] theorem World.store_landed (w : World) (run : RunManifest) :
    (w.store run).landed = w.landed := rfl

/-- The world after a transaction of ours took the accounts to `c`. -/
def World.land (w : World) (transaction : Transaction) (c : Chain) : World :=
  {w with chain := c, landed := w.landed ++ [transaction]}

/-- A transaction lands. -/
def Lands (P : Program) (transaction : Transaction) (w v : World) : Prop :=
  ∃ c, P.executes w.chain transaction c ∧
    v = {w with chain := c, landed := w.landed ++ [transaction]}

/-- Reads see the world as it is. A call that raises changes nothing, except that a save may have
replaced the file and a transaction may have landed before the error came back: here it lands during
its call or never, and one that lands later is the matter of `lateService`. -/
def answers (P : Program) : (o : Op) → World → Ans o → World → Prop
  | .load,w,answer,v => answer = w.file ∧ v = w
  | .save run,w,answer,v => (answer = .ok () ∧ v = w.store run) ∨
      ∃ text : String, answer = .error text ∧ (v = w ∨ v = w.store run)
  | .fetchJob job,w,answer,v => v = w ∧
      (answer = .ok (w.chain job) ∨ ∃ e : RpcError, answer = .error e)
  | .accountInfos jobs,w,answer,v => v = w ∧
      (answer = .ok (jobs.map (fun job => (w.chain job).isSome)) ∨
        ∃ e : RpcError, answer = .error e)
  | .send transaction,w,answer,v =>
      (∃ signature : String, answer = .ok signature ∧ Lands P transaction w v) ∨
      ∃ e : RpcError, answer = .error e ∧ (v = w ∨ Lands P transaction w v)
  | .hook _ payload,w,_,v => v = {w with hooked := w.hooked ++ [payload]}
  | _,w,_,v => v = w

/-- Only a transaction that lands moves the accounts. -/
lemma answers_moves {P : Program} {o : Op} {w v : World} {a : Ans o} (h : answers P o w a v) :
    (v.chain = w.chain ∧ v.landed = w.landed) ∨
      ∃ transaction, o = .send transaction ∧ Lands P transaction w v := by
  cases o with
  | send transaction =>
    rcases h with ⟨_,_,hland⟩ | ⟨_,_,rfl | hland⟩
    · exact .inr ⟨transaction,rfl,hland⟩
    · exact .inl ⟨rfl,rfl⟩
    · exact .inr ⟨transaction,rfl,hland⟩
  | save run =>
    rcases h with ⟨_,rfl⟩ | ⟨_,_,rfl | rfl⟩
    · exact .inl ⟨rfl,rfl⟩
    · exact .inl ⟨rfl,rfl⟩
    · exact .inl ⟨rfl,rfl⟩
  | load =>
    obtain ⟨_,rfl⟩ := h
    exact .inl ⟨rfl,rfl⟩
  | fetchJob job =>
    obtain ⟨rfl,_⟩ := h
    exact .inl ⟨rfl,rfl⟩
  | accountInfos jobs =>
    obtain ⟨rfl,_⟩ := h
    exact .inl ⟨rfl,rfl⟩
  | hook command payload =>
    obtain rfl : v = _ := h
    exact .inl ⟨rfl,rfl⟩
  | _ =>
    obtain rfl : v = w := h
    exact .inl ⟨rfl,rfl⟩

/-- The world as the holder of a wallet meets it. -/
def service (P : Program) (who : Digest) : Service Op Ans World where
  serves := answers P
  drifts w v := P.others who w.chain v.chain ∧ v.file = w.file ∧ v.landed = w.landed ∧
    v.hooked = w.hooked
  drifts_refl w := ⟨P.others_refl who w.chain,rfl,rfl,rfl⟩
  drifts_trans _ _ _ h h' := ⟨P.others_trans _ _ _ _ h.1 h'.1,h'.2.1.trans h.2.1,
    h'.2.2.1.trans h.2.2.1,h'.2.2.2.trans h.2.2.2⟩

/-- The job still waits for its artifact. -/
def Awaiting (job : Job) : Prop := job.status = jobStatusAwaitingArtifact

instance (job : Job) : Decidable (Awaiting job) :=
  inferInstanceAs (Decidable (job.status = jobStatusAwaitingArtifact))

/-- What others leave of a customer's account: only the customer creates it or moves it on from
awaiting its artifact, and what was committed stays committed. -/
def Keeps (before after : Option Job) : Prop :=
  match before with
  | none => after = none
  | some job => if Awaiting job then after = some job
    else ∃ job', after = some job' ∧ ¬Awaiting job' ∧ job'.inputCid = job.inputCid ∧
      job'.customer = job.customer

/-- What the commands rely on: the documented behaviour of the program and of its addresses. -/
structure Lawful (P : Program) (customer : Digest) : Prop where
  derived : ∀ m n, m ≤ nonceMax → n ≤ nonceMax → P.jobPda customer m = P.jobPda customer n → m = n
  opens : ∀ c args c', P.executes c (.openJob customer args) c' →
    c (P.jobPda customer args.nonce) = none ∧
    ∃ job, c' = Function.update c (P.jobPda customer args.nonce) (some job) ∧ Awaiting job ∧
      job.customer = customer
  commits : ∀ c key cid c', P.executes c (.commitInputArtifact customer key cid) c' →
    ∃ job job', c key = some job ∧ Awaiting job ∧ c' = Function.update c key (some job') ∧
      ¬Awaiting job' ∧ job'.inputCid = cid ∧ job'.customer = job.customer
  cancels : ∀ c who key c', P.executes c (.cancelOpenJob who key) c' →
    ∃ job job', c key = some job ∧ (Awaiting job ∨ job.status = jobStatusOpen) ∧
      c' = Function.update c key (some job') ∧ job'.status = jobStatusCancelled
  others : ∀ c c', P.others customer c c' → ∀ n,
    Keeps (c (P.jobPda customer n)) (c' (P.jobPda customer n))

section Sample

/-- The account `open_job` creates. -/
def openedJob (customer : Digest) (args : OpenJobArgs) : Job where
  status := jobStatusAwaitingArtifact
  submittedResultHash := zeroHash
  outputCid := ""
  resultBytes := []
  verifierAttestationHash := none
  jobClass := args.jobClass
  customer := customer
  worker := zeroHash
  inputCid := ""
  inputBundleHash := args.inputBundleHash
  expectedResultHash := args.expectedResultHash
  requiredSoftwareDigest := args.requiredSoftwareDigest
  verifierAuthority := none
  challengeDeadline := 0

/-- Replace an account the program accepts. -/
def moveJob (c : Chain) (key : Digest) (accepts : Job → Bool) (move : Job → Job) : Option Chain :=
  match c key with
  | some job => if accepts job then some (Function.update c key (some (move job))) else none
  | none => none

/-- A program that does exactly what the transactions of a run need. -/
def sampleExecute (c : Chain) : Transaction → Option Chain
  | .openJob customer args => if (c (natKey args.nonce)).isSome then none
      else some (Function.update c (natKey args.nonce) (some (openedJob customer args)))
  | .commitInputArtifact customer job inputCid => moveJob c job
      (fun j => decide (j.status = jobStatusAwaitingArtifact) && decide (j.customer = customer))
      (fun j => {j with status := jobStatusOpen, inputCid := inputCid})
  | .cancelOpenJob customer job => moveJob c job
      (fun j => (decide (j.status = jobStatusAwaitingArtifact) || decide (j.status = jobStatusOpen)) &&
        decide (j.customer = customer))
      (fun j => {j with status := jobStatusCancelled})
  | .claimJob worker job => moveJob c job (fun j => decide (j.status = jobStatusOpen))
      (fun j => {j with status := jobStatusClaimed, worker := worker})
  | .submitReceipt worker job outputCid resultBytes => moveJob c job
      (fun j => decide (j.status = jobStatusClaimed) && decide (j.worker = worker))
      (fun j => {j with
        status := jobStatusCompleted
        outputCid := outputCid
        resultBytes := resultBytes
        submittedResultHash := sha256 resultBytes })

/-- An open job after a worker answered it and it was settled. -/
def settledJob (job : Job) (resultBytes : Bytes) : Job :=
  {job with
    status := jobStatusSettled
    submittedResultHash := sha256 resultBytes
    outputCid := "cid-output"
    resultBytes := resultBytes }

/-- An account left alone, or an open job settled by others. -/
def Settles (before after : Option Job) : Prop :=
  after = before ∨ ∃ job bytes, before = some job ∧ job.status = jobStatusOpen ∧
    after = some (settledJob job bytes)

lemma Settles.trans {a b c : Option Job} (h : Settles a b) (h' : Settles b c) : Settles a c := by
  rcases h with rfl | ⟨job,bytes,rfl,hopen,rfl⟩
  · exact h'
  · rcases h' with rfl | ⟨job',_,hjob,hopen',-⟩
    · exact .inr ⟨job,bytes,rfl,hopen,rfl⟩
    · obtain rfl := Option.some.inj hjob
      simp [settledJob,jobStatusSettled,jobStatusOpen] at hopen'

/-- A chain on which others only work on open jobs. -/
def sampleProgram : Program where
  jobPda _ nonce := natKey nonce
  executes c transaction c' := sampleExecute c transaction = some c'
  others _ c c' := ∀ key, Settles (c key) (c' key)
  others_refl _ _ _ := .inl rfl
  others_trans _ _ _ _ h h' key := (h key).trans (h' key)

lemma moveJob_eq_some {c c' : Chain} {key : Digest} {accepts : Job → Bool} {move : Job → Job} :
    moveJob c key accepts move = some c' ↔
      ∃ job, c key = some job ∧ accepts job = true ∧ c' = Function.update c key (some (move job)) := by
  unfold moveJob
  cases hkey : c key with
  | none => simp
  | some job =>
    by_cases ha : accepts job = true
    · simp only [ha,if_true,Option.some.injEq,exists_eq_left',true_and]
      exact eq_comm
    · simp [ha]

lemma natKey_inj {m n : ℕ} (hm : m ≤ nonceMax) (hn : n ≤ nonceMax) (h : natKey m = natKey n) :
    m = n := by
  have hnumber := congrArg keyNat h
  rw [nonceMax] at hm hn
  rwa [keyNat_natKey (by omega),keyNat_natKey (by omega)] at hnumber

lemma keeps_refl (account : Option Job) : Keeps account account := by
  cases account with
  | none => rfl
  | some job =>
    by_cases ha : Awaiting job
    · simp [Keeps,ha]
    · simp only [Keeps,ha,if_false]
      exact ⟨job,rfl,ha,rfl,rfl⟩

theorem sampleProgram_lawful (customer : Digest) : Lawful sampleProgram customer where
  derived _ _ := natKey_inj
  opens c args c' h := by
    change (if (c (natKey args.nonce)).isSome = true then none else some _) = some c' at h
    split at h
    · cases h
    · rename_i hnone
      have hkey : c (natKey args.nonce) = none := by simpa using hnone
      exact ⟨hkey,_,(Option.some.inj h).symm,rfl,rfl⟩
  commits c key cid c' h := by
    obtain ⟨job,hjob,haccepts,rfl⟩ := moveJob_eq_some.mp h
    simp only [Bool.and_eq_true,decide_eq_true_eq] at haccepts
    exact ⟨job,_,hjob,haccepts.1,rfl,by simp [Awaiting,jobStatusOpen,jobStatusAwaitingArtifact],
      rfl,rfl⟩
  cancels c who key c' h := by
    obtain ⟨job,hjob,haccepts,rfl⟩ := moveJob_eq_some.mp h
    simp only [Bool.and_eq_true,Bool.or_eq_true,decide_eq_true_eq] at haccepts
    exact ⟨job,_,hjob,haccepts.1,rfl,rfl⟩
  others c c' h n := by
    rcases h (natKey n) with hsame | ⟨job,bytes,hjob,hopen,hafter⟩
    · rw [show c' (sampleProgram.jobPda customer n) = c (sampleProgram.jobPda customer n) from hsame]
      exact keeps_refl _
    · have hpast : ¬Awaiting job := by
        simp [Awaiting,hopen,jobStatusOpen,jobStatusAwaitingArtifact]
      change Keeps (c (natKey n)) (c' (natKey n))
      rw [hjob,hafter]
      simp only [Keeps,hpast,if_false]
      exact ⟨_,rfl,by simp [Awaiting,settledJob,jobStatusSettled,jobStatusAwaitingArtifact],rfl,rfl⟩

end Sample

end Kswarm.Lifecycle
