import Kswarm.Lifecycle.Running
import Kswarm.Prediction.Plan
import Mathlib.Logic.Relation

/-! `predict open` and `predict resume`, each stopped anywhere: the next resume repeats no confirmed
step, and returns only when every planned branch is committed. -/
namespace Kswarm.Lifecycle
open Cli Worker

section Plan
variable [CharData] {P : Program} {customer : Digest} {h : OpenHost} {o : OpenOptions}
  {t : OpenTerms} {run : Run} {r : RunShape}

/-- The branches of a plan, at consecutive nonces that fit, with the aggregate's right after. -/
lemma predictOpen_planned (hopen : predictOpen h o = .ok (run,r)) :
    List.Forall₂ (fun i b => planBranch h o r (h.baseNonce+i,i) = .ok b) (List.range o.branches)
      run.branchJobs ∧ h.baseNonce+o.branches ≤ nonceMax ∧
      run.parentRun = keyText (h.jobPda h.customer (h.baseNonce+o.branches)) := by
  simp only [predictOpen,bind_eq_ok,failIf_eq_ok,ok_of_mapError,pure_eq_ok,Prod.mk.injEq] at hopen
  obtain ⟨-,-,-,-,kind,-,parameters,-,⟨nonces,aggregateNonce⟩,hnonces,_,-,_,-,_,-,_,-,_,-,_,-,jobs,
    hjobs,_,-,_,-,rfl,rfl⟩ := hopen
  simp only [plannedNonces,bind_eq_ok,failIf_eq_ok,pure_eq_ok,Prod.mk.injEq] at hnonces
  obtain ⟨-,hfit,rfl,rfl⟩ := hnonces
  rw [Prediction.zipIdx_range,mapM_eq_ok,List.forall₂_map_left_iff] at hjobs
  exact ⟨hjobs,by omega,rfl⟩

lemma planBranch_nonce {item : ℕ × ℕ} {b : BranchJob} (hb : planBranch h o r item = .ok b) :
    b.nonce = item.1 := by
  simp only [planBranch,bind_eq_ok,ok_of_mapError,pure_eq_ok] at hb
  obtain ⟨_,-,_,-,rfl⟩ := hb
  rfl

lemma predictOpen_nonces (hopen : predictOpen h o = .ok (run,r)) :
    run.branchJobs.map BranchJob.nonce = (List.range o.branches).map (h.baseNonce+·) :=
  (map_eq_of_forall₂ (predictOpen_planned hopen).1 (fun _ _ hb => (planBranch_nonce hb).symm)).symm

/-- What `predict open` saves first is well formed. -/
lemma openedManifest_wellFormed (hlaw : Lawful P customer) (hpda : h.jobPda = P.jobPda)
    (hcustomer : h.customer = customer) (hopen : predictOpen h o = .ok (run,r)) :
    WellFormed P customer (openedManifest h o t run) := by
  have hnonces := predictOpen_nonces hopen
  have hfit := (predictOpen_planned hopen).2.1
  have hjobs : (openedManifest h o t run).runJobEntries.map JobEntry.job =
      (List.range (o.branches+1)).map (fun i => P.jobPda customer (h.baseNonce+i)) := by
    have hb : (run.branchJobs.map (branchEntry h t)).map JobEntry.job =
        (run.branchJobs.map BranchJob.nonce).map (P.jobPda customer) := by
      simp only [List.map_map,← hpda,← hcustomer]
      rfl
    rw [runJobEntries_map,List.range_succ,List.map_append]
    change (run.branchJobs.map (branchEntry h t)).map JobEntry.job ++ _ = _
    rw [hb,hnonces,List.map_map,← hpda,← hcustomer]
    rfl
  refine ⟨hcustomer,?_,?_,?_⟩
  · intro e he
    rcases List.mem_append.mp he with hb | ha
    · obtain ⟨b,-,rfl⟩ := List.mem_map.mp hb
      rw [← hpda,← hcustomer]
      rfl
    · obtain rfl := List.mem_singleton.mp ha
      rw [← hpda,← hcustomer]
      rfl
  · rw [hjobs]
    refine List.Nodup.map_on ?_ List.nodup_range
    intro i hi j hj heq
    rw [List.mem_range] at hi hj
    have := hlaw.derived _ _ (by omega) (by omega) heq
    omega
  · intro e he
    obtain ⟨b,-,rfl⟩ := List.mem_map.mp he
    simp [branchEntry]

/-- What binding reads back of the saved manifest is the planned run. -/
lemma openedManifest_toRun (t : OpenTerms) (hopen : predictOpen h o = .ok (run,r)) :
    (openedManifest h o t run).toRun = run := by
  obtain ⟨hplanned,-,hparent⟩ := predictOpen_planned hopen
  have hjobs : ∀ xs jobs, List.Forall₂ (fun i b => planBranch h o r (h.baseNonce+i,i) = .ok b) xs jobs →
      jobs.map (fun b => {b with job := keyText (h.jobPda h.customer b.nonce)}) = jobs := by
    intro xs jobs hall
    induction hall with
    | nil => rfl
    | @cons i b xs jobs hb _ ih =>
      have hjob : keyText (h.jobPda h.customer b.nonce) = b.job := by
        rw [planBranch_nonce hb,(Prediction.planBranch_ok hb).2.1]
      rw [List.map_cons,ih,hjob]
  have hbranches := hjobs _ _ hplanned
  cases run
  simp only [RunManifest.toRun,openedManifest,List.map_map] at hparent hbranches ⊢
  rw [hparent]
  exact congrArg _ hbranches

omit [CharData] in
/-- Before any transaction the plan is exact. -/
lemma openedManifest_ahead {w : World} (hfile : w.file = none)
    (habsent : ∀ job ∈ (openedManifest h o t run).runJobEntries.map JobEntry.job,
      w.chain job = none) :
    Ahead (openedManifest h o t run) (openedManifest h o t run) w := by
  refine ⟨?_,.refl _,?_,by simp [RunManifest.runStatus,openedManifest]⟩
  · intro m hm
    simp [hfile] at hm
  · intro e he
    have hnone := habsent _ (List.mem_map_of_mem he)
    rcases List.mem_append.mp he with hb | ha
    · obtain ⟨b,-,rfl⟩ := List.mem_map.mp hb
      exact hnone
    · obtain rfl := List.mem_singleton.mp ha
      exact ⟨rfl,hnone⟩

end Plan

section Loading
variable {P : Program} {customer : Digest} {plan : RunManifest} {s : Session} {w : World}
  {K : World → Prop}

/-- Loading the manifest and going on from what was read. -/
lemma loadPredictRun_guards (hK : Stable (service P customer) K)
    (hinv : ∀ v, K v → FileTracked plan v) (hw : K w) :
    Guards P customer plan loadPredictRun w (fun m v => K v ∧ v.file = some m) := by
  apply Safe.query hK hw
  intro v hv
  refine ⟨hinv v hv,⟨trivial,trivial⟩,?_⟩
  intro answer u hserve
  obtain ⟨rfl,rfl⟩ := hserve
  have hstable : Stable (service P customer) (fun v => K v ∧ v.file = u.file) := by
    intro a b hd h
    exact ⟨hK a b hd h.1,hd.2.1.trans h.2⟩
  apply Safe.liftEnd hstable ⟨hv,rfl⟩
  intro v' hv'
  refine ⟨hinv v' hv'.1,?_⟩
  intro m hm
  exact ⟨hv'.1,hv'.2.trans (require_eq_ok.mp hm)⟩

/-- The wallet that signs for a run is its customer's. -/
lemma runSigner_guards (hlaw : Lawful P customer) (hplan : WellFormed P customer plan)
    (hK : Stable (service P customer) K) (hinv : ∀ v, K v → FileTracked plan v)
    (wallet : Option String) (m : RunManifest) (hw : K w) :
    Guards P customer plan (runSigner s wallet m) w
      (fun signer v => K v ∧ signer = m.customer) := by
  refine Safe.lift ?_ (fun e _ => refuse hlaw hplan (hinv w hw) e)
  intro signer _
  split
  · exact refuse hlaw hplan (hinv w hw) _
  · rename_i hsame
    apply Safe.done hK hw
    intro v hv
    refine ⟨hinv v hv,?_⟩
    intro signer' hs'
    obtain rfl := Except.ok.inj hs'
    exact ⟨hv,not_not.mp hsame⟩

end Loading

section Commands
variable {P : Program} {customer : Digest} {s : Session} {w : World}

/-- `predict open` keeps the file tracked wherever it stops, and repeats no step. -/
theorem predictOpenRun_guards [CharData] {h : OpenHost} {o : OpenOptions} {t : OpenTerms}
    {run : Run} {r : RunShape} (hlaw : Lawful P customer) (hpda : h.jobPda = P.jobPda)
    (hcustomer : h.customer = customer) (hopen : predictOpen h o = .ok (run,r))
    (hs : s.jobPda = P.jobPda) (hw : FileTracked (openedManifest h o t run) w) :
    Guards P customer (openedManifest h o t run) (predictOpenRun s h o t) w
      (fun m v => Opened (openedManifest h o t run) m v) := by
  have hplan := openedManifest_wellFormed (t := t) hlaw hpda hcustomer hopen
  refine Safe.lift ?_ (fun e _ => refuse hlaw hplan hw e)
  intro plan hp
  obtain rfl : (run,r) = plan := Except.ok.inj (hopen.symm.trans ((ok_of_mapError _ _ _).mp hp))
  apply Safe.query (stable_fileTracked hlaw hplan) hw
  intro v hv
  refine ⟨hv,⟨trivial,trivial⟩,?_⟩
  intro answer u hserve
  obtain ⟨rfl,rfl⟩ := hserve
  split
  · exact refuse hlaw hplan hv _
  · rename_i hnone
    have hfile : u.file = none := by simpa using hnone
    have hstable : Stable (service P customer) (fun v => v.file = none) := by
      intro a b hd ha
      exact hd.2.1.trans ha
    have htrack : ∀ v : World, v.file = none → FileTracked (openedManifest h o t run) v := by
      intro v hv m hm
      simp [hv] at hm
    have hjobs : ∀ job ∈ (openedManifest h o t run).runJobEntries.map JobEntry.job,
        ∃ n, job = P.jobPda customer n := by
      intro job hmem
      obtain ⟨e,he,rfl⟩ := List.mem_map.mp hmem
      exact ⟨e.nonce,hplan.derived e he⟩
    refine (assertJobsAbsent_guards hlaw hjobs hstable htrack hfile).andThen ?_ (by simp)
    intro _ v₁ _ hr
    obtain ⟨hfile₁,habsent⟩ := hr () rfl
    refine (saveRunManifest_guards hlaw hplan
      (openedManifest_ahead hfile₁ habsent)).andThen ?_ (by simp)
    intro _ v₂ _ hr
    subst hcustomer
    exact driveRunOpen_guards hlaw hplan hs (hr () rfl)

/-- Every planned branch job is on chain, past awaiting its artifact, with its input committed. -/
def BranchesCommitted (plan : RunManifest) (c : Chain) : Prop :=
  ∀ e ∈ plan.branchJobs, ∃ job, c e.job = some job ∧ ¬Awaiting job ∧ e.inputCid = some job.inputCid

lemma Tracked.branchesCommitted {plan m : RunManifest} {c : Chain} (h : Tracked plan m c)
    (hs : m.runStatus = .runOpen) : BranchesCommitted plan c := by
  intro e₀ he₀
  obtain ⟨e,he,hterms⟩ := h.plans.branch he₀
  have hstatus := h.opened hs e he
  have hexact := (h.lags e (List.mem_append_left _ he)).exact (by simp [JobEntry.pending,hstatus])
  obtain ⟨job,hjob,hpast,hcid⟩ := hexact.committed hstatus
  have hsame := sameTerms hterms
  exact ⟨job,by rwa [← hsame.job],hpast,by rw [← hsame.inputCid,hcid]⟩

/-- `predict resume` keeps the file tracked wherever it stops, repeats no step, and returns only
when every planned branch is committed. -/
theorem predictResume_guards {plan : RunManifest} (hlaw : Lawful P customer)
    (hplan : WellFormed P customer plan) (hs : s.jobPda = P.jobPda) (wallet : Option String)
    (hw : FileTracked plan w) :
    Guards P customer plan (predictResume s wallet) w
      (fun _ v => BranchesCommitted plan v.chain) := by
  refine (loadPredictRun_guards (stable_fileTracked hlaw hplan) (fun _ h => h) hw).andThen ?_
    (by simp)
  intro m v _ hr
  obtain ⟨hv,hfile⟩ := hr m rfl
  have hstable : Stable (service P customer)
      (fun v => FileTracked plan v ∧ v.file = some m) := by
    intro a b hd h
    exact ⟨stable_fileTracked hlaw hplan a b hd h.1,hd.2.1.trans h.2⟩
  split
  · rename_i hopen
    have hstatus := runIsResumable_alreadyOpen hopen
    apply Safe.done hstable ⟨hv,hfile⟩
    intro v' hv'
    refine ⟨hv'.1,?_⟩
    intro _ _
    exact (hv'.1 m hv'.2).branchesCommitted hstatus
  · exact refuse hlaw hplan hv _
  · rename_i hresumable
    have hopening : m.runStatus ≠ .runOpen := by
      simp [runIsResumable_ok hresumable]
    split
    · exact refuse hlaw hplan hv _
    · refine (runSigner_guards hlaw hplan hstable (fun _ h => h.1) wallet m
        ⟨hv,hfile⟩).andThen ?_ (by simp)
      intro signer v₁ _ hr
      obtain ⟨⟨htrack,hfile₁⟩,rfl⟩ := hr signer rfl
      have hm := htrack m hfile₁
      have howner : m.customer = customer := (hplan.plans hm.plans).owner
      refine (reconcileRunWithChain_guards hlaw hplan
        ⟨htrack,hm.plans,hm.lags,hopening⟩).andThen ?_ (by simp)
      intro reconciled v₂ _ hr
      refine (saveRunManifest_guards hlaw hplan (hr reconciled rfl)).andThen ?_ (by simp)
      intro _ v₃ _ hr
      rw [howner]
      refine (driveRunOpen_guards hlaw hplan hs (hr () rfl)).weaken ?_
      intro r v₄ _ hr m' hm'
      have hopened := hr m' hm'
      exact hopened.tracked.branchesCommitted hopened.status

/-- One `predict open` of the plan or one `predict resume`, stopped anywhere. -/
def OpensOrResumes [CharData] (P : Program) (customer : Digest) (h : OpenHost) (o : OpenOptions)
    (t : OpenTerms) (w v : World) : Prop :=
  ∃ s : Session, s.jobPda = P.jobPda ∧
    (Stops (service P customer) (predictOpenRun s h o t) w v ∨
      ∃ wallet, Stops (service P customer) (predictResume s wallet) w v)

/-- The file stays tracked over any history of opens and resumes. -/
lemma fileTracked_of_history [CharData] {h : OpenHost} {o : OpenOptions} {t : OpenTerms} {run : Run}
    {r : RunShape} (hlaw : Lawful P customer) (hpda : h.jobPda = P.jobPda)
    (hcustomer : h.customer = customer) (hopen : predictOpen h o = .ok (run,r)) {w₀ : World}
    (hstart : w₀.file = none)
    (hhistory : Relation.ReflTransGen (OpensOrResumes P customer h o t) w₀ w) :
    FileTracked (openedManifest h o t run) w := by
  have hplan := openedManifest_wellFormed (t := t) hlaw hpda hcustomer hopen
  induction hhistory with
  | refl =>
    intro m hm
    simp [hstart] at hm
  | tail _ hstep ih =>
    obtain ⟨s,hs,hstop | ⟨wallet,hstop⟩⟩ := hstep
    · exact (predictOpenRun_guards hlaw hpda hcustomer hopen hs ih).stops hstop
    · exact (predictResume_guards hlaw hplan hs wallet ih).stops hstop

/-- `predict resume` never repeats a confirmed step and completes the open. Whatever history of
opens and resumes was stopped wherever, the next resume sends `open_job` only where no account
exists and `commit_input_artifact` only to a job that awaits its artifact, and if it returns every
planned branch job is past awaiting its artifact with the planned input committed. -/
theorem resume_completes_open [CharData] {h : OpenHost} {o : OpenOptions} (t : OpenTerms) {run : Run}
    {r : RunShape} (hlaw : Lawful P customer) (hpda : h.jobPda = P.jobPda)
    (hcustomer : h.customer = customer) (hopen : predictOpen h o = .ok (run,r)) {w₀ v : World}
    (hstart : w₀.file = none)
    (hhistory : Relation.ReflTransGen (OpensOrResumes P customer h o t) w₀ w)
    (hs : s.jobPda = P.jobPda) (wallet : Option String) {rest : Command RunManifest}
    (hreach : Reaches (service P customer) w (predictResume s wallet) v rest) :
    (∀ transaction next, rest = .ask (.send transaction) next →
      NeverRepeats P (.send transaction) v) ∧
    (∀ m, rest = .done m → BranchesCommitted (openedManifest h o t run) v.chain) := by
  have hplan := openedManifest_wellFormed (t := t) hlaw hpda hcustomer hopen
  have htracked := fileTracked_of_history hlaw hpda hcustomer hopen hstart hhistory
  have hsafe := (predictResume_guards hlaw hplan hs wallet htracked).reaches hreach
  constructor
  · intro transaction next hrest
    subst hrest
    exact hsafe.mayAsk.1
  · intro m hrest
    subst hrest
    exact hsafe.outcome m rfl

end Commands

section Sample
open Prediction

def sampleTerms : OpenTerms where
  customerWallet := "customer"
  cluster := "local"
  workerDigest := natKey 3
  branchReward := 100
  branchStake := 500
  aggregateReward := 100
  aggregateStake := 500
  claimWindow := 3600
  executionWindow := 3600
  challengeWindow := 600

/-- The customer's machine. -/
def sampleSession : Session where
  cluster := "local"
  wallets _ := some (natKey 1)
  jobPda _ nonce := natKey nonce

/-- Before the run. -/
def emptyWorld : World := ⟨none,fun _ => none,[],[]⟩

/-- The sample run has one branch. -/
lemma single_branch [CharData] {run : Run} {r : RunShape}
    (hopen : predictOpen sampleHost meanOptions = .ok (run,r)) :
    ∃ b, run.branchJobs = [b] ∧ b.nonce = 7 ∧ b.job = keyText (natKey 7) := by
  have hn := predictOpen_nonces hopen
  have hj := (predictOpen_ok hopen).jobs
  obtain ⟨b,hb⟩ := List.length_eq_one_iff.mp
    (by simpa [meanOptions,pollOptions] using congrArg List.length hn)
  rw [hb] at hn hj
  exact ⟨b,hb,(List.cons.inj hn).1,(Prod.mk.inj (List.cons.inj hj).1).2⟩

/-- The sample run as `predict open` first saves it. -/
abbrev sampleRun (run : Run) : RunManifest := openedManifest sampleHost meanOptions sampleTerms run

/-- The sample run, up to its first transaction. -/
lemma sample_saves [CharData] {run : Run} {r : RunShape}
    (hopen : predictOpen sampleHost meanOptions = .ok (run,r)) :
    Reaches (service sampleProgram (natKey 1)) emptyWorld
      (predictOpenRun sampleSession sampleHost meanOptions sampleTerms)
      (emptyWorld.store (sampleRun run))
      (driveRunOpen sampleSession (natKey 1)
        (sampleRun run)) := by
  unfold predictOpenRun
  rw [hopen]
  refine .step (a := none) ⟨rfl,rfl⟩ ?_
  have habsent := assertJobsAbsent_reaches (P := sampleProgram) (natKey 1) emptyWorld
    ((sampleRun run).runJobEntries.map JobEntry.job)
  rw [if_neg (by simp [emptyWorld])] at habsent
  apply habsent.bind.trans
  exact (saveRunManifest_reaches _).bind

/-- The arguments a branch of the sample is opened with. -/
def sampleArgs (b : BranchJob) : OpenJobArgs where
  nonce := b.nonce
  inputBundleHash := b.inputBundleHash
  expectedResultHash := zeroHash
  rewardAmount := 100
  requiredStake := 500
  jobClass := jobClassBranchProof
  requiredRole := nodeRoleWorkerProof
  requiredTier := stakeTierT1
  requiredCapability := .workerProof
  requiredSoftwareDigest := natKey 3
  claimWindow := 3600
  executionWindow := 3600
  challengeWindow := 600
  challengeBond := 500

/-- The sample's `open_job` landed and its call raised. -/
abbrev stoppedWorld (run : Run) (b : BranchJob) (c : Chain) : World :=
  (emptyWorld.store (sampleRun run)).land (.openJob (natKey 1) (sampleArgs b)) c

/-- The sample run after its branch was found open. -/
abbrev reconciledRun (run : Run) (b : BranchJob) : RunManifest :=
  {sampleRun run with branchJobs :=
    [{branchEntry sampleHost sampleTerms b with status := some .jobOpened}]}

/-- The sample's `open_job` lands although its call raises, and a resume finishes the open. -/
theorem resume_completes_open_sample : let _ := CharData.ascii
    ∃ run r w v m, predictOpen sampleHost meanOptions = .ok (run,r) ∧
      Stops (service sampleProgram (natKey 1))
        (predictOpenRun sampleSession sampleHost meanOptions sampleTerms) emptyWorld w ∧
      Reaches (service sampleProgram (natKey 1)) w (predictResume sampleSession none) v (.done m) ∧
      BranchesCommitted (sampleRun run) v.chain := by
  let _ := CharData.ascii
  obtain ⟨run,r,-,-,hopen,-⟩ := mean_settles
  obtain ⟨b,hb,-⟩ := single_branch hopen
  have hm : (sampleRun run).branchJobs = [branchEntry sampleHost sampleTerms b] :=
    congrArg (List.map _) hb
  obtain ⟨c,hopens,hjob⟩ : ∃ c, sampleProgram.executes emptyWorld.chain
      (.openJob (natKey 1) (sampleArgs b)) c ∧
      c (natKey b.nonce) = some (openedJob (natKey 1) (sampleArgs b)) :=
    ⟨_,sample_opens (natKey 1) rfl,Function.update_self _ _ _⟩
  obtain ⟨c',hcommits⟩ : ∃ c', sampleProgram.executes c
      (.commitInputArtifact (natKey 1) (natKey b.nonce) b.inputCid) c' :=
    ⟨_,sample_commits b.inputCid hjob rfl⟩
  have hstop := (sample_saves hopen).trans (driveRunOpen_raises (walkEntries_raise hm
    (driveEntry_raises rfl rfl rfl hopens)))
  have hload : Reaches (service sampleProgram (natKey 1)) (stoppedWorld run b c)
      (predictResume sampleSession none) (stoppedWorld run b c) _ :=
    predictResume_reaches rfl rfl rfl rfl
  have hreconcile : Reaches (service sampleProgram (natKey 1)) (stoppedWorld run b c)
      (reconcileRunWithChain (sampleRun run)) (stoppedWorld run b c)
      (.done (reconciledRun run b)) :=
    walkEntries_branch hm rfl (reconcileEntry_awaiting rfl hjob rfl rfl)
      (fun _ => reconcileEntry_pass rfl)
  have hdrive : Reaches (service sampleProgram (natKey 1))
      ((stoppedWorld run b c).store (reconciledRun run b))
      (driveRunOpen sampleSession (natKey 1) (reconciledRun run b)) _ _ :=
    driveRunOpen_reaches (walkEntries_branch rfl rfl (driveEntry_opened rfl rfl hcommits)
      (fun _ => driveEntry_pass rfl))
  have hresume := ((hload.trans hreconcile.bind).trans (saveRunManifest_reaches _).bind).trans hdrive
  have hstep : OpensOrResumes sampleProgram (natKey 1) sampleHost meanOptions sampleTerms
      emptyWorld _ := ⟨sampleSession,rfl,.inl ⟨_,hstop⟩⟩
  exact ⟨run,r,_,_,_,hopen,⟨_,hstop⟩,hresume,
    (resume_completes_open sampleTerms (sampleProgram_lawful (natKey 1)) rfl rfl hopen rfl
      (.single hstep) rfl none hresume).2 _ rfl⟩

/-- The account of the sample's branch once its input is committed. -/
def committedJob (b : BranchJob) : Job :=
  {openedJob (natKey 1) (sampleArgs b) with status := jobStatusOpen, inputCid := b.inputCid}

/-- The sample run, open. -/
abbrev doneRun (run : Run) (b : BranchJob) : RunManifest :=
  {sampleRun run with
    branchJobs := [recordCommitted (recordOpened (branchEntry sampleHost sampleTerms b) "signature")
      "signature"]
    status := some .runOpen }

/-- The sample run stopped with its branch recorded as opened. -/
abbrev laggingRun (run : Run) (b : BranchJob) : RunManifest :=
  {sampleRun run with branchJobs := [recordOpened (branchEntry sampleHost sampleTerms b) "signature"]}

/-- The world after the sample's branch was opened and committed. -/
abbrev sampleWorld (m : RunManifest) (b : BranchJob) (c : Chain) : World :=
  ⟨some m,c,[.openJob (natKey 1) (sampleArgs b),
    .commitInputArtifact (natKey 1) (natKey b.nonce) b.inputCid],[]⟩

/-- The sample's branch is opened and committed, whether or not the open saw the commit land. -/
lemma sample_committed [CharData] {run : Run} {r : RunShape} {b : BranchJob}
    (hopen : predictOpen sampleHost meanOptions = .ok (run,r)) (hb : run.branchJobs = [b]) :
    ∃ c : Chain, c (natKey b.nonce) = some (committedJob b) ∧
      (∀ key, key ≠ natKey b.nonce → c key = none) ∧
      Stops (service sampleProgram (natKey 1))
        (predictOpenRun sampleSession sampleHost meanOptions sampleTerms) emptyWorld
        (sampleWorld (doneRun run b) b c) ∧
      Stops (service sampleProgram (natKey 1))
        (predictOpenRun sampleSession sampleHost meanOptions sampleTerms) emptyWorld
        (sampleWorld (laggingRun run b) b c) := by
  have hm : (sampleRun run).branchJobs = [branchEntry sampleHost sampleTerms b] :=
    congrArg (List.map _) hb
  obtain ⟨c₁,hopens,hjob₁,hother₁⟩ : ∃ c, sampleProgram.executes emptyWorld.chain
      (.openJob (natKey 1) (sampleArgs b)) c ∧
      c (natKey b.nonce) = some (openedJob (natKey 1) (sampleArgs b)) ∧
      ∀ key, key ≠ natKey b.nonce → c key = none :=
    ⟨_,sample_opens (natKey 1) rfl,Function.update_self _ _ _,
      fun _ hne => Function.update_of_ne hne _ _⟩
  obtain ⟨c,hcommits,hjob,hother⟩ : ∃ c, sampleProgram.executes c₁
      (.commitInputArtifact (natKey 1) (natKey b.nonce) b.inputCid) c ∧
      c (natKey b.nonce) = some (committedJob b) ∧ ∀ key, key ≠ natKey b.nonce → c key = none :=
    ⟨_,sample_commits b.inputCid hjob₁ rfl,Function.update_self _ _ _,
      fun key hne => (Function.update_of_ne hne _ _).trans (hother₁ key hne)⟩
  have hdone : Reaches (service sampleProgram (natKey 1)) (emptyWorld.store (sampleRun run))
      (driveRunOpen sampleSession (natKey 1) (sampleRun run)) _ _ :=
    driveRunOpen_reaches (walkEntries_branch hm rfl
      (driveEntry_planned rfl rfl rfl rfl hopens hcommits) (fun _ => driveEntry_pass rfl))
  have hlag : Reaches (service sampleProgram (natKey 1)) (emptyWorld.store (sampleRun run))
      (driveRunOpen sampleSession (natKey 1) (sampleRun run)) _ _ :=
    driveRunOpen_raises (walkEntries_raise hm
      (driveEntry_commitRaises rfl rfl rfl rfl hopens hcommits))
  exact ⟨c,hjob,hother,⟨_,(sample_saves hopen).trans hdone⟩,_,(sample_saves hopen).trans hlag⟩

end Sample

end Kswarm.Lifecycle
