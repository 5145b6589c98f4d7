import Kswarm.Lifecycle.SharedManifest
import Kswarm.Prediction.Honest

/-! The aggregate runner after an interruption. Until its receipt lands, the manifest keeps the run
unsubmitted and the job stays claimed by the runner, so a later pass takes it up; once the manifest
says submitted, the runner leaves the run alone, and a proof that failed is not asked for again. -/
namespace Kswarm.Lifecycle
open Cli Worker

section Laws

/-- What the program does to an aggregate job: claiming takes an existing job and keeps what was
committed, a receipt is stored as it was sent, and nobody closes or rewrites a committed job. -/
structure AggregateLaws (P : Program) (worker : Digest) : Prop where
  claims : ∀ c key c', P.executes c (.claimJob worker key) c' → ∃ job job', c key = some job ∧
    c' key = some job' ∧ ¬Awaiting job' ∧ job'.jobClass = job.jobClass ∧ job'.inputCid = job.inputCid
  submits : ∀ c key outputCid resultBytes c',
    P.executes c (.submitReceipt worker key outputCid resultBytes) c' →
    ∃ job', c' key = some job' ∧ job'.outputCid = outputCid ∧ job'.resultBytes = resultBytes
  others : ∀ c c', P.others worker c c' → ∀ key job, c key = some job → ¬Awaiting job →
    ∃ job', c' key = some job' ∧ ¬Awaiting job' ∧ job'.jobClass = job.jobClass ∧
      job'.inputCid = job.inputCid

/-- An aggregate job whose artifact is committed. -/
structure Bound (job : Job) : Prop where
  past : ¬Awaiting job
  jobClass : job.jobClass = jobClassAggregateProof
  inputCid : job.inputCid.isEmpty = false

lemma Bound.same {job job' : Job} (h : Bound job) (hpast : ¬Awaiting job')
    (hclass : job'.jobClass = job.jobClass) (hcid : job'.inputCid = job.inputCid) : Bound job' :=
  ⟨hpast,hclass.trans h.jobClass,by rw [hcid]; exact h.inputCid⟩

lemma bound_of_eligible {c : RunnerConfig} {job : Job} (h : eligible c job = true) : Bound job := by
  simp only [eligible,ours,Bool.and_eq_true,Bool.or_eq_true,decide_eq_true_eq,Bool.not_eq_true'] at h
  obtain ⟨⟨⟨hclass,hstatus⟩,hcid⟩,-⟩ := h
  refine ⟨?_,hclass,hcid⟩
  unfold Awaiting
  rcases hstatus with hopen | ⟨hclaimed,-⟩
  · simp [hopen,jobStatusOpen,jobStatusAwaitingArtifact]
  · simp [hclaimed,jobStatusClaimed,jobStatusAwaitingArtifact]

end Laws

section Interrupted
variable {P : Program} {c : RunnerConfig} {run : RunManifest} {w v u : World}

/-- The receipt of the run's job landed. -/
def ReceiptLanded (c : RunnerConfig) (run : RunManifest) (w : World) : Prop :=
  ∃ outputCid resultBytes,
    Transaction.submitReceipt c.wallet run.aggregateJob outputCid resultBytes ∈ w.landed

/-- The account of the run's job. -/
def BoundJob (run : RunManifest) (w : World) : Prop :=
  ∃ job, w.chain run.aggregateJob = some job ∧ Bound job

/-- The file has the run as it was, but for keys of the runner that do not say submitted; and a job
that was claimed is an aggregate job with its artifact. -/
structure Unsubmitted (c : RunnerConfig) (run : RunManifest) (w : World) : Prop where
  file : ∃ r : RunnerRecord, w.file = some {run with record := r} ∧ r.aggregateSubmitted = false
  claimed : Transaction.claimJob c.wallet run.aggregateJob ∈ w.landed → BoundJob run w

/-- Before the receipt. -/
def Recoverable (c : RunnerConfig) (run : RunManifest) (w : World) : Prop :=
  Unsubmitted c run w ∨ ReceiptLanded c run w

lemma stable_boundJob (hlaws : AggregateLaws P c.wallet) :
    Stable (service P c.wallet) (BoundJob run) := by
  intro w v hd h
  obtain ⟨job,hjob,hb⟩ := h
  obtain ⟨job',hjob',hpast,hclass,hcid⟩ := hlaws.others _ _ hd.1 _ job hjob hb.past
  exact ⟨job',hjob',hb.same hpast hclass hcid⟩

lemma stable_unsubmitted (hlaws : AggregateLaws P c.wallet) :
    Stable (service P c.wallet) (Unsubmitted c run) := by
  intro w v hd h
  refine ⟨hd.2.1 ▸ h.file,?_⟩
  intro hclaim
  rw [hd.2.2.1] at hclaim
  exact stable_boundJob hlaws w v hd (h.claimed hclaim)

lemma stable_receiptLanded : Stable (service P c.wallet) (ReceiptLanded c run) := by
  intro w v hd h
  obtain ⟨cid,bytes,hmem⟩ := h
  exact ⟨cid,bytes,hd.2.2.1 ▸ hmem⟩

lemma stable_recoverable (hlaws : AggregateLaws P c.wallet) :
    Stable (service P c.wallet) (Recoverable c run) := by
  intro w v hd h
  exact h.imp (stable_unsubmitted hlaws w v hd) (stable_receiptLanded w v hd)

/-- What landed stays landed. -/
lemma ReceiptLanded.serves {o : Op} {a : Ans o} (h : ReceiptLanded c run w)
    (hs : answers P o w a v) : ReceiptLanded c run v := by
  obtain ⟨cid,bytes,hmem⟩ := h
  rcases answers_moves hs with ⟨-,hlanded⟩ | ⟨_,_,_,-,rfl⟩
  · exact ⟨cid,bytes,hlanded ▸ hmem⟩
  · exact ⟨cid,bytes,List.mem_append_left _ hmem⟩

/-- The guarantee of a pass: wherever it stops the run can be taken up, or its receipt landed. -/
abbrev Resumes (P : Program) (c : RunnerConfig) (run : RunManifest) {α : Type} (p : Pass α)
    (w : World) (post : α → World → Prop) : Prop :=
  Safe (service P c.wallet) (Recoverable c run) (fun _ _ => True)
    (fun r v => ∀ a, r = .ok a → post a v) p w

namespace Resumes
variable {α β : Type} {K : World → Prop}

/-- Once the receipt landed. -/
lemma landed {p : Pass α} (h : ReceiptLanded c run w) :
    Resumes P c run p w (fun _ v => ReceiptLanded c run v) :=
  (Safe.persists stable_receiptLanded (fun _ _ _ _ hv hs => hv.serves hs) h).imp
    (fun _ hv => .inr hv) (fun _ _ _ h => h) (fun _ _ _ hv _ _ => hv)

lemma raise {e : PassError} {post : α → World → Prop} (hK : Stable (service P c.wallet) K)
    (hw : K w) (h : ∀ v, K v → Recoverable c run v) : Resumes P c run (.raise e) w post :=
  Safe.raise hK hw (fun v hv => ⟨h v hv,by simp⟩)

lemma done {a : α} {post : α → World → Prop} (hK : Stable (service P c.wallet) K) (hw : K w)
    (h : ∀ v, K v → Recoverable c run v ∧ post a v) : Resumes P c run (.done a) w post := by
  apply Safe.done hK hw
  intro v hv
  refine ⟨(h v hv).1,?_⟩
  intro a' ha'
  obtain rfl := Except.ok.inj ha'
  exact (h v hv).2

lemma lift {x : Except PassError α} {f : α → Pass β} {post : β → World → Prop}
    (hK : Stable (service P c.wallet) K) (hw : K w) (hrec : ∀ v, K v → Recoverable c run v)
    (h : ∀ a, x = .ok a → Resumes P c run (f a) w post) :
    Resumes P c run (Process.lift x >>= f) w post :=
  Safe.lift h (fun _ _ => raise hK hw hrec)

/-- A question that leaves the world as it is. -/
lemma read {o : Op} {f : Ans o → Pass β} {post : β → World → Prop}
    (hK : Stable (service P c.wallet) K) (hw : K w) (hrec : ∀ v, K v → Recoverable c run v)
    (hquiet : ∀ v a u, answers P o v a u → u = v)
    (h : ∀ v a, K v → answers P o v a v → Resumes P c run (f a) v post) :
    Resumes P c run (Process.query o >>= f) w post := by
  apply Safe.query hK hw
  intro v hv
  refine ⟨hrec v hv,trivial,?_⟩
  intro a u hs
  obtain rfl := hquiet v a u hs
  exact h u a hv hs

lemma andThen {p : Pass α} {f : α → Pass β} {post : α → World → Prop} {next : β → World → Prop}
    (h : Resumes P c run p w post) (hok : ∀ a v, post a v → Resumes P c run (f a) v next) :
    Resumes P c run (p >>= f) w next :=
  Safe.andThen h (fun a v _ hr => hok a v (hr a rfl)) (by simp)

end Resumes

/-- The run is unsubmitted and its job was seen bound. -/
def Pursued (c : RunnerConfig) (run : RunManifest) (w : World) : Prop :=
  Unsubmitted c run w ∧ BoundJob run w

lemma stable_pursued (hlaws : AggregateLaws P c.wallet) :
    Stable (service P c.wallet) (Pursued c run) := by
  intro w v hd h
  exact ⟨stable_unsubmitted hlaws w v hd h.1,stable_boundJob hlaws w v hd h.2⟩

lemma Pursued.recoverable (h : Pursued c run w) : Recoverable c run w := .inl h.1

variable {r : RunnerRecord} {job : Job} {binding : AggregateBinding} {receipt : Bytes} {report : Json}

/-- Saving keys that do not say submitted. -/
lemma Pursued.store (h : Pursued c run w) (hr : r.aggregateSubmitted = false) :
    Pursued c run (w.store {run with record := r}) := by
  obtain ⟨hu,hb⟩ := h
  exact ⟨⟨⟨r,rfl,hr⟩,hu.claimed⟩,hb⟩

/-- A claim that lands. -/
lemma Pursued.claims (hlaws : AggregateLaws P c.wallet) (h : Pursued c run w)
    (hland : Lands P (.claimJob c.wallet run.aggregateJob) w v) : Pursued c run v := by
  obtain ⟨chain,hex,rfl⟩ := hland
  obtain ⟨job,job',hjob,hjob',hpast,hclass,hcid⟩ := hlaws.claims _ _ _ hex
  obtain ⟨job₀,hjob₀,hb⟩ := h.2
  obtain rfl := Option.some.inj (hjob₀.symm.trans hjob)
  have hbound : BoundJob run {w with
      chain := chain
      landed := w.landed ++ [.claimJob c.wallet run.aggregateJob] } :=
    ⟨job',hjob',hb.same hpast hclass hcid⟩
  exact ⟨⟨h.1.file,fun _ => hbound⟩,hbound⟩

lemma branchOutputsForReport_resumes (hlaws : AggregateLaws P c.wallet) (branches : List Json)
    (hw : Pursued c run w) :
    Resumes P c run (branchOutputsForReport branches) w (fun _ v => Pursued c run v) := by
  induction branches generalizing w with
  | nil => exact Resumes.done (stable_pursued hlaws) hw (fun v hv => ⟨hv.recoverable,hv⟩)
  | cons branch branches ih =>
    refine Resumes.read (stable_pursued hlaws) hw (fun _ hv => hv.recoverable) (fun _ _ _ h => h) ?_
    intro v output hv _
    split
    · exact Resumes.raise (stable_pursued hlaws) hv (fun _ hv => hv.recoverable)
    · refine (ih hv).andThen ?_
      intro outputs u hu
      exact Resumes.done (stable_pursued hlaws) hu (fun v hv => ⟨hv.recoverable,hv⟩)

lemma bindAggregateJob_resumes (hlaws : AggregateLaws P c.wallet) (hw : Pursued c run w) :
    Resumes P c run (bindAggregateJob job) w (fun _ v => Pursued c run v) := by
  have hK : Stable (service P c.wallet) (Pursued c run) := stable_pursued hlaws
  have hrec : ∀ v, Pursued c run v → Recoverable c run v := fun _ hv => hv.recoverable
  refine Resumes.read hK hw hrec (fun _ _ _ h => h) ?_
  intro v answer hv _
  refine Resumes.lift hK hv hrec (fun host _ => ?_)
  refine Resumes.lift hK hv hrec (fun binding _ => ?_)
  refine Resumes.lift hK hv hrec (fun resultBytes _ => ?_)
  refine Resumes.lift hK hv hrec (fun branches _ => ?_)
  refine (branchOutputsForReport_resumes hlaws branches hv).andThen ?_
  intro outputs u hu
  exact Resumes.done hK hu (fun v hv => ⟨hrec v hv,hv⟩)

lemma save_resumes (hlaws : AggregateLaws P c.wallet) (hw : Pursued c run w)
    (hr : r.aggregateSubmitted = false) :
    Resumes P c run (Worker.save {run with record := r}) w (fun _ v => Pursued c run v) := by
  have hK : Stable (service P c.wallet) (Pursued c run) := stable_pursued hlaws
  apply Safe.query hK hw
  intro v hv
  refine ⟨hv.recoverable,trivial,?_⟩
  intro answer u hs
  have hu : Pursued c run u := by
    rcases hs with ⟨_,rfl⟩ | ⟨_,_,rfl | rfl⟩
    · exact hv.store hr
    · exact hv
    · exact hv.store hr
  exact Safe.liftEnd hK hu (fun v hv => ⟨hv.recoverable,fun _ _ => hv⟩)

/-- Whatever becomes of the claim, the run can be taken up. -/
lemma claimAggregate_resumes (hlaws : AggregateLaws P c.wallet) (hw : Pursued c run w)
    (hr : r.aggregateSubmitted = false) :
    Resumes P c run (claimAggregate c {run with record := r} job) w (fun claim v => Pursued c run v ∧
      ∀ claimed, claim = some claimed →
        ∃ r' : RunnerRecord, claimed = {run with record := r'} ∧ r'.aggregateSubmitted = false) := by
  have hK : Stable (service P c.wallet) (Pursued c run) := stable_pursued hlaws
  have hclaimed : ∀ (r' : RunnerRecord) v, r'.aggregateSubmitted = false → Pursued c run v →
      Resumes P c run (.done (some {run with record := r'})) v (fun claim v => Pursued c run v ∧
        ∀ claimed, claim = some claimed →
          ∃ r' : RunnerRecord, claimed = {run with record := r'} ∧ r'.aggregateSubmitted = false) := by
    intro r' v hr' hv
    refine Resumes.done hK hv (fun v hv => ⟨hv.recoverable,hv,?_⟩)
    intro claimed hc
    obtain rfl := Option.some.inj hc
    exact ⟨r',rfl,hr'⟩
  unfold claimAggregate
  split
  · exact hclaimed r w hr hw
  · apply Safe.query hK hw
    intro v hv
    refine ⟨hv.recoverable,trivial,?_⟩
    intro answer u hs
    have hu : Pursued c run u := by
      rcases hs with ⟨_,_,hland⟩ | ⟨_,_,rfl | hland⟩
      · exact hv.claims hlaws hland
      · exact hv
      · exact hv.claims hlaws hland
    cases answer with
    | error _ => exact Resumes.done hK hu (fun v hv => ⟨hv.recoverable,hv,by simp⟩)
    | ok _ =>
      refine Resumes.read hK hu (fun _ hv => hv.recoverable) (fun _ _ _ h => h) ?_
      intro v now hv _
      have hnow : {r with aggregateClaimedAtUnix := some now}.aggregateSubmitted = false := hr
      refine (save_resumes hlaws hv hnow).andThen ?_
      intro _ u hu
      exact hclaimed _ u hnow hu

/-- A receipt that was answered is on chain; one that raised may be. -/
lemma submitAggregate_resumes (hlaws : AggregateLaws P c.wallet) {branchOutputs : List Json}
    (hw : Pursued c run w) :
    Resumes P c run (submitAggregate c {run with record := r} job binding receipt report branchOutputs)
      w (fun _ v => ReceiptLanded c run v) := by
  have hK : Stable (service P c.wallet) (Pursued c run) := stable_pursued hlaws
  refine Resumes.read hK hw (fun _ hv => hv.recoverable) (fun _ _ _ h => h) ?_
  intro v added hv _
  refine Resumes.lift hK hv (fun _ hv => hv.recoverable) (fun resultCid _ => ?_)
  apply Safe.query hK hv
  intro v hv
  refine ⟨hv.recoverable,trivial,?_⟩
  intro answer u hs
  have hlanded : ∀ u', Lands P (.submitReceipt c.wallet run.aggregateJob resultCid receipt) v u' →
      ReceiptLanded c run u' := by
    rintro u' ⟨chain,-,rfl⟩
    exact ⟨resultCid,receipt,List.mem_concat_self⟩
  cases answer with
  | error e =>
    have hu : Recoverable c run u := by
      rcases hs with ⟨_,hbad,-⟩ | ⟨_,_,rfl | hland⟩
      · cases hbad
      · exact hv.recoverable
      · exact .inr (hlanded u hland)
    exact Resumes.raise (stable_recoverable hlaws) hu (fun _ hv => hv)
  | ok signature =>
    have hu : ReceiptLanded c run u := by
      rcases hs with ⟨_,_,hland⟩ | ⟨_,hbad,-⟩
      · exact hlanded u hland
      · cases hbad
    exact Resumes.landed hu

lemma executeAggregate_resumes (hlaws : AggregateLaws P c.wallet) {branchOutputs : List Json}
    (hw : Pursued c run w) (hr : r.aggregateSubmitted = false) :
    Resumes P c run (executeAggregate c {run with record := r} job binding receipt branchOutputs) w
      (fun _ _ => True) := by
  have hK : Stable (service P c.wallet) (Pursued c run) := stable_pursued hlaws
  refine (claimAggregate_resumes hlaws hw hr).andThen ?_
  rintro claim v ⟨hv,hclaim⟩
  cases claim with
  | none => exact Resumes.done hK hv (fun _ hv => ⟨hv.recoverable,trivial⟩)
  | some claimed =>
    obtain ⟨r',rfl,-⟩ := hclaim claimed rfl
    refine Resumes.lift hK hv (fun _ hv => hv.recoverable) (fun report _ => ?_)
    refine (submitAggregate_resumes hlaws hv).andThen ?_
    intro submitted u hu
    exact (Resumes.landed hu).weaken (fun _ _ _ _ _ _ => trivial)

lemma tryAggregate_resumes (hlaws : AggregateLaws P c.wallet) (hw : Unsubmitted c run w)
    (hr : r.aggregateSubmitted = false) :
    Resumes P c run (tryAggregate c {run with record := r}) w (fun _ _ => True) := by
  have hK : Stable (service P c.wallet) (Unsubmitted c run) := stable_unsubmitted hlaws
  have hrec : ∀ v, Unsubmitted c run v → Recoverable c run v := fun _ hv => .inl hv
  refine Resumes.read hK hw hrec (fun _ _ _ h => h.1) ?_
  intro v answer hv hs
  refine Resumes.lift hK hv hrec (fun found hfound => ?_)
  obtain rfl : answer = .ok found := (ok_of_mapError _ _ _).mp hfound
  cases found with
  | none => exact Resumes.done hK hv (fun v hv => ⟨hrec v hv,trivial⟩)
  | some job =>
    have hjob : v.chain run.aggregateJob = some job := by
      rcases hs.2 with hread | ⟨_,hbad⟩
      · exact (Except.ok.inj hread).symm
      · cases hbad
    dsimp only
    split
    · exact Resumes.done hK hv (fun v hv => ⟨hrec v hv,trivial⟩)
    · rename_i heligible
      have hbound : Bound job := bound_of_eligible (c := c) (by simpa using heligible)
      refine (bindAggregateJob_resumes hlaws ⟨hv,job,hjob,hbound⟩).andThen ?_
      intro bound u hu
      exact executeAggregate_resumes hlaws hu hr

/-- A pass, stopped anywhere, leaves a run that can be taken up. -/
lemma runOnce_resumes (hlaws : AggregateLaws P c.wallet) (hw : Recoverable c run w) :
    Resumes P c run (runOnce c) w (fun _ _ => True) := by
  rcases hw with hw | hlanded
  · have hK : Stable (service P c.wallet) (Unsubmitted c run) := stable_unsubmitted hlaws
    have hrec : ∀ v, Unsubmitted c run v → Recoverable c run v := fun _ hv => .inl hv
    refine Resumes.read hK hw hrec (fun _ _ _ h => h) ?_
    intro v locked hv _
    split
    · refine Resumes.read hK hv hrec (fun _ _ _ h => h.2) ?_
      intro v file hv hs
      obtain ⟨r,hfile,hr⟩ := hv.file
      obtain rfl : file = some {run with record := r} := hs.1.trans hfile
      dsimp only
      rw [if_neg (by simp [hr])]
      apply Safe.recover
      refine (tryAggregate_resumes hlaws hv hr).weaken ?_
      intro outcome u hu _
      cases outcome with
      | ok _ => exact fun _ _ => trivial
      | error _ =>
        exact Resumes.done (stable_recoverable hlaws) hu (fun _ hv => ⟨hv,trivial⟩)
    · exact Resumes.done hK hv (fun v hv => ⟨hrec v hv,trivial⟩)
  · exact (Resumes.landed hlanded).weaken (fun _ _ _ _ _ _ => trivial)

/-- Over every history of passes, each stopped anywhere. -/
lemma recoverable_of_history (hlaws : AggregateLaws P c.wallet) (hw : Recoverable c run w)
    (hhistory : Relation.ReflTransGen (Stops (service P c.wallet) (runOnce c)) w v) :
    Recoverable c run v := by
  induction hhistory with
  | refl => exact hw
  | tail _ hstop ih => exact (runOnce_resumes hlaws ih).stops hstop

end Interrupted

section Recovered

/-- The program while nobody else touches a job. -/
def Program.holding (P : Program) (key : Digest) : Program where
  jobPda := P.jobPda
  executes := P.executes
  others who chain chain' := P.others who chain chain' ∧ chain' key = chain key
  others_refl who chain := ⟨P.others_refl who chain,rfl⟩
  others_trans _ _ _ _ h h' := ⟨P.others_trans _ _ _ _ h.1 h'.1,h'.2.trans h.2⟩

/-- What a pass over a claimed job meets when nothing fails: the artifact binds, the manifest has
what the report needs, the program takes the receipt, and the hook proves it. -/
structure NoFailure (P : Program) (B : Backends) (c : RunnerConfig) (run : RunManifest) (job : Job)
    (binding : AggregateBinding) (receipt : Bytes) (report : Json) (chain : Chain) : Prop where
  binds : ∀ chain', (P.holding run.aggregateJob).others c.wallet chain chain' →
    bindCommittedArtifact (B.runnerHost chain') job = .ok binding
  packs : binding.journal.committedOutputs = some receipt
  records : ∃ branches, branchRecords binding.artifact = some branches
  reports : resultReport run binding = some report
  accepts : ∀ chain', (P.holding run.aggregateJob).others c.wallet chain chain' →
    ∀ outputCid, ∃ chain'',
      P.executes chain' (.submitReceipt c.wallet run.aggregateJob outputCid receipt) chain''
  proves : ∃ execution, parseHookOutput
      (B.hook c.hookCommand (hookPayload run job binding receipt report)) = .ok execution ∧
    checkBindingAgainstJob execution job binding.journal receipt = .ok ()

/-- The receipt is on chain. -/
def ReceiptOn (c : RunnerConfig) (run : RunManifest) (receipt : Bytes) (w : World) : Prop :=
  ∃ outputCid job,
    Transaction.submitReceipt c.wallet run.aggregateJob outputCid receipt ∈ w.landed ∧
    w.chain run.aggregateJob = some job ∧ job.outputCid = outputCid ∧ job.resultBytes = receipt

/-- The receipt is on chain and its proof was asked for. -/
def Proven (c : RunnerConfig) (run : RunManifest) (job : Job) (binding : AggregateBinding)
    (receipt : Bytes) (report : Json) (w : World) : Prop :=
  ReceiptOn c run receipt w ∧ hookPayload run job binding receipt report ∈ w.hooked

variable {P : Program} {B : Backends} {c : RunnerConfig} {run : RunManifest} {w v : World}
  {r : RunnerRecord} {job : Job} {binding : AggregateBinding} {receipt : Bytes} {report : Json}
  {chain : Chain} {K K' : World → Prop}

/-- Everyone else left the job alone since `chain`. -/
def Held (P : Program) (c : RunnerConfig) (run : RunManifest) (chain : Chain) (w : World) : Prop :=
  (P.holding run.aggregateJob).others c.wallet chain w.chain

lemma stable_held : Stable (service (P.holding run.aggregateJob) c.wallet) (Held P c run chain) := by
  intro w v hd h
  exact (P.holding run.aggregateJob).others_trans _ _ _ _ h hd.1

lemma stable_receiptOn :
    Stable (service (P.holding run.aggregateJob) c.wallet) (ReceiptOn c run receipt) := by
  intro w v hd h
  obtain ⟨cid,job,hmem,hjob,hreceipt⟩ := h
  exact ⟨cid,job,hd.2.2.1 ▸ hmem,hd.1.2.trans hjob,hreceipt⟩

lemma stable_proven : Stable (service (P.holding run.aggregateJob) c.wallet)
    (Proven c run job binding receipt report) := by
  intro w v hd h
  exact ⟨stable_receiptOn w v hd h.1,hd.2.2.2 ▸ h.2⟩

lemma passSave_finishes {who : Digest} (m : RunManifest) (hK : Stable (service P who) K) (hw : K w)
    (hstore : ∀ v, K v → K (v.store m)) :
    Finishes P who B (Worker.save m) w (fun _ v => K v) :=
  save_finishes PassError.file m hK hw hK hstore

lemma branchOutputsForReport_finishes {who : Digest} (branches : List Json)
    (hK : Stable (service P who) K) (hw : K w) :
    Finishes P who B (branchOutputsForReport branches) w (fun _ v => K v) := by
  induction branches generalizing w with
  | nil => exact Finishes.done hK hw (fun _ h => h)
  | cons branch branches ih =>
    refine Finishes.query hK hw (fun v _ => ⟨some .null,v,rfl,_,rfl⟩) ?_
    intro v answer u hv hserve hgood
    obtain rfl : u = v := hserve
    obtain ⟨output,rfl⟩ := hgood
    refine (ih hv).andThen ?_
    intro outputs u hu
    exact Finishes.done hK hu (fun _ h => h)

lemma bindAggregateJob_finishes (hgood : NoFailure P B c run job binding receipt report chain)
    (hw : Held P c run chain w) :
    Finishes (P.holding run.aggregateJob) c.wallet B (bindAggregateJob job) w
      (fun bound v => (∃ outputs, bound = (binding,receipt,outputs)) ∧ Held P c run chain v) := by
  obtain ⟨branches,hbranches⟩ := hgood.records
  refine Finishes.query stable_held hw (fun v _ => ⟨_,v,rfl,rfl⟩) ?_
  intro v answer u hv hserve hanswer
  obtain rfl : u = v := hserve
  obtain rfl : answer = .ok (B.runnerHost u.chain) := hanswer
  change Finishes _ _ _ (Process.lift
    ((bindCommittedArtifact (B.runnerHost u.chain) job).mapError PassError.binding) >>= _) _ _
  rw [hgood.binds _ hv]
  change Finishes _ _ _ (Process.lift (require binding.journal.committedOutputs
    (PassError.binding .notPacked)) >>= _) _ _
  rw [hgood.packs]
  change Finishes _ _ _ (Process.lift (require (branchRecords binding.artifact)
    PassError.malformed) >>= _) _ _
  rw [hbranches]
  refine (branchOutputsForReport_finishes branches stable_held hv).andThen ?_
  intro outputs v hv
  exact Finishes.done stable_held hv (fun v hv => ⟨⟨outputs,rfl⟩,hv⟩)

/-- A receipt the program takes lands. -/
lemma submitAggregate_finishes (hlaws : AggregateLaws P c.wallet) {branchOutputs : List Json}
    (hgood : NoFailure P B c run job binding receipt report chain) (hw : Held P c run chain w) :
    Finishes (P.holding run.aggregateJob) c.wallet B
      (submitAggregate c {run with record := r} job binding receipt report branchOutputs) w
      (fun submitted v => (∃ r', submitted = {run with record := r'}) ∧ ReceiptOn c run receipt v) := by
  refine Finishes.query stable_held hw (fun v _ => ⟨.ok "cid",v,rfl,_,rfl⟩) ?_
  intro v added u hv hserve hadded
  obtain rfl : u = v := hserve
  obtain ⟨resultCid,rfl⟩ := hadded
  refine Finishes.query stable_held hv ?_ ?_
  · intro v hv
    obtain ⟨chain',hex⟩ := hgood.accepts _ hv resultCid
    exact ⟨.ok "signature",_,.inl ⟨_,rfl,chain',hex,rfl⟩,_,rfl⟩
  · intro v answer u hv hserve hanswer
    obtain ⟨signature,rfl⟩ := hanswer
    rcases hserve with ⟨_,-,chain',hex,rfl⟩ | ⟨_,hbad,-⟩
    · obtain ⟨job',hjob',hcid,hbytes⟩ := hlaws.submits _ _ _ _ _ hex
      have hu : ReceiptOn c run receipt
          {v with
            chain := chain'
            landed := v.landed ++ [.submitReceipt c.wallet run.aggregateJob resultCid receipt] } :=
        ⟨resultCid,job',List.mem_concat_self,hjob',hcid,hbytes⟩
      refine (passSave_finishes _ stable_receiptOn hu (fun _ hv => hv)).andThen ?_
      intro _ v hv
      exact Finishes.done stable_receiptOn hv (fun v hv => ⟨⟨_,rfl⟩,hv⟩)
    · cases hbad

lemma proveBonsol_finishes (hhook : c.hookCommand.isEmpty = false)
    (hgood : NoFailure P B c run job binding receipt report chain)
    (hw : ReceiptOn c run receipt w) :
    Finishes (P.holding run.aggregateJob) c.wallet B
      (proveBonsol c {run with record := r} job binding receipt report) w
      (fun _ v => Proven c run job binding receipt report v) := by
  obtain ⟨execution,hparse,hcheck⟩ := hgood.proves
  unfold proveBonsol
  rw [if_neg (by simp [hhook])]
  refine Finishes.query stable_receiptOn hw (fun v _ => ⟨_,_,rfl,rfl⟩) ?_
  intro v answer u hv hserve hanswer
  obtain rfl : u = _ := hserve
  obtain rfl : answer = .ok _ := hanswer
  have hu : Proven c run job binding receipt report {v with
      hooked := v.hooked ++ [hookPayload run job binding receipt report]} :=
    ⟨hv,List.mem_concat_self⟩
  change Finishes _ _ _ (Process.lift ((parseHookOutput (B.hook c.hookCommand
    (hookPayload run job binding receipt report))).mapError PassError.hook) >>= _) _ _
  rw [hparse]
  change Finishes _ _ _ (Process.lift ((checkBindingAgainstJob execution job binding.journal
    receipt).mapError PassError.hook) >>= _) _ _
  rw [hcheck]
  exact Finishes.done stable_proven hu (fun _ h => h)

lemma executeAggregate_finishes (hlaws : AggregateLaws P c.wallet) {branchOutputs : List Json}
    (hhook : c.hookCommand.isEmpty = false) (hours : ours c job = true)
    (hgood : NoFailure P B c run job binding receipt report chain) (hw : Held P c run chain w) :
    Finishes (P.holding run.aggregateJob) c.wallet B
      (executeAggregate c {run with record := r} job binding receipt branchOutputs) w
      (fun done v => done = true ∧ Proven c run job binding receipt report v) := by
  unfold executeAggregate claimAggregate
  rw [if_pos hours]
  change Finishes _ _ _ (Process.lift (require (resultReport run binding) PassError.malformed) >>= _) _ _
  rw [hgood.reports]
  refine (submitAggregate_finishes hlaws hgood hw).andThen ?_
  rintro submitted v ⟨⟨r',rfl⟩,hv⟩
  rw [if_neg (by simp [RunnerConfig.allowUnproven,hhook])]
  refine (proveBonsol_finishes hhook hgood hv).andThen ?_
  intro execution v hv
  refine (passSave_finishes _ stable_proven hv (fun _ hv => hv)).andThen ?_
  intro _ v hv
  exact Finishes.done stable_proven hv (fun v hv => ⟨rfl,hv⟩)

/-- A pass without failures over a run whose job the runner holds. -/
lemma runOnce_finishes (hlaws : AggregateLaws P c.wallet) (hhook : c.hookCommand.isEmpty = false)
    (hfile : w.file = some {run with record := r}) (hr : r.aggregateSubmitted = false)
    (hjob : w.chain run.aggregateJob = some job) (hbound : Bound job) (hours : ours c job = true)
    (hgood : NoFailure P B c run job binding receipt report w.chain) :
    Finishes (P.holding run.aggregateJob) c.wallet B (runOnce c) w
      (fun done v => done = true ∧ Proven c run job binding receipt report v) := by
  have heligible : eligible c job = true := by
    simp [eligible,hbound.jobClass,hours,hbound.inputCid,hhook]
  have hheld : Held P c run w.chain w := ⟨P.others_refl _ _,rfl⟩
  have hK : Stable (service (P.holding run.aggregateJob) c.wallet)
      (fun v => Held P c run w.chain v ∧ v.file = some {run with record := r}) := by
    intro v u hd hv
    exact ⟨stable_held v u hd hv.1,hd.2.1.trans hv.2⟩
  refine Finishes.query hK ⟨hheld,hfile⟩ (fun v _ => ⟨true,v,rfl,rfl⟩) ?_
  intro v locked u hv hserve hlocked
  obtain rfl : u = v := hserve
  obtain rfl : locked = true := hlocked
  refine Finishes.query hK hv (fun v _ => ⟨v.file,v,⟨rfl,rfl⟩,trivial⟩) ?_
  intro v file u hv hserve _
  obtain ⟨rfl,rfl⟩ := hserve
  rw [hv.2]
  change Finishes _ _ _ (if r.aggregateSubmitted = true then _ else _) _ _
  rw [if_neg (by simp [hr])]
  apply Finishes.recover
  refine Finishes.query stable_held hv.1
    (fun v _ => ⟨.ok (v.chain run.aggregateJob),v,⟨rfl,.inl rfl⟩,_,rfl⟩) ?_
  intro v answer u hv hserve hanswer
  obtain ⟨found,rfl⟩ := hanswer
  obtain ⟨rfl,hread | ⟨_,hbad⟩⟩ := hserve
  · obtain rfl : found = some job := (Except.ok.inj hread).trans (hv.2.trans hjob)
    change Finishes _ _ _ (if eligible c job = false then _ else _) _ _
    rw [if_neg (by simp [heligible])]
    refine (bindAggregateJob_finishes hgood hv).andThen ?_
    rintro bound v ⟨⟨outputs,rfl⟩,hv⟩
    exact executeAggregate_finishes hlaws hhook hours hgood hv
  · cases hbad

/-- A run whose manifest says submitted is read and left alone. -/
lemma runOnce_leaves {who : Digest} (hfile : w.file = some run)
    (hsubmitted : run.record.aggregateSubmitted = true) {rest : Pass Bool}
    (h : Reaches (service P who) w (runOnce c) v rest) :
    v.file = w.file ∧ v.landed = w.landed ∧ v.hooked = w.hooked := by
  let same : World → Prop := fun v => v.file = w.file ∧ v.landed = w.landed ∧ v.hooked = w.hooked
  have hK : Stable (service P who) same := by
    intro u v hd hu
    exact ⟨hd.2.1.trans hu.1,hd.2.2.1.trans hu.2.1,hd.2.2.2.trans hu.2.2⟩
  have hdone : ∀ u, same u → Safe (service P who) same (fun _ _ => True) (fun _ _ => True)
      (.done false : Pass Bool) u := fun u hu => Safe.done hK hu (fun _ hv => ⟨hv,trivial⟩)
  have hsafe : Safe (service P who) same (fun _ _ => True) (fun _ _ => True) (runOnce c) w := by
    apply Safe.query hK ⟨rfl,rfl,rfl⟩
    intro u hu
    refine ⟨hu,trivial,?_⟩
    intro locked u' hs
    obtain rfl : u' = u := hs
    split
    · apply Safe.query hK hu
      intro u hu
      refine ⟨hu,trivial,?_⟩
      rintro file u' ⟨rfl,rfl⟩
      rw [hu.1,hfile]
      dsimp only
      rw [if_pos hsubmitted]
      exact hdone u' hu
    · exact hdone u' hu
  exact (hsafe.reaches h).invariant

end Recovered

section Sample
open Settlement
variable {P : Program} {c : RunnerConfig} {run : RunManifest} {w : World} {job : Job} {host : Runner}
  {binding : AggregateBinding} {artifact outputs : Bytes} {branches : List Json} {who : Digest}

/-- A pass over an artifact, up to the claim. -/
lemma runOnce_reads (hfile : w.file = some run) (hfirst : run.record.aggregateSubmitted = false)
    (hjob : w.chain run.aggregateJob = some job) (heligible : eligible c job = true)
    (hbind : bindCommittedArtifact host job = .ok binding)
    (hpacked : binding.journal.committedOutputs = some outputs)
    (hrecords : branchRecords binding.artifact = some branches) :
    Reaches (service P who) w (runOnce c) w
      ((executeAggregate c run job binding outputs (branches.map (fun _ => .null))).recover
        (fun _ => .done false)) := by
  refine .step (a := true) rfl ?_
  refine .step (a := some run) ⟨hfile.symm,rfl⟩ ?_
  change Reaches _ _ (if run.record.aggregateSubmitted = true then _ else _) _ _
  rw [if_neg (by simp [hfirst])]
  have hfetch : (service P who).serves (.fetchJob run.aggregateJob) w (.ok (some job)) w :=
    ⟨rfl,.inl (by rw [hjob])⟩
  exact Reaches.recover (tryAggregate_reaches c run w heligible hbind hpacked hrecords hfetch rfl
    (branchOutputs_reaches branches (fun _ _ => rfl)))

/-- What the runner reports of the panel's branches, none of whose outputs it can fetch. -/
def sampleReports : List Json := (samplePanel.entries.map sampleRecord).map (fun _ => .null)

/-- A pass over the sample artifact by a runner that has not claimed the job yet. -/
lemma sample_reads (h : Sample artifact outputs) {reduction : AggregateReduction}
    (hreduction : samplePanel.cliReduction = reduction) :
    Reaches (service sampleProgram (natKey 4)) (sharedWorld artifact outputs) (runOnce sampleConfig)
      (sharedWorld artifact outputs) ((executeAggregate sampleConfig (sharedRun artifact outputs)
        (openSampleJob artifact outputs) ⟨artifact,⟨framedInputDigest artifact,reduction⟩⟩ outputs
        sampleReports).recover (fun _ => .done false)) := by
  have hbind : bindCommittedArtifact (sampleRunner artifact settledChain)
      (openSampleJob artifact outputs) =
        .ok ⟨artifact,⟨framedInputDigest artifact,samplePanel.cliReduction⟩⟩ := h.binds
  have hpacks := h.packs
  rw [hreduction] at hbind hpacks
  exact runOnce_reads rfl rfl (sharedChain_aggregate artifact outputs) rfl hbind hpacks h.records

lemma sampleProgram_aggregate (worker : Digest) : AggregateLaws sampleProgram worker where
  claims chain key chain' h := by
    obtain ⟨job,hjob,-,rfl⟩ := moveJob_eq_some.mp h
    exact ⟨job,_,hjob,Function.update_self _ _ _,by
      simp [Awaiting,jobStatusClaimed,jobStatusAwaitingArtifact],rfl,rfl⟩
  submits chain key outputCid resultBytes chain' h := by
    obtain ⟨job,hjob,-,rfl⟩ := moveJob_eq_some.mp h
    exact ⟨_,Function.update_self _ _ _,rfl,rfl⟩
  others chain chain' h key job hjob hpast := by
    rcases h key with hsame | ⟨job₀,bytes,hjob₀,-,hafter⟩
    · exact ⟨job,hsame.trans hjob,hpast,rfl,rfl⟩
    · obtain rfl := Option.some.inj (hjob₀.symm.trans hjob)
      exact ⟨_,hafter,by simp [Awaiting,settledJob,jobStatusSettled,jobStatusAwaitingArtifact],rfl,rfl⟩

lemma sample_submits {chain : Chain} {key : Digest} (outputCid : String) (resultBytes : Bytes)
    (h : chain key = some job) (hclaimed : job.status = jobStatusClaimed) :
    ∃ chain', sampleProgram.executes chain
      (.submitReceipt job.worker key outputCid resultBytes) chain' ∧
      ∃ job', chain' key = some job' ∧ job'.worker = job.worker :=
  ⟨_,moveJob_eq_some.mpr ⟨job,h,by simp [hclaimed],rfl⟩,_,Function.update_self _ _ _,rfl⟩

/-- The outside on a day when the sample pass meets no failure. -/
def provingBackends (artifact outputs : Bytes) : Backends where
  bindHost _ := Prediction.settledHost (fun _ => [])
  runnerHost _ := sampleRunner artifact settledChain
  hook _ _ := sampleStdout artifact outputs

/-- The aggregate job of the sample run once the sample runner claimed it. -/
def claimedSampleJob (artifact outputs : Bytes) : Job :=
  {openSampleJob artifact outputs with status := jobStatusClaimed, worker := natKey 4}

lemma sample_noFailure (h : Sample artifact outputs) {chain : Chain}
    (hjob : chain (natKey 9) = some (claimedSampleJob artifact outputs)) :
    ∃ report, NoFailure sampleProgram (provingBackends artifact outputs) sampleConfig
      (sharedRun artifact outputs) (claimedSampleJob artifact outputs)
      ⟨artifact,⟨framedInputDigest artifact,samplePanel.cliReduction⟩⟩ outputs report chain := by
  have hbind : bindCommittedArtifact (sampleRunner artifact settledChain)
      (claimedSampleJob artifact outputs) =
        .ok ⟨artifact,⟨framedInputDigest artifact,samplePanel.cliReduction⟩⟩ := h.binds
  have hpacks := h.packs
  generalize samplePanel.cliReduction = reduction at hbind hpacks
  refine ⟨_,?_,hpacks,⟨_,h.records⟩,rfl,?_,_,h.parses,?_⟩
  · intro _ _
    exact hbind
  · intro chain' hheld outputCid
    obtain ⟨chain'',hex,-⟩ := sample_submits outputCid outputs (hheld.2.trans hjob) rfl
    exact ⟨chain'',hex⟩
  · exact checkBindingAgainstJob_eq_ok.mpr ⟨rfl,rfl,rfl,rfl,rfl⟩

end Sample

section Recovery
open Settlement
variable {P : Program} {B : Backends} {c : RunnerConfig} {run : RunManifest} {w : World} {job : Job}
  {binding : AggregateBinding} {receipt : Bytes} {report : Json}

/-- The runner recovers from every interruption between its claim and its receipt. After any history
of passes, each stopped anywhere, in which the claim landed and no receipt did, if the job is still
claimed by this wallet then a pass without failures ends with the receipt on chain and its proof
asked for. A run recorded as submitted is left alone from then on. -/
theorem interrupted_claim_recovers (hlaws : AggregateLaws P c.wallet)
    (hhook : c.hookCommand.isEmpty = false) {w₀ : World} (hfile : w₀.file = some run)
    (hfirst : run.record.aggregateSubmitted = false) (hstart : w₀.landed = [])
    (hhistory : Relation.ReflTransGen (Stops (service P c.wallet) (runOnce c)) w₀ w)
    (hclaim : Transaction.claimJob c.wallet run.aggregateJob ∈ w.landed)
    (hreceipt : ¬ReceiptLanded c run w) (hjob : w.chain run.aggregateJob = some job)
    (hours : ours c job = true)
    (hgood : NoFailure P B c run job binding receipt report w.chain) :
    Finishes (P.holding run.aggregateJob) c.wallet B (runOnce c) w
      (fun done v => done = true ∧ Proven c run job binding receipt report v) ∧
    ∀ u v run' rest, u.file = some run' → run'.record.aggregateSubmitted = true →
      Reaches (service P c.wallet) u (runOnce c) v rest →
      v.file = u.file ∧ v.landed = u.landed ∧ v.hooked = u.hooked := by
  constructor
  · have hw₀ : Unsubmitted c run w₀ := by
      refine ⟨⟨run.record,hfile,hfirst⟩,?_⟩
      simp [hstart]
    rcases recoverable_of_history hlaws (.inl hw₀) hhistory with hu | hlanded
    · obtain ⟨r,hfile',hr⟩ := hu.file
      obtain ⟨job',hjob',hbound⟩ := hu.claimed hclaim
      obtain rfl := Option.some.inj (hjob.symm.trans hjob')
      exact runOnce_finishes hlaws hhook hfile' hr hjob hbound hours hgood
    · exact absurd hlanded hreceipt
  · intro u v run' rest hu hsubmitted hreach
    exact runOnce_leaves hu hsubmitted hreach

/-- A pass whose claim lands although the send raises, at the theorem. -/
theorem interrupted_claim_recovers_sample : ∃ w₀ w run job binding receipt report B,
    Stops (service sampleProgram (natKey 4)) (runOnce sampleConfig) w₀ w ∧
    w.chain (natKey 9) = some job ∧ ours sampleConfig job = true ∧
    Finishes (sampleProgram.holding (natKey 9)) (natKey 4) B (runOnce sampleConfig) w
      (fun done v => done = true ∧ Proven sampleConfig run job binding receipt report v) := by
  obtain ⟨artifact,outputs,h⟩ : ∃ artifact outputs, Sample artifact outputs := ⟨_,_,sample_holds⟩
  obtain ⟨chain,hlands,hjob⟩ : ∃ chain,
      sampleProgram.executes (sharedChain artifact outputs) (.claimJob (natKey 4) (natKey 9)) chain ∧
      chain (natKey 9) = some (claimedSampleJob artifact outputs) :=
    ⟨_,sample_claims (natKey 4) (sharedChain_aggregate artifact outputs) rfl,
      Function.update_self _ _ _⟩
  have hstop : Reaches (service sampleProgram (natKey 4)) (sharedWorld artifact outputs)
      (runOnce sampleConfig)
      ((sharedWorld artifact outputs).land (.claimJob (natKey 4) (natKey 9)) chain) (.done false) :=
    (sample_reads h rfl).trans (.step (a := .error timeout) (.inr ⟨_,rfl,.inr ⟨chain,hlands,rfl⟩⟩) .start)
  obtain ⟨report,hgood⟩ := sample_noFailure h hjob
  have hnone : ¬ReceiptLanded sampleConfig (sharedRun artifact outputs)
      ((sharedWorld artifact outputs).land (.claimJob (natKey 4) (natKey 9)) chain) := by
    simp [ReceiptLanded,World.land,sharedWorld]
  exact ⟨_,_,_,_,_,_,_,_,⟨_,hstop⟩,hjob,rfl,(interrupted_claim_recovers
    (sampleProgram_aggregate (natKey 4)) rfl rfl rfl rfl (.single ⟨_,hstop⟩)
    (List.mem_singleton_self _) hnone hjob rfl hgood).1⟩

/-- A pass that stops right after it recorded its receipt, and one whose hook fails, leave a run that
no later pass asks a proof for. -/
theorem recorded_receipt_not_proved : ∃ w₀ w v job,
    Stops (service sampleProgram (natKey 4)) (runOnce sampleConfig) w₀ w ∧
    Transaction.claimJob (natKey 4) (natKey 9) ∈ w.landed ∧
    w.chain (natKey 9) = some job ∧ job.worker = natKey 4 ∧ w.hooked = [] ∧
    (∀ u rest, Reaches (service sampleProgram (natKey 4)) w (runOnce sampleConfig) u rest →
      u.hooked = []) ∧
    Reaches (service sampleProgram (natKey 4)) w₀ (runOnce sampleConfig) v (.done false) ∧
    (∀ u rest, Reaches (service sampleProgram (natKey 4)) v (runOnce sampleConfig) u rest →
      u.hooked = v.hooked ∧ u.file = v.file) := by
  obtain ⟨artifact,outputs,h⟩ : ∃ artifact outputs, Sample artifact outputs := ⟨_,_,sample_holds⟩
  obtain ⟨chain,hlands,hjob⟩ : ∃ chain,
      sampleProgram.executes (sharedChain artifact outputs) (.claimJob (natKey 4) (natKey 9)) chain ∧
      chain (natKey 9) = some (claimedSampleJob artifact outputs) :=
    ⟨_,sample_claims (natKey 4) (sharedChain_aggregate artifact outputs) rfl,
      Function.update_self _ _ _⟩
  obtain ⟨chain',hsubmits,job,hjob',hworker⟩ := sample_submits "cid-aggregate-output" outputs hjob rfl
  have hclaim : Reaches (service sampleProgram (natKey 4)) (sharedWorld artifact outputs)
      (runOnce sampleConfig) _ _ :=
    (sample_reads h rfl).trans (.step (a := .ok "signature") (.inl ⟨_,rfl,chain,hlands,rfl⟩) .start)
  have hsave := hclaim.trans (.step (a := (1757000000 : ℕ)) rfl
    (.step (a := .ok ()) (.inl ⟨rfl,rfl⟩) .start))
  have hsubmit := hsave.trans (.step (a := .ok "cid-aggregate-output") rfl
    (.step (a := .ok "signature") (.inl ⟨_,rfl,chain',hsubmits,rfl⟩)
      (.step (a := .ok ()) (.inl ⟨rfl,rfl⟩) .start)))
  have hfail := hsubmit.trans (.step (a := .error "timed out") rfl .start)
  refine ⟨_,_,_,job,⟨_,hsubmit⟩,?_,hjob',hworker,rfl,?_,hfail,?_⟩
  · exact List.mem_append_left _ List.mem_concat_self
  · intro u rest hu
    exact (runOnce_leaves rfl rfl hu).2.2
  · intro u rest hu
    have hleft := runOnce_leaves rfl rfl hu
    exact ⟨hleft.2.2,hleft.1⟩

end Recovery

end Kswarm.Lifecycle
