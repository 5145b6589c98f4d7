import Kswarm.Worker.AggregatePass
import Kswarm.Settlement.Aggregate

/-! The receipt the aggregate runner submits and the claim its hook proves, over every
conversation a pass can have with the cluster, IPFS and the hook. -/
namespace Kswarm.Settlement
open Cli Worker

/-- What a pass has been told so far. -/
abbrev Conversation := List (Sigma Ans)

/-- The conversation derives `receipt` from the artifact the job `key` committed. -/
structure Bound (log : Conversation) (key : Digest) (job : Job) (binding : AggregateBinding)
    (receipt : Bytes) : Prop where
  fetched : ⟨.fetchJob key,.ok (some job)⟩ ∈ log
  reduced : ∃ host, ⟨.runnerHost,.ok host⟩ ∈ log ∧ bindCommittedArtifact host job = .ok binding
  packed : binding.journal.committedOutputs = some receipt

lemma Bound.mono {log log' : Conversation} {key : Digest} {job : Job} {binding : AggregateBinding}
    {receipt : Bytes} (h : Bound log key job binding receipt) (hsub : log ⊆ log') :
    Bound log' key job binding receipt := by
  obtain ⟨host,hhost,hbind⟩ := h.reduced
  exact ⟨hsub h.fetched,⟨host,hsub hhost,hbind⟩,h.packed⟩

/-- No receipt was submitted and no proof requested yet. -/
def Quiet (log : Conversation) : Prop :=
  ∀ e ∈ log, (∀ worker key cid receipt, e.1 ≠ .send (.submitReceipt worker key cid receipt)) ∧
    ∀ command payload, e.1 ≠ .hook command payload

/-- Every submitted receipt was derived from the job's own artifact. -/
def Submits (log : Conversation) : Prop :=
  ∀ e ∈ log, ∀ worker key cid receipt, e.1 = .send (.submitReceipt worker key cid receipt) →
    ∃ job binding, Bound log key job binding receipt

lemma Quiet.submits {log : Conversation} (h : Quiet log) : Submits log := by
  intro e he worker key cid receipt heq
  exact absurd heq ((h e he).1 worker key cid receipt)

lemma Quiet.snoc {log : Conversation} {e : Sigma Ans} (h : Quiet log)
    (hs : ∀ worker key cid receipt, e.1 ≠ .send (.submitReceipt worker key cid receipt))
    (hh : ∀ command payload, e.1 ≠ .hook command payload) : Quiet (log ++ [e]) := by
  intro e' he'
  rcases List.mem_append.mp he' with hl | hr
  · exact h e' hl
  · obtain rfl := List.mem_singleton.mp hr
    exact ⟨hs,hh⟩

lemma Submits.snoc {log : Conversation} {e : Sigma Ans} (h : Submits log)
    (he : ∀ worker key cid receipt, e.1 = .send (.submitReceipt worker key cid receipt) →
      ∃ job binding, Bound log key job binding receipt) : Submits (log ++ [e]) := by
  intro e' he' worker key cid receipt heq
  have hbound : ∃ job binding, Bound log key job binding receipt := by
    rcases List.mem_append.mp he' with hl | hr
    · exact h e' hl worker key cid receipt heq
    · obtain rfl := List.mem_singleton.mp hr
      exact he worker key cid receipt heq
  obtain ⟨job,binding,hb⟩ := hbound
  exact ⟨job,binding,hb.mono (List.subset_append_left _ _)⟩

/-- No proof was requested yet. -/
def Unproved (log : Conversation) : Prop := ∀ e ∈ log, ∀ command payload, e.1 ≠ .hook command payload

/-- The receipt of a job was submitted, and the call returned. -/
def Submitted (log : Conversation) (key : Digest) (receipt : Bytes) : Prop :=
  ∃ worker cid signature,
    (⟨.send (.submitReceipt worker key cid receipt),.ok signature⟩ : Sigma Ans) ∈ log

lemma Submitted.mono {log log' : Conversation} {key : Digest} {receipt : Bytes}
    (h : Submitted log key receipt) (hsub : log ⊆ log') : Submitted log' key receipt := by
  obtain ⟨worker,cid,signature,hmem⟩ := h
  exact ⟨worker,cid,signature,hsub hmem⟩

/-- Every hook output the pass received passed both checks, for the receipt it had derived and
submitted. -/
def Proved (log : Conversation) : Prop :=
  ∀ e ∈ log, ∀ command payload, e.1 = .hook command payload →
    ∃ key job binding receipt stdout execution, Bound log key job binding receipt ∧
      Submitted log key receipt ∧
      e = ⟨.hook command payload,.ok stdout⟩ ∧ parseHookOutput stdout = .ok execution ∧
      checkBindingAgainstJob execution job binding.journal receipt = .ok ()

lemma Unproved.proved {log : Conversation} (h : Unproved log) : Proved log := by
  intro e he command payload heq
  exact absurd heq (h e he command payload)

section Stages
variable {c : RunnerConfig} {run : RunManifest} {job : Job} {binding : AggregateBinding}
  {receipt : Bytes} {log : Conversation}

/-- The part of a pass that only reads: it hears more, and submits nothing. -/
def Reads {α : Type} (p : Pass α) (base log : Conversation) (post : α → Conversation → Prop) :
    Prop :=
  Safe (transcript Op Ans) Submits (fun _ _ => True)
    (fun r log' => Quiet log' ∧ base ⊆ log' ∧ ∀ a, r = .ok a → post a log') p log

lemma Reads.refuse {α : Type} {base : Conversation} {post : α → Conversation → Prop}
    (hq : Quiet log) (hb : base ⊆ log) (e : PassError) : Reads (.raise e) base log post :=
  .sayRaise hq.submits ⟨hq,hb,by simp⟩

lemma branchOutputsForReport_reads (branches : List Json) {base : Conversation} (hq : Quiet log)
    (hb : base ⊆ log) : Reads (branchOutputsForReport branches) base log (fun _ _ => True) := by
  induction branches generalizing log with
  | nil => exact .sayDone hq.submits ⟨hq,hb,fun _ _ => trivial⟩
  | cons branch branches ih =>
    apply Safe.say hq.submits trivial
    intro output
    have hq' : Quiet (log ++ [⟨.branchOutput branch,output⟩]) := hq.snoc (by simp) (by simp)
    have hb' : base ⊆ log ++ [⟨.branchOutput branch,output⟩] := List.subset_append_of_subset_left _ hb
    split
    · exact Reads.refuse hq' hb' _
    · refine (ih hq' hb').andThen ?_ (fun _ _ _ hr => ⟨hr.1,hr.2.1,by simp⟩)
      intro outputs log' _ hr
      exact .sayDone hr.1.submits ⟨hr.1,hr.2.1,fun _ _ => trivial⟩

lemma bindAggregateJob_reads (key : Digest) (hq : Quiet log)
    (hf : (⟨.fetchJob key,.ok (some job)⟩ : Sigma Ans) ∈ log) :
    Reads (bindAggregateJob job) log log (fun b log' => Bound log' key job b.1 b.2.1) := by
  apply Safe.say hq.submits trivial
  intro answer
  have hq' : Quiet (log ++ [⟨.runnerHost,answer⟩]) := hq.snoc (by simp) (by simp)
  have hb' : log ⊆ log ++ [⟨.runnerHost,answer⟩] := List.subset_append_left _ _
  refine Safe.lift (fun host hhost => ?_) (fun e _ => Reads.refuse hq' hb' e)
  refine Safe.lift (fun binding hbinding => ?_) (fun e _ => Reads.refuse hq' hb' e)
  refine Safe.lift (fun resultBytes hbytes => ?_) (fun e _ => Reads.refuse hq' hb' e)
  refine Safe.lift (fun branches _ => ?_) (fun e _ => Reads.refuse hq' hb' e)
  obtain rfl : answer = .ok host := (ok_of_mapError _ _ _).mp hhost
  refine (branchOutputsForReport_reads branches hq' (List.Subset.refl _)).andThen ?_
    (fun _ _ _ hr => ⟨hr.1,List.Subset.trans hb' hr.2.1,by simp⟩)
  intro outputs log' _ hr
  obtain ⟨hquiet,hbase,-⟩ := hr
  have hlog : log ⊆ log' := List.Subset.trans hb' hbase
  refine .sayDone hquiet.submits ⟨hquiet,hlog,?_⟩
  intro b hb
  obtain rfl : _ = b := Except.ok.inj hb
  exact ⟨hlog hf,⟨host,hbase (by simp),(ok_of_mapError _ _ _).mp hbinding⟩,
    require_eq_ok.mp hbytes⟩

lemma save_reads {base : Conversation} (hq : Quiet log) (hb : base ⊆ log) :
    Reads (save run) base log (fun _ _ => True) := by
  apply Safe.say hq.submits trivial
  intro answer
  have hq' : Quiet (log ++ [⟨.save run,answer⟩]) := hq.snoc (by simp) (by simp)
  have hb' : base ⊆ log ++ [⟨.save run,answer⟩] := List.subset_append_of_subset_left _ hb
  exact .sayLift hq'.submits ⟨hq',hb',fun _ _ => trivial⟩

lemma claimAggregate_reads (hq : Quiet log) :
    Reads (claimAggregate c run job) log log
      (fun claimed _ => ∀ m, claimed = some m → m.aggregateJob = run.aggregateJob) := by
  unfold claimAggregate
  split
  · refine .sayDone hq.submits ⟨hq,List.Subset.refl _,?_⟩
    intro a ha m hm
    obtain rfl : _ = a := Except.ok.inj ha
    rw [← Option.some.inj hm]
  · apply Safe.say hq.submits trivial
    intro answer
    have hq' : Quiet (log ++ [⟨.send (.claimJob c.wallet run.aggregateJob),answer⟩]) :=
      hq.snoc (by simp) (by simp)
    have hb' := List.subset_append_left log [⟨.send (.claimJob c.wallet run.aggregateJob),answer⟩]
    split
    · refine .sayDone hq'.submits ⟨hq',hb',?_⟩
      intro a ha m hm
      obtain rfl : none = a := Except.ok.inj ha
      simp at hm
    · apply Safe.say hq'.submits trivial
      intro now
      have hq'' := hq'.snoc (e := ⟨.clock,now⟩) (by simp) (by simp)
      refine (save_reads hq'' (List.subset_append_of_subset_left _ hb')).andThen ?_
        (fun _ _ _ hr => ⟨hr.1,hr.2.1,by simp⟩)
      intro _ log' _ hr
      refine .sayDone hr.1.submits ⟨hr.1,hr.2.1,?_⟩
      intro a ha m hm
      obtain rfl : _ = a := Except.ok.inj ha
      rw [← Option.some.inj hm]

lemma Quiet.unproved (hq : Quiet log) : Unproved log := by
  intro e he
  exact (hq e he).2

lemma Unproved.snoc {e : Sigma Ans} (h : Unproved log)
    (he : ∀ command payload, e.1 ≠ .hook command payload) : Unproved (log ++ [e]) := by
  intro e' he'
  rcases List.mem_append.mp he' with hl | hr
  · exact h e' hl
  · obtain rfl := List.mem_singleton.mp hr
    exact he

/-- The rest of a pass, from the receipt on. -/
def Submitting {α : Type} (p : Pass α) (log : Conversation) (post : α → Conversation → Prop) :
    Prop :=
  Safe (transcript Op Ans) Submits (fun _ _ => True)
    (fun r log' => ∀ a, r = .ok a → post a log') p log

lemma submitAggregate_submitting {report : Json} {branchOutputs : List Json} (hq : Quiet log)
    (hb : Bound log run.aggregateJob job binding receipt) :
    Submitting (submitAggregate c run job binding receipt report branchOutputs) log
      (fun _ log' => Unproved log' ∧ Bound log' run.aggregateJob job binding receipt ∧
        Submitted log' run.aggregateJob receipt) := by
  apply Safe.say hq.submits trivial
  intro added
  have hq₁ := hq.snoc (e := ⟨.addJson "aggregate-output.json"
    (aggregateOutput c run job binding receipt report branchOutputs),added⟩) (by simp) (by simp)
  have hb₁ := hb.mono (List.subset_append_left log [⟨.addJson "aggregate-output.json"
    (aggregateOutput c run job binding receipt report branchOutputs),added⟩])
  refine Safe.lift (fun resultCid _ => ?_) (fun e _ => .sayRaise hq₁.submits (by simp))
  apply Safe.say hq₁.submits trivial
  intro answer
  have hs₂ := hq₁.submits.snoc
    (e := ⟨.send (.submitReceipt c.wallet run.aggregateJob resultCid receipt),answer⟩) (by
      intro worker key cid receipt' heq
      cases heq
      exact ⟨job,binding,hb₁⟩)
  have hu₂ := hq₁.unproved.snoc
    (e := ⟨.send (.submitReceipt c.wallet run.aggregateJob resultCid receipt),answer⟩) (by simp)
  have hb₂ := hb₁.mono (List.subset_append_left _
    [⟨.send (.submitReceipt c.wallet run.aggregateJob resultCid receipt),answer⟩])
  refine Safe.lift (fun signature hsent => ?_) (fun e _ => .sayRaise hs₂ (by simp))
  obtain rfl : answer = .ok signature := (ok_of_mapError _ _ _).mp hsent
  have hsub₂ := List.subset_append_right (log ++ [⟨.addJson "aggregate-output.json"
    (aggregateOutput c run job binding receipt report branchOutputs),added⟩])
    [⟨.send (.submitReceipt c.wallet run.aggregateJob resultCid receipt),.ok signature⟩]
  apply Safe.bind
  apply Safe.say hs₂ trivial
  intro saved
  have hs₃ := hs₂.snoc (e := ⟨.save _,saved⟩) (by simp)
  refine .sayLift hs₃ ?_
  split
  · refine .sayDone hs₃ ?_
    intro _ _
    exact ⟨hu₂.snoc (by simp),hb₂.mono (List.subset_append_left _ _),
      c.wallet,resultCid,signature,List.mem_append_left _ (hsub₂ (List.mem_singleton_self _))⟩
  · simp

lemma proveBonsol_submitting {report : Json} {key : Digest} (hs : Submits log) (hu : Unproved log)
    (hb : Bound log key job binding receipt) (hsent : Submitted log key receipt) :
    Submitting (proveBonsol c run job binding receipt report) log (fun _ log' => Proved log') := by
  unfold proveBonsol
  split
  · exact .sayRaise hs (by simp)
  · apply Safe.say hs trivial
    intro answer
    have hs' := hs.snoc (e := ⟨.hook c.hookCommand
      (hookPayload run job binding receipt report),answer⟩) (by simp)
    have hb' := hb.mono (List.subset_append_left log [⟨.hook c.hookCommand
      (hookPayload run job binding receipt report),answer⟩])
    refine Safe.lift (fun stdout hout => ?_) (fun e _ => .sayRaise hs' (by simp))
    refine Safe.lift (fun execution hparse => ?_) (fun e _ => .sayRaise hs' (by simp))
    refine Safe.lift (fun _ hcheck => ?_) (fun e _ => .sayRaise hs' (by simp))
    refine .sayDone hs' ?_
    intro _ _ e he command payload heq
    rcases List.mem_append.mp he with hl | hr
    · exact absurd heq (hu e hl command payload)
    · obtain rfl := List.mem_singleton.mp hr
      obtain rfl : answer = .ok stdout := (ok_of_mapError _ _ _).mp hout
      cases heq
      exact ⟨_,job,binding,receipt,stdout,execution,hb',
        hsent.mono (List.subset_append_left _ _),rfl,(ok_of_mapError _ _ _).mp hparse,
        (ok_of_mapError _ _ _).mp hcheck⟩

lemma Proved.snoc {e : Sigma Ans} (h : Proved log)
    (he : ∀ command payload, e.1 ≠ .hook command payload) : Proved (log ++ [e]) := by
  intro e' he' command payload heq
  rcases List.mem_append.mp he' with hl | hr
  · obtain ⟨key,job,binding,receipt,stdout,execution,hb,hsent,hrest⟩ := h e' hl command payload heq
    exact ⟨key,job,binding,receipt,stdout,execution,hb.mono (List.subset_append_left _ _),
      hsent.mono (List.subset_append_left _ _),hrest⟩
  · obtain rfl := List.mem_singleton.mp hr
    exact absurd heq (he command payload)

lemma save_proved (hs : Submits log) (hp : Proved log) :
    Submitting (save run) log (fun _ log' => Proved log') := by
  apply Safe.say hs trivial
  intro answer
  exact .sayLift (hs.snoc (by simp)) (fun _ _ => hp.snoc (by simp))

lemma executeAggregate_submitting {branchOutputs : List Json} (hq : Quiet log)
    (hb : Bound log run.aggregateJob job binding receipt) :
    Submitting (executeAggregate c run job binding receipt branchOutputs) log
      (fun _ log' => Proved log') := by
  refine (claimAggregate_reads hq).andThen ?_ (by simp)
  intro claim log₁ _ hclaim
  obtain ⟨hq₁,hsub₁,hkey⟩ := hclaim
  cases claim with
  | none => exact .sayDone hq₁.submits (fun _ _ => hq₁.unproved.proved)
  | some claimed =>
    have hb₁ : Bound log₁ claimed.aggregateJob job binding receipt :=
      hkey (some claimed) rfl claimed rfl ▸ hb.mono hsub₁
    refine Safe.lift (fun report _ => ?_) (fun e _ => .sayRaise hq₁.submits (by simp))
    refine (submitAggregate_submitting hq₁ hb₁).andThen ?_ (by simp)
    intro submitted log₂ hs₂ hr
    obtain ⟨hu₂,hb₂,hsent₂⟩ := hr submitted rfl
    split
    · exact .sayDone hs₂ (fun _ _ => hu₂.proved)
    · refine (proveBonsol_submitting hs₂ hu₂ hb₂ hsent₂).andThen ?_ (by simp)
      intro execution log₃ hs₃ hp₃
      refine (save_proved hs₃ (hp₃ execution rfl)).andThen ?_ (by simp)
      intro _ log₄ hs₄ hp₄
      exact .sayDone hs₄ (fun _ _ => hp₄ () rfl)

lemma tryAggregate_submitting (c : RunnerConfig) (run : RunManifest) :
    Submitting (tryAggregate c run) [] (fun _ log' => Proved log') := by
  have hq : Quiet [] := by simp [Quiet]
  apply Safe.say hq.submits trivial
  intro answer
  have hq' := hq.snoc (e := ⟨.fetchJob run.aggregateJob,answer⟩) (by simp) (by simp)
  refine Safe.lift (fun found hfound => ?_) (fun e _ => .sayRaise hq'.submits (by simp))
  split
  · exact .sayDone hq'.submits (fun _ _ => hq'.unproved.proved)
  · rename_i job
    split
    · exact .sayDone hq'.submits (fun _ _ => hq'.unproved.proved)
    · obtain rfl : answer = .ok (some job) := (ok_of_mapError _ _ _).mp hfound
      refine (bindAggregateJob_reads run.aggregateJob hq' (by simp)).andThen ?_ (by simp)
      intro b log₁ _ hr
      exact executeAggregate_submitting hr.1 (hr.2.2 b rfl)

end Stages

/-- The journal of a derived receipt is the one the job expects, and a hook output that passes both
checks proves exactly that receipt. -/
lemma Bound.same_claim {log : Conversation} {key : Digest} {job : Job} {binding : AggregateBinding}
    {receipt : Bytes} (h : Bound log key job binding receipt) :
    sha256 (job.inputBundleHash.val ++ receipt) = job.expectedResultHash := by
  obtain ⟨host,-,hbind⟩ := h.reduced
  obtain ⟨hframed,hjournal,hhash,-,-⟩ := bindCommittedArtifact_ok hbind
  simp only [AggregateJournal.journalHash,h.packed,Option.map_some,Option.some.injEq] at hhash
  simp only [aggregateJournal,bind_eq_ok,pure_eq_ok] at hjournal
  obtain ⟨reduction,-,heq⟩ := hjournal
  rw [← hhash,← hframed,← heq]
  rfl

/-- What the runner submits and what the hook proves are the same claim. In every conversation of a
pass the submitted receipt is bound to the fetched job by `input_bundle_hash` and
`expected_result_hash`, a hook output accepted for it carries the job's own digests and the
receipt's hash, and a pass that returns has accepted every hook output it received. -/
theorem submitted_receipt_is_proved (c : RunnerConfig) (run : RunManifest) {log : Conversation}
    {rest : Pass Bool} (h : Reaches (transcript Op Ans) [] (tryAggregate c run) log rest) :
    (∀ worker key cid receipt answer,
      (⟨.send (.submitReceipt worker key cid receipt),answer⟩ : Sigma Ans) ∈ log →
      ∃ job binding, Bound log key job binding receipt ∧
        sha256 (job.inputBundleHash.val ++ receipt) = job.expectedResultHash ∧
        ∀ stdout execution, parseHookOutput stdout = .ok execution →
          checkBindingAgainstJob execution job binding.journal receipt = .ok () →
          execution.imageId = job.requiredSoftwareDigest ∧
          execution.inputDigest = job.inputBundleHash ∧
          execution.journalHash = job.expectedResultHash ∧
          execution.outputDigest = sha256 receipt) ∧
    (∀ returned, rest = .done returned → Proved log) := by
  have hsafe := (tryAggregate_submitting c run).reaches h
  constructor
  · intro worker key cid receipt answer hmem
    obtain ⟨job,binding,hb⟩ := hsafe.invariant _ hmem worker key cid receipt rfl
    refine ⟨job,binding,hb,hb.same_claim,?_⟩
    intro stdout execution hparse hcheck
    obtain ⟨houtputs,-,hinput,himage,hjournal⟩ := checkBindingAgainstJob_eq_ok.mp hcheck
    refine ⟨himage,hinput,hjournal,?_⟩
    rw [(parseHookOutput_ok hparse).1,houtputs]
  · intro returned hreturn
    subst hreturn
    exact hsafe.outcome returned rfl

section Samples
variable {W : Type} {S : Service Op Ans W} {w₁ w₂ w₃ : W} {job : Job} {host : Runner}
  {binding : AggregateBinding} {artifact outputs : Bytes} {branches branchOutputs : List Json}

/-- A pass over an artifact up to the claim. -/
lemma tryAggregate_reaches (c : RunnerConfig) (run : RunManifest) (w₀ : W)
    (heligible : eligible c job = true)
    (hbind : bindCommittedArtifact host job = .ok binding)
    (hpacked : binding.journal.committedOutputs = some outputs)
    (hrecords : branchRecords binding.artifact = some branches)
    (hfetch : S.serves (.fetchJob run.aggregateJob) w₀ (.ok (some job)) w₁)
    (hhost : S.serves .runnerHost w₁ (.ok host) w₂)
    (hread : Reaches S w₂ (branchOutputsForReport branches) w₃ (.done branchOutputs)) :
    Reaches S w₀ (tryAggregate c run) w₃
      (executeAggregate c run job binding outputs branchOutputs) := by
  refine .step hfetch ?_
  change Reaches S w₁ (if eligible c job = false then _ else _) _ _
  rw [if_neg (by simp [heligible])]
  refine .step hhost ?_
  change Reaches S w₂ (Process.bind (Process.bind
    (Process.lift ((bindCommittedArtifact host job).mapError PassError.binding)) _) _) _ _
  rw [hbind]
  change Reaches S w₂ (Process.bind (Process.bind
    (Process.lift (require binding.journal.committedOutputs (PassError.binding .notPacked))) _) _) _ _
  rw [hpacked]
  change Reaches S w₂ (Process.bind (Process.bind
    (Process.lift (require (branchRecords binding.artifact) PassError.malformed)) _) _) _ _
  rw [hrecords]
  exact (hread.bind (f := fun branchOutputs => pure (binding,outputs,branchOutputs))).bind

/-- The outputs of all branches are fetched from a world that stays as it is. -/
lemma branchOutputs_reaches {w : W} (branches : List Json)
    (h : ∀ branch ∈ branches, S.serves (.branchOutput branch) w (some .null) w) :
    Reaches S w (branchOutputsForReport branches) w (.done (branches.map (fun _ => .null))) := by
  induction branches with
  | nil => exact .start
  | cons branch branches ih =>
    refine .step (h branch List.mem_cons_self) ?_
    exact (ih (fun b hb => h b (List.mem_cons_of_mem _ hb))).bind

/-- A manifest whose aggregate job was bound. -/
def sampleManifest : RunManifest where
  schemaVersion := runSchemaVersion
  status := some .runOpen
  parentRun := natKey 9
  customer := natKey 3
  customerWallet := "customer"
  cluster := "local"
  parentManifestCid := "cid-manifest"
  parentManifest := .obj [("output_schema_hash",.str "00")]
  aggregatePlanCid := none
  aggregatePlan := .null
  combiner := "weighted-mean"
  combinerParameters := .obj []
  aggregateInputCid := some "cid-artifact"
  aggregateJob := natKey 9
  aggregateImageId := sampleImage
  aggregate := none
  branchJobs := []
  openParameters := ⟨nodeRoleWorkerProof,stakeTierT1,3600,3600,600⟩
  record := {}

/-- A runner with a hook, whose wallet is the sample job's worker. -/
def sampleConfig : RunnerConfig where
  wallet := natKey 4
  hookCommand := "prove"
  allowUnbound := false
  cluster := "local"
  permitted := by simp

/-- The sample job before anyone claimed it. -/
def openSampleJob (artifact outputs : Bytes) : Job :=
  {sampleJob artifact outputs with status := jobStatusOpen}

/-- What the hook prints for the sample. -/
def sampleExecution (artifact outputs : Bytes) : BonsolBinding where
  executionId := "execution"
  imageId := sampleImage
  inputDigest := framedInputDigest artifact
  outputDigest := sha256 outputs
  journalHash := journalHash (framedInputDigest artifact) outputs
  committedOutputs := outputs

def sampleStdout (artifact outputs : Bytes) : String :=
  String.ofList (Json.render (sampleExecution artifact outputs).toJson)

lemma sized_length {out : Bytes} {n : ℕ}
    (h : (if out.length ≠ n then none else some out) = some outputs) : outputs.length = n := by
  by_cases hl : out.length = n
  · rw [if_neg (not_not.mpr hl)] at h
    rw [← Option.some.inj h,hl]
  · rw [if_pos hl] at h
    cases h

lemma guarded_bind {α β : Type} {guard : Prop} [Decidable guard] {x : α} {f : α → Option β} {y : β}
    (h : (if guard then (some x >>= f) else (none >>= f)) = some y) : f x = some y := by
  by_cases hg : guard
  · rw [if_pos hg] at h
    exact h
  · rw [if_neg hg] at h
    cases h

/-- The committed bytes have one length. -/
lemma committedOutputs_length {reduction : AggregateReduction}
    (h : aggregateCommittedOutputs reduction = some outputs) :
    outputs.length = aggregateCommittedOutputsLen := by
  unfold aggregateCommittedOutputs at h
  obtain ⟨value,_,h₁⟩ := Option.bind_eq_some_iff.mp (guarded_bind h)
  obtain ⟨count,_,h₂⟩ := Option.bind_eq_some_iff.mp h₁
  exact sized_length h₂

/-- What the hook prints for the sample is accepted. -/
lemma Sample.parses (h : Sample artifact outputs) :
    parseHookOutput (sampleStdout artifact outputs) = .ok (sampleExecution artifact outputs) := by
  have hlength := committedOutputs_length h.packs
  refine parseHookOutput_render _ rfl ?_ ?_ ?_ rfl rfl
  · exact (by decide : (encode "execution").length ≤ maxExecutionIdBytes)
  · intro hnil
    rw [show outputs = [] from hnil] at hlength
    cases hlength
  · change outputs.length ≤ _
    rw [hlength]
    decide

/-- A hook output that is accepted. -/
lemma proveBonsol_reaches {c : RunnerConfig} {run : RunManifest} {report : Json} {stdout : String}
    {execution : BonsolBinding} (log : Conversation) (hcommand : c.hookCommand.isEmpty = false)
    (hparse : parseHookOutput stdout = .ok execution)
    (hcheck : checkBindingAgainstJob execution job binding.journal outputs = .ok ()) :
    Reaches (transcript Op Ans) log (proveBonsol c run job binding outputs report)
      (log ++ [⟨.hook c.hookCommand (hookPayload run job binding outputs report),.ok stdout⟩])
      (.done execution) := by
  unfold proveBonsol
  rw [if_neg (by simp [hcommand])]
  refine .step (a := .ok stdout) rfl ?_
  change Reaches _ _ (Process.bind (Process.lift
    ((parseHookOutput stdout).mapError PassError.hook)) _) _ _
  rw [hparse]
  change Reaches _ _ (Process.bind (Process.lift ((checkBindingAgainstJob execution job
    binding.journal outputs).mapError PassError.hook)) _) _ _
  rw [hcheck]
  exact .start

/-- A pass over the sample that submits its receipt and has it proved. -/
lemma Sample.passes (h : Sample artifact outputs) : Possible (transcript Op Ans)
    (fun log rest => rest = .done true ∧
      (⟨.send (.submitReceipt (natKey 4) (natKey 9) "cid-aggregate-output" outputs),
        .ok "signature"⟩ : Sigma Ans) ∈ log ∧
      ∃ payload, (⟨.hook "prove" payload,.ok (sampleStdout artifact outputs)⟩ : Sigma Ans) ∈ log)
    [] (tryAggregate sampleConfig sampleManifest) := by
  have hbind : bindCommittedArtifact (sampleRunner artifact settledChain)
      (openSampleJob artifact outputs) =
        .ok ⟨artifact,⟨framedInputDigest artifact,samplePanel.cliReduction⟩⟩ := h.binds
  have hcheck : checkBindingAgainstJob (sampleExecution artifact outputs)
      (openSampleJob artifact outputs) ⟨framedInputDigest artifact,samplePanel.cliReduction⟩
      outputs = .ok () := checkBindingAgainstJob_eq_ok.mpr ⟨rfl,rfl,rfl,rfl,rfl⟩
  have hpacks := h.packs
  generalize samplePanel.cliReduction = reduction at hbind hcheck hpacks
  have hreads := tryAggregate_reaches (S := transcript Op Ans) sampleConfig sampleManifest [] rfl
    hbind hpacks h.records rfl rfl (.step (a := some .null) rfl (.step (a := some .null) rfl
      (.step (a := some .null) rfl .start)))
  refine .after hreads ?_
  refine .step (a := .ok "signature") rfl ?_
  refine .step (a := (1757000000 : ℕ)) rfl ?_
  refine .step (a := .ok ()) rfl ?_
  refine .step (a := .ok "cid-aggregate-output") rfl ?_
  refine .step (a := .ok "signature") rfl ?_
  refine .step (a := .ok ()) rfl ?_
  refine .after (proveBonsol_reaches _ rfl h.parses hcheck).bind ?_
  refine .step (a := .ok ()) rfl (.here ⟨rfl,?_,?_⟩)
  · simp [sampleConfig,sampleManifest]
  · exact ⟨_,List.mem_append_left _ List.mem_concat_self⟩

end Samples

/-- A pass over the sample artifact that submits its receipt, has it proved and returns, at the
theorem. -/
theorem submitted_receipt_is_proved_sample : ∃ log cid, ∃ job : Job,
    Reaches (transcript Op Ans) [] (tryAggregate sampleConfig sampleManifest) log (.done true) ∧
    (⟨.send (.submitReceipt (natKey 4) (natKey 9) cid sampleOutputs),.ok "signature"⟩ :
      Sigma Ans) ∈ log ∧
    (⟨.fetchJob (natKey 9),.ok (some job)⟩ : Sigma Ans) ∈ log ∧
    sha256 (job.inputBundleHash.val ++ sampleOutputs) = job.expectedResultHash ∧
    (∃ payload, (⟨.hook "prove" payload,.ok (sampleStdout sampleArtifact sampleOutputs)⟩ :
      Sigma Ans) ∈ log) ∧ Proved log := by
  obtain ⟨log,rest,hlog,rfl,hmem,hhook⟩ := sample_holds.passes
  obtain ⟨hsubmitted,hproved⟩ := submitted_receipt_is_proved _ _ hlog
  obtain ⟨job,_,hbound,hclaim,-⟩ := hsubmitted _ _ _ _ _ hmem
  exact ⟨log,_,job,hlog,hmem,hbound.fetched,hclaim,hhook,hproved true rfl⟩

end Kswarm.Settlement
