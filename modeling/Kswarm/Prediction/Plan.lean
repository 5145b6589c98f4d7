import Kswarm.Prediction.Honest
import Kswarm.Worker.Runner

/-! The pinned plan against the bound artifact. `predict bind-aggregate` checks a run against the plan
before it adds the dictionary size to a vote's parameters; the runner checks the artifact after.
So the two checks agree for the means and never for a vote. -/
namespace Kswarm.Prediction
open Cli

section Reading

lemma jobTexts_eq (str : Json → String) {items : List Json} {jobs : List String}
    (h : List.Forall₂ (fun item job => item.get "job" = some (.str job)) items jobs) :
    jobTexts str items = some jobs := by
  induction h with
  | nil => rfl
  | cons hjob _ ih =>
    unfold jobTexts at ih ⊢
    rw [List.mapM_cons,hjob,ih]
    rfl

lemma planRecord_plain (b : BranchJob) : (planRecord b).Plain := by
  refine ⟨?_,trivial,trivial,trivial,trivial,trivial⟩
  simp only [List.map_cons,List.map_nil]
  decide

lemma bonsolRecord_plain (h : OpenHost) : (bonsolRecord h).Plain := by
  refine ⟨?_,trivial,trivial,trivial,trivial⟩
  simp only [List.map_cons,List.map_nil]
  decide

lemma Compatible.sorted {combiner : String} {kind : OutputKind} {parameters : Json}
    (h : Compatible combiner kind parameters) : parameters.sortKeys = parameters := by
  cases h <;> rfl

variable (h : OpenHost) (o : OpenOptions) (r : RunShape) (branchJobs : List BranchJob)

lemma aggregatePlan_plain (hp : r.parameters.Plain) : (aggregatePlan h o r branchJobs).Plain := by
  have hjobs : (Json.arr (branchJobs.map planRecord)).Plain := by
    refine (Json.plainElems_iff _).mpr (fun x hx => ?_)
    obtain ⟨b,-,rfl⟩ := List.mem_map.mp hx
    exact planRecord_plain b
  refine ⟨?_,trivial,trivial,trivial,hjobs,trivial,hp,trivial,bonsolRecord_plain h,trivial⟩
  simp only [List.map_cons,List.map_nil]
  decide

/-- The pinned plan, read back. -/
structure ReadsPlan (h : OpenHost) (o : OpenOptions) (r : RunShape) (branchJobs : List BranchJob)
    (plan : Json) : Prop where
  isObj : plan.isObj = true
  combiner : plan.get "combiner" = some (.str o.combiner)
  parameters : plan.dictMember "combiner_parameters" = some r.parameters
  image : ∃ bonsol, plan.dictMember "bonsol" = some bonsol ∧
    bonsol.get "image_id" = some (.str (hex h.imageId))
  jobs : ∀ str, plannedJobs str plan = some (branchJobs.map BranchJob.job)

lemma aggregatePlan_reads {combiner : String} (hc : Compatible combiner r.outputKind r.parameters) :
    ReadsPlan h o r branchJobs (aggregatePlan h o r branchJobs).sortKeys := by
  have hget := Json.get_sortKeys (aggregatePlan_plain h o r branchJobs hc.plain)
  have hcombiner : (aggregatePlan h o r branchJobs).sortKeys.get "combiner" =
      some (.str o.combiner) := hget _
  have hparameters : (aggregatePlan h o r branchJobs).sortKeys.get "combiner_parameters" =
      some r.parameters := by
    rw [hget,← hc.sorted]
    rfl
  have hjobs : (aggregatePlan h o r branchJobs).sortKeys.get "branch_jobs" =
      some (.arr ((branchJobs.map planRecord).map Json.sortKeys)) := by
    rw [hget,← sortKeys_arr]
    rfl
  have hbonsol : (aggregatePlan h o r branchJobs).sortKeys.get "bonsol" =
      some (bonsolRecord h).sortKeys := hget _
  refine ⟨Mirror.Entry.isObj_of_get hcombiner,hcombiner,?_,?_,?_⟩
  · obtain ⟨fs,hfs⟩ := hc.members
    exact Json.dictMember_of_get hparameters (by rw [hfs]; rfl)
  · refine ⟨_,Json.dictMember_of_get hbonsol rfl,?_⟩
    exact Json.get_sortKeys (bonsolRecord_plain h) "image_id"
  · intro str
    rw [plannedJobs,hjobs]
    apply jobTexts_eq
    simp only [List.forall₂_map_left_iff,List.forall₂_map_right_iff,List.forall₂_same]
    intro b _
    exact Json.get_sortKeys (planRecord_plain b) "job"

/-- The bound artifact, read back. -/
structure ReadsArtifact (combiner : String) (parameters : Json) (planCid : Option String)
    (jobs : List String) (document : Json) : Prop where
  isObj : document.isObj = true
  plan : document.get "aggregate_plan_cid" = planCid.map .str
  combiner : document.get "combiner" = some (.str combiner)
  parameters : document.dictMember "combiner_parameters" = some parameters
  jobs : ∀ str, Worker.boundJobs str document = some jobs

/-- The parameters a binding writes are the planned ones, unless it is a vote. -/
lemma Compatible.equal_bound {combiner : String} {kind : OutputKind} {parameters : Json}
    (hc : Compatible combiner kind parameters) (labels : ℕ) :
    parameters.equal (boundParameters combiner labels parameters) = true ↔
      combiner ≠ "majority-vote" := by
  by_cases hv : combiner = "majority-vote"
  · rw [boundParameters,if_pos hv,(hc.of_vote hv).2,Json.equal_obj_length (by simp)]
    simp [hv]
  · rw [boundParameters,if_neg hv,Json.equal_refl _ hc.plain]
    simp [hv]

/-- What the runner finds between the plan of a run and an artifact bound for it. -/
lemma planDifferences_eq (str : Json → String) {h : OpenHost} {o : OpenOptions} {r : RunShape}
    {plan document parameters : Json} {planCid : Option String} {branchJobs : List BranchJob}
    (hplan : ReadsPlan h o r branchJobs plan)
    (hdocument : ReadsArtifact o.combiner parameters planCid (branchJobs.map BranchJob.job)
      document) : Worker.planDifferences str plan document =
      .ok (if r.parameters.equal parameters = false then ["combiner_parameters"] else []) := by
  have hcombiner : (Json.str o.combiner).equal (.str o.combiner) = true := Json.equal_refl _ trivial
  simp only [Worker.planDifferences,bind_eq_ok,failIf_eq_ok,require_eq_ok,pure_eq_ok,
    hplan.parameters,hplan.jobs,hplan.combiner,hdocument.parameters,hdocument.jobs,
    hdocument.combiner]
  refine ⟨(),by simp [hplan.isObj],_,rfl,_,rfl,_,rfl,_,rfl,?_⟩
  simp [hcombiner]

/-- The CID a binding carries is the pinned one, where there is one. -/
lemma check_planCid {run : Run} {b : BindHost} {branches : List Branch} {cid : String}
    {planCid : Option String} (hcid : run.aggregatePlanCid = some cid)
    (h : checkAgainstAggregatePlan b run branches = .ok planCid) :
    planCid = if cid = "" then none else some cid := by
  simp only [checkAgainstAggregatePlan,hcid,String.isEmpty_iff,ite_eq_ok,pure_eq_ok,bind_eq_ok] at h
  obtain ⟨he,rfl⟩ | ⟨he,_,-,_,-,_,-,_,-,_,-,_,-,_,-,rfl⟩ := h
  · rw [if_pos he]
  · rw [if_neg he]

end Reading

section Checks
variable [CharData] {h : OpenHost} {o : OpenOptions} {run : Run} {r : RunShape}

lemma Opened.document_reads (ho : Opened h o run r) (combinerId : ℕ) (planCid : Option String)
    {branches : List Branch} {entries : List Json}
    (he : List.Forall₂ (fun b e => artifactEntry b = .ok e) branches entries) :
    ReadsArtifact o.combiner (boundParameters o.combiner (parsedLabels o.labels).length
      r.parameters) planCid (branches.map Branch.job)
      (boundDocument o run r combinerId entries planCid).sortKeys := by
  have hget := Json.get_sortKeys (ho.document_plain combinerId planCid (entries_plain he))
  obtain ⟨hsorted,hobj⟩ := ho.compatible.bound_sorted (parsedLabels o.labels).length
  have hcombiner : (boundDocument o run r combinerId entries planCid).sortKeys.get "combiner" =
      some (.str o.combiner) := by
    rw [hget,← ho.combiner]
    rfl
  have hparameters : (boundDocument o run r combinerId entries planCid).sortKeys.get
      "combiner_parameters" = some (boundParameters o.combiner (parsedLabels o.labels).length
        r.parameters) := by
    rw [hget,← hsorted]
    rfl
  have hbranches : (boundDocument o run r combinerId entries planCid).sortKeys.get "branches" =
      some (.arr (entries.map Json.sortKeys)) := by
    rw [hget,← sortKeys_arr]
    rfl
  refine ⟨Mirror.Entry.isObj_of_get hcombiner,?_,hcombiner,?_,?_⟩
  · rw [hget]
    cases planCid <;> rfl
  · exact Json.dictMember_of_get hparameters hobj
  · intro str
    rw [Worker.boundJobs,hbranches]
    apply jobTexts_eq
    rw [List.forall₂_map_left_iff,List.forall₂_map_right_iff]
    refine he.flip.imp (fun e b hb => ?_)
    obtain ⟨_,-,hrec⟩ := artifactEntry_ok hb
    rw [Json.get_sortKeys hrec.plain,hrec.job]
    rfl

/-- The document of a binding, and what it reads back as. -/
lemma Opened.binding_reads (ho : Opened h o run r) {b : BindHost} {allowCompleted : Bool}
    {branches : List Branch} {planCid : Option String} {artifact : Bytes}
    {journal : AggregateJournal} (hc : collectBranchReceipts b run allowCompleted = .ok branches)
    (hbind : bindBranches run branches planCid = .ok (artifact,journal)) :
    ∃ document, loadsBytes artifact = some document ∧
      ReadsArtifact o.combiner (boundParameters o.combiner (parsedLabels o.labels).length
        r.parameters) planCid (run.branchJobs.map BranchJob.job) document := by
  obtain ⟨combinerId,entries,-,he,rfl,-⟩ := ho.bindBranches_eq_ok.mp hbind
  rw [sorted_branches (ho.collected hc).1] at he
  refine ⟨_,loadsBytes_render (ho.document_plain combinerId planCid (entries_plain he)),?_⟩
  have hjobs := congrArg (List.map Prod.snd) (collected_jobs hc)
  simp only [List.map_map,Function.comp_def] at hjobs
  rw [← hjobs]
  exact ho.document_reads combinerId planCid he

/-- An artifact that names no plan passes. -/
lemma Opened.runner_passes (ho : Opened h o run r) {b : BindHost} {allowCompleted : Bool}
    {branches : List Branch} {artifact : Bytes} {journal : AggregateJournal}
    (hc : collectBranchReceipts b run allowCompleted = .ok branches)
    (hbind : bindBranches run branches none = .ok (artifact,journal)) (w : Worker.RunnerHost) :
    Worker.checkArtifactAgainstPlan w artifact = .ok () := by
  obtain ⟨document,hloads,hread⟩ := ho.binding_reads hc hbind
  have hplan : document.get "aggregate_plan_cid" = none := hread.plan
  simp [Worker.checkArtifactAgainstPlan,hloads,hread.isObj,hplan,Json.truthy]

/-- An artifact that names the pinned plan is compared in its parameters. -/
lemma Opened.runner_eq (ho : Opened h o run r) {b : BindHost} {allowCompleted : Bool}
    {branches : List Branch} {cid : String} {artifact : Bytes} {journal : AggregateJournal}
    (hc : collectBranchReceipts b run allowCompleted = .ok branches) (hcid : cid ≠ "")
    (hbind : bindBranches run branches (some cid) = .ok (artifact,journal))
    {w : Worker.RunnerHost}
    (hcat : w.catBytes cid = .ok (utf8 (Json.render run.aggregatePlan.sortKeys))) :
    Worker.checkArtifactAgainstPlan w artifact =
      if o.combiner = "majority-vote" then .error (.departs cid ["combiner_parameters"])
      else .ok () := by
  obtain ⟨document,hloads,hread⟩ := ho.binding_reads hc hbind
  have hplan : document.get "aggregate_plan_cid" = some (.str cid) := hread.plan
  have hpinned := aggregatePlan_reads h o r run.branchJobs ho.compatible
  have hplain := aggregatePlan_plain h o r run.branchJobs ho.compatible.plain
  rw [← ho.plan] at hpinned hplain
  have hequal := ho.compatible.equal_bound (parsedLabels o.labels).length
  have hchain : Worker.checkArtifactAgainstPlan w artifact =
      (Worker.planDifferences w.str run.aggregatePlan.sortKeys document >>= fun differences =>
        failIf (differences ≠ []) (.departs cid differences)) := by
    have htruthy : (Json.str cid).truthy = true := by simpa [Json.truthy] using hcid
    have hobj : ¬document.isObj = false := by simp [hread.isObj]
    simp only [Worker.checkArtifactAgainstPlan,hloads,require,failIf_of_not hobj,ok_bind,hplan,
      Option.getD_some,htruthy,Bool.true_eq_false,if_false,Json.textOf,hcat,Except.mapError,
      loadsBytes_render hplain]
  rw [hchain,planDifferences_eq w.str hpinned hread]
  by_cases hv : o.combiner = "majority-vote"
  · have hdiffers := hequal.not.mpr (not_not.mpr hv)
    rw [if_pos hv,if_pos (Bool.eq_false_iff.mpr hdiffers)]
    rfl
  · rw [if_neg hv,hequal.mpr hv]
    rfl

/-- The command line's own check passes for a run nobody edited. -/
lemma Opened.check_passes (ho : Opened h o run r) {b : BindHost} {allowCompleted : Bool}
    {branches : List Branch} {cid : String}
    (hc : collectBranchReceipts b run allowCompleted = .ok branches)
    (hcid : run.aggregatePlanCid = some cid) (hne : cid ≠ "") (himage : b.imageId = h.imageId)
    (hcat : b.catBytes cid = .ok (utf8 (Json.render run.aggregatePlan.sortKeys))) :
    checkAgainstAggregatePlan b run branches = .ok (some cid) := by
  have hpinned := aggregatePlan_reads h o r run.branchJobs ho.compatible
  have hplain := aggregatePlan_plain h o r run.branchJobs ho.compatible.plain
  rw [← ho.plan] at hpinned hplain
  obtain ⟨bonsol,hbonsol,himageId⟩ := hpinned.image
  have hjobs := congrArg (List.map Prod.snd) (collected_jobs hc)
  simp only [List.map_map,Function.comp_def] at hjobs
  have hcombiner : (Json.str o.combiner).equal (.str o.combiner) = true := Json.equal_refl _ trivial
  have hparameters : r.parameters.equal r.parameters = true :=
    Json.equal_refl _ ho.compatible.plain
  simp only [checkAgainstAggregatePlan,hcid,String.isEmpty_iff,ite_eq_ok,pure_eq_ok,bind_eq_ok,
    require_eq_ok,ok_of_mapError,failIf_eq_ok]
  refine .inr ⟨hne,_,hcat,_,loadsBytes_render hplain,(),by simp [hpinned.isObj],_,
    hpinned.parameters,_,hbonsol,_,hpinned.jobs b.str,(),?_,trivial⟩
  simp [hpinned.combiner,ho.combiner,ho.parameters,hcombiner,hparameters,himageId,himage,hjobs,
    Json.textOf]

/-- The runner executes what a customer bound, exactly where the combiner is no vote; or where the
pin returned an empty CID, and neither side has a plan to check. -/
theorem runner_accepts_bound_iff (hopen : predictOpen h o = .ok (run,r)) {b : BindHost}
    {allowCompleted : Bool} {artifact : Bytes} {journal : AggregateJournal}
    (hbind : predictBindAggregate b run allowCompleted = .ok (artifact,journal))
    {w : Worker.RunnerHost}
    (hipfs : ∀ name bytes cid, h.addBytes name bytes = .ok cid → w.catBytes cid = .ok bytes) :
    Worker.checkArtifactAgainstPlan w artifact = .ok () ↔
      o.combiner ≠ "majority-vote" ∨ run.aggregatePlanCid = some "" := by
  have ho := predictOpen_ok hopen
  obtain ⟨cid,hpin,hcid⟩ := ho.pinned
  simp only [predictBindAggregate,bind_eq_ok] at hbind
  obtain ⟨branches,hc,planCid,hcheck,hbind⟩ := hbind
  have hplan := check_planCid hcid hcheck
  by_cases hempty : cid = ""
  · rw [if_pos hempty] at hplan
    subst hplan hempty
    exact ⟨fun _ => .inr hcid,fun _ => ho.runner_passes hc hbind w⟩
  · rw [if_neg hempty] at hplan
    subst hplan
    rw [ho.runner_eq hc hempty hbind (hipfs _ _ _ hpin),hcid]
    by_cases hv : o.combiner = "majority-vote"
    · simp [hv,hempty]
    · simp [hv]

end Checks

section Example

/-- A runner that reads the same store. -/
def storeRunner : Worker.RunnerHost := ⟨readStore,fun _ => ""⟩

/-- A run bound over what honest workers settled, in the eyes of the runner. -/
lemma Opened.settled_checked [CharData] {o : OpenOptions} {run : Run} {r : RunShape}
    {x : ℕ → Worker.BranchExecution} {payload : ℕ → Json} {branches : List Branch}
    (ho : Opened sampleHost o run r)
    (hx : ∀ i < o.branches,
      Worker.execute (answerHost (payload i)) "Job222" (branchInput o r i) none = .ok (x i))
    (hc : collectBranchReceipts (settledHost (fun i => (x i).resultBytes)) run false =
      .ok branches) :
    ∃ artifact journal cid,
      predictBindAggregate (settledHost (fun i => (x i).resultBytes)) run false =
        .ok (artifact,journal) ∧
      Worker.checkArtifactAgainstPlan storeRunner artifact =
        if o.combiner = "majority-vote" then .error (.departs cid ["combiner_parameters"])
        else .ok () := by
  obtain ⟨cid,hpin,hcid⟩ := ho.pinned
  obtain ⟨hindex,hbranches⟩ := ho.collected hc
  have hne : cid ≠ "" := by
    obtain rfl := Except.ok.inj hpin
    simp
  obtain ⟨artifact,journal,hbind⟩ := ho.binds hindex (fun branch hb => by
    obtain ⟨hi,hw,job,hjob,hbytes⟩ := hbranches branch hb
    rw [ho.settled _ hi job hjob] at hbytes
    exact ho.answering_branch hw (hx _ hi) hbytes) (some cid)
  have hcat := readStore_addBytes hpin
  have hcheck := ho.check_passes hc hcid hne rfl hcat
  refine ⟨artifact,journal,cid,?_,ho.runner_eq hc hne hbind hcat⟩
  simp only [predictBindAggregate,bind_eq_ok]
  exact ⟨branches,hc,some cid,hcheck,hbind⟩

/-- A vote opened and bound over honest branches, which the runner refuses: the artifact carries
the dictionary size, the plan does not. -/
theorem vote_refused : let _ := CharData.ascii
    ∃ run r artifact journal cid, ∃ x : ℕ → Worker.BranchExecution,
      predictOpen sampleHost voteOptions = .ok (run,r) ∧
      (∀ i < voteOptions.branches, Worker.execute (answerHost (votePayload i)) "Job222"
        (branchInput voteOptions r i) none = .ok (x i)) ∧
      predictBindAggregate (settledHost (fun i => (x i).resultBytes)) run false =
        .ok (artifact,journal) ∧
      (∀ name bytes cid, sampleHost.addBytes name bytes = .ok cid →
        storeRunner.catBytes cid = .ok bytes) ∧
      Worker.checkArtifactAgainstPlan storeRunner artifact =
        .error (.departs cid ["combiner_parameters"]) := by
  let _ := CharData.ascii
  obtain ⟨run,r,branches,x,hopen,hx,hc⟩ := vote_settles
  obtain ⟨artifact,journal,cid,hbind,hrunner⟩ := (predictOpen_ok hopen).settled_checked hx hc
  rw [if_pos (show voteOptions.combiner = "majority-vote" from rfl)] at hrunner
  exact ⟨run,r,artifact,journal,cid,x,hopen,hx,hbind,fun _ _ _ => readStore_addBytes,hrunner⟩

/-- The same question, asked for a probability. -/
def pollOptions (branches : ℕ) : OpenOptions :=
  { voteOptions with outputKind := "scalar", combiner := "weighted-mean", labels := none, branches }

/-- Asked of one branch. -/
abbrev meanOptions : OpenOptions := pollOptions 1

/-- What the model says about every branch. -/
def pollPayload : Json := .obj [("scalar_value",.float (.finite false 0))]

lemma poll_settles {n : ℕ} (hpos : 0 < n) (hn : n ≤ 128) : let _ := CharData.ascii
    ∃ run r branches, ∃ x : ℕ → Worker.BranchExecution,
      predictOpen sampleHost (pollOptions n) = .ok (run,r) ∧
      (∀ i < n, Worker.execute (answerHost pollPayload) "Job222"
        (branchInput (pollOptions n) r i) none = .ok (x i)) ∧
      collectBranchReceipts (settledHost (fun i => (x i).resultBytes)) run false =
        .ok branches := by
  let _ := CharData.ascii
  have hnonces : sampleHost.baseNonce+(pollOptions n).branches ≤ nonceMax := by
    change 7+n ≤ 2^64-1
    omega
  obtain ⟨⟨run,r⟩,hopen⟩ := predictOpen_accepts (h := sampleHost) (o := pollOptions n)
    ⟨hpos,hn⟩ (by simp [pollOptions,voteOptions]) rfl rfl hnonces rfl
    (by simp [pollOptions,voteOptions]) (fun _ _ => ⟨_,rfl⟩)
  have ho := predictOpen_ok hopen
  have ha : ∀ i < n, ∃ trace extra a,
      Worker.acquire (answerHost pollPayload) (branchInput (pollOptions n) r i) =
        .ok (trace,extra,a) := by
    have hk := Except.ok.inj ho.kind
    clear hopen ho
    obtain ⟨kind,parameters,schemaHash,manifestCid,aggregateJob,commitment,personasHash⟩ := r
    subst hk
    exact fun i _ => ⟨.null,.null,_,rfl⟩
  obtain ⟨x,hx⟩ := ho.executes (o := pollOptions n) ha
  obtain ⟨branches,hc⟩ := ho.settles hx
  exact ⟨run,r,branches,x,hopen,hx,hc⟩

lemma mean_settles : let _ := CharData.ascii
    ∃ run r branches, ∃ x : ℕ → Worker.BranchExecution,
      predictOpen sampleHost meanOptions = .ok (run,r) ∧
      (∀ i < 1, Worker.execute (answerHost pollPayload) "Job222"
        (branchInput meanOptions r i) none = .ok (x i)) ∧
      collectBranchReceipts (settledHost (fun i => (x i).resultBytes)) run false =
        .ok branches := poll_settles Nat.one_pos (by decide)

/-- A mean over three honest branches, opened and bound, which the runner executes. -/
theorem runner_accepts_bound_mean : let _ := CharData.ascii
    ∃ run r b artifact journal, predictOpen sampleHost (pollOptions 3) = .ok (run,r) ∧
      run.branchJobs.length = 3 ∧ predictBindAggregate b run false = .ok (artifact,journal) ∧
      Worker.checkArtifactAgainstPlan storeRunner artifact = .ok () := by
  let _ := CharData.ascii
  obtain ⟨run,r,branches,x,hopen,hx,hc⟩ := poll_settles (show 0 < 3 by decide) (by decide)
  have ho := predictOpen_ok hopen
  obtain ⟨artifact,journal,cid,hbind,-⟩ := ho.settled_checked hx hc
  have hiff := runner_accepts_bound_iff hopen hbind (w := storeRunner)
    (fun _ _ _ => readStore_addBytes)
  have hlength := congrArg List.length ho.jobs
  rw [List.length_map,List.length_map,List.length_range] at hlength
  exact ⟨run,r,_,artifact,journal,hopen,hlength,hbind,hiff.mpr (.inl (by decide))⟩

end Example

end Kswarm.Prediction
