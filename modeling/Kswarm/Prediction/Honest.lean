import Kswarm.Prediction.Bound
import Kswarm.Worker.Reexecution

/-! A run whose branches were executed by honest workers can be bound. The executor's result bytes
parse to a receipt that answers its branch input, so every branch is an entry the reducer takes. -/
namespace Kswarm.Prediction
open Cli

section Execution
variable [CharData]

/-- The result bytes of an execution are a receipt that answers the input. -/
theorem execution_answers {w : Worker.Host} {jobPubkey : String}
    {branchInput : Protocol.BranchInput} {reference : Option Protocol.BranchOutput}
    {x : Worker.BranchExecution} {labels : ℕ}
    (hx : Worker.execute w jobPubkey branchInput reference = .ok x)
    (hcount : Worker.labelCount branchInput.parameters = some labels)
    (hlabels : branchInput.targetOutputKind = .categorical → 0 < labels) :
    ∃ e : Mirror.Entry, e.receipt = x.resultBytes ∧ e.index = branchInput.branchIndex ∧
      e.weight = 1 ∧ Answers branchInput.targetOutputKind labels e.result := by
  simp only [Worker.execute,bind_eq_ok] at hx
  obtain ⟨⟨trace,extra,a⟩,ha,hpublish⟩ := hx
  have hp := Worker.acquire_checked ha
  obtain ⟨versionHash,receiptCid,-,-,hdoc,-,hbytes⟩ := Worker.publish_ok hpublish
  obtain ⟨hi,hs,hb⟩ := (Protocol.resultBytes_eq_ok x.output.valid.checked).mp hbytes
  refine ⟨⟨x.resultBytes,_,1,by rw [hb]; exact Reducer.Receipt.parse_bytes _,by decide⟩,rfl,?_,rfl,
    ?_⟩
  · change x.output.toOutputFields.branchIndex = branchInput.branchIndex
    rw [hdoc]
    cases a.parsed <;> rfl
  · change x.output.toOutputFields.outputKind = branchInput.targetOutputKind ∧
      (_ → ∃ s, x.output.toOutputFields.scalarValueBps = some s) ∧
      (_ → ∃ l, x.output.toOutputFields.categoricalLabelIndex.map UInt8.ofNat = some l ∧
        l.toNat < labels)
    rw [hdoc]
    cases hparsed : a.parsed with
    | scalar p =>
      rw [hparsed] at hp
      obtain ⟨hk,-⟩ := hp
      rw [hk]
      exact ⟨rfl,fun _ => ⟨_,rfl⟩,by simp⟩
    | categorical l =>
      rw [hparsed] at hp
      obtain ⟨hk,hbyte,hl⟩ := hp
      rw [hk]
      refine ⟨rfl,by simp [OutputKind.carriesScalar],fun _ => ⟨UInt8.ofNat l,rfl,?_⟩⟩
      have := hl labels hcount (hlabels hk)
      rw [UInt8.toNat_ofNat']
      omega
    | narrative p =>
      rw [hparsed] at hp
      obtain ⟨hk,-⟩ := hp
      rw [hk]
      exact ⟨rfl,fun _ => ⟨_,rfl⟩,by simp⟩

omit [CharData] in
lemma canonicalJsonBytes_finite {v : Json} (h : v.finite = true) :
    Protocol.canonicalJsonBytes v = .ok (utf8 (Json.render v.sortKeys)) :=
  bind_eq_ok.mpr ⟨(),failIf_eq_ok.mpr (by simp [h]),rfl⟩

/-- Every worker can name its model on a pinned input. -/
lemma llmVersionHash_exists (w : Worker.Host) (o : OpenOptions) (r : RunShape) (i : ℕ) :
    ∃ versionHash, Worker.llmVersionHash w (branchInput o r i) = .ok versionHash := by
  have hnum : (optNumber o.numCtx).finite = true := by cases o.numCtx <;> rfl
  have hfinite : (Worker.llmVersionPreimage w (branchInput o r i)).finite = true := by
    rw [Worker.llmVersionPreimage,Json.finite,Json.finiteFields_iff]
    simp only [List.forall_mem_cons]
    exact ⟨rfl,rfl,rfl,rfl,rfl,hnum,rfl,by simp⟩
  exact ⟨_,map_eq_ok.mpr ⟨_,canonicalJsonBytes_finite hfinite,rfl⟩⟩

lemma labelCount_branchInput (o : OpenOptions) (r : RunShape) (branchIndex : ℕ) :
    Worker.labelCount (branchInput o r branchIndex).parameters =
      some (parsedLabels o.labels).length := by
  have hlookup : (branchInput o r branchIndex).parameters.lookup "labels" =
      some (.arr ((parsedLabels o.labels).map .str)) := rfl
  rw [Worker.labelCount,hlookup]
  cases h : parsedLabels o.labels with
  | nil => rfl
  | cons l ls => simp [Json.truthy,Worker.lengthOf]

end Execution

section Binding
variable [CharData] {h : OpenHost} {o : OpenOptions} {run : Run} {r : RunShape}

/-- Collected branches carry the planned indices, and the receipts of the planned jobs. -/
lemma Opened.collected (ho : Opened h o run r) {b : BindHost} {allowCompleted : Bool}
    {branches : List Branch}
    (hc : collectBranchReceipts b run allowCompleted = .ok branches) :
    branches.map Branch.branchIndex = List.range o.branches ∧
      ∀ branch ∈ branches, branch.branchIndex < o.branches ∧ branch.weight = 1 ∧
        ∃ job, b.fetchJob (h.jobPda h.customer (h.baseNonce+branch.branchIndex)) = some job ∧
          branch.resultBytes = Reducer.encodeHex job.resultBytes := by
  have hjobs := (collected_jobs hc).trans ho.jobs
  constructor
  · have hfst := congrArg (List.map Prod.fst) hjobs
    simpa [Function.comp_def] using hfst
  · intro branch hb
    obtain ⟨item,-,-,-,hw,key,job,hkey,hjob,hbytes⟩ := exists_of_mem_right (collect_ok hc) hb
    have hmem := List.mem_map_of_mem (f := fun c : Branch => (c.branchIndex,c.job)) hb
    rw [hjobs] at hmem
    obtain ⟨i,hi,he⟩ := List.mem_map.mp hmem
    obtain ⟨rfl,ht⟩ := Prod.mk.inj he
    obtain rfl := keyText_injective (ht.trans hkey)
    exact ⟨by simpa using hi,hw,job,hjob,hbytes⟩

/-- A run whose jobs settled is collected. -/
lemma Opened.collect_accepts (ho : Opened h o run r) {b : BindHost} {allowCompleted : Bool}
    (hjobs : ∀ i < o.branches, ∃ job,
      b.fetchJob (h.jobPda h.customer (h.baseNonce+i)) = some job ∧
      job.ready allowCompleted = true ∧ job.resultBytes ≠ [] ∧
      sha256 job.resultBytes = job.submittedResultHash) :
    Accepts (collectBranchReceipts b run allowCompleted) := by
  refine mapM_accepts (fun item hitem => ?_)
  have hmem := List.mem_map_of_mem (f := fun c : BranchJob => (c.branchIndex,c.job)) hitem
  rw [ho.jobs] at hmem
  obtain ⟨i,hi,he⟩ := List.mem_map.mp hmem
  obtain ⟨hindex,htext⟩ := Prod.mk.inj he
  obtain ⟨job,hjob,hready,hne,hhash⟩ := hjobs i (by simpa using hi)
  refine .bind (require_eq_ok.mpr (readKey_eq_some.mpr htext.symm)) ?_
  refine .bind (require_eq_ok.mpr hjob) ?_
  exact .guard (by simp [hready]) (.guard hne (.guard (by simp [hhash]) ⟨_,rfl⟩))

/-- A branch that carries the result of an execution of its input answers the run. -/
lemma Opened.answering_branch (ho : Opened h o run r) {branch : Branch} (hw : branch.weight = 1)
    {w : Worker.Host} {jobPubkey : String} {reference : Option Protocol.BranchOutput}
    {x : Worker.BranchExecution}
    (hx : Worker.execute w jobPubkey (branchInput o r branch.branchIndex) reference = .ok x)
    (hbytes : branch.resultBytes = Reducer.encodeHex x.resultBytes) :
    ∃ e : Mirror.Entry, branch.resultBytes = Reducer.encodeHex e.receipt ∧
      branch.branchIndex = e.index ∧ branch.weight = 1 ∧ e.weight = 1 ∧
      Answers r.outputKind (parsedLabels o.labels).length e.result := by
  have hlabels : (branchInput o r branch.branchIndex).targetOutputKind = .categorical →
      0 < (parsedLabels o.labels).length := by
    intro hk
    exact List.length_pos_iff.mpr (ho.dictionary hk).1
  obtain ⟨e,hreceipt,hei,hew,hans⟩ := execution_answers hx
    (labelCount_branchInput o r branch.branchIndex) hlabels
  rw [← hreceipt] at hbytes
  exact ⟨e,hbytes,hei.symm,hw,hew,hans⟩

/-- An honestly executed run can always be bound: whatever the workers, the models and the chain's
other data, once the branch jobs settled with the executions' result bytes, the artifact of the
collected branches is built and reduces. -/
theorem honest_run_binds (hopen : predictOpen h o = .ok (run,r)) {w : ℕ → Worker.Host}
    {jobPubkey : ℕ → String} {reference : ℕ → Option Protocol.BranchOutput}
    {x : ℕ → Worker.BranchExecution}
    (hx : ∀ i < o.branches, Worker.execute (w i) (jobPubkey i) (branchInput o r i) (reference i) =
      .ok (x i)) {b : BindHost} {allowCompleted : Bool} {branches : List Branch}
    (hcollect : collectBranchReceipts b run allowCompleted = .ok branches)
    (hsettled : ∀ i < o.branches, ∀ job,
      b.fetchJob (h.jobPda h.customer (h.baseNonce+i)) = some job →
        job.resultBytes = (x i).resultBytes) (planCid : Option String) :
    ∃ artifact journal, bindBranches run branches planCid = .ok (artifact,journal) := by
  have ho := predictOpen_ok hopen
  obtain ⟨hindex,hbranches⟩ := ho.collected hcollect
  refine ho.binds hindex (fun branch hb => ?_) planCid
  obtain ⟨hi,hw,job,hjob,hbytes⟩ := hbranches branch hb
  rw [hsettled _ hi job hjob] at hbytes
  exact ho.answering_branch hw (hx _ hi) hbytes

end Binding

section Example

/-- A question with two labels, asked of three branches. -/
def voteOptions : OpenOptions where
  question := "Will it rain?"
  outputKind := "categorical"
  branches := 3
  combiner := "majority-vote"
  trimBps := none
  personaSet := none
  labels := some "no,yes"
  forecastHorizon := "2026-12-31"
  contextFile := none
  numCtx := none
  personasFile := none

/-- A customer with a content-addressed store that names a text by its own bytes. -/
def sampleHost : OpenHost where
  customer := natKey 1
  jobPda _ nonce := natKey nonce
  baseNonce := 7
  imageId := natKey 2
  createdAtUnix := 1756900000
  addBytes _ bytes := .ok ("f" ++ Reducer.encodeHex bytes)

@[irreducible] def readStore (cid : String) : Except String Bytes :=
  require (Reducer.decodeHex (String.ofList cid.toList.tail)) "no such block"

lemma readStore_addBytes {name : String} {bytes : Bytes} {cid : String}
    (h : sampleHost.addBytes name bytes = .ok cid) : readStore cid = .ok bytes := by
  obtain rfl := Except.ok.inj h
  simp [readStore]

/-- A worker whose model answers with the given object. -/
def answerHost (payload : Json) : Worker.Host :=
  { Worker.labelHost "http://worker" 0 1756900000 with
    chat _ _ _ _ := .ok ⟨payload,some 9,some 400,some 409,""⟩ }

/-- A chain on which every job settled with the result of its branch. -/
def settledHost (resultBytes : ℕ → Bytes) : BindHost where
  fetchJob key := some ⟨jobStatusSettled,sha256 (resultBytes (keyNat key-7)),"cid-output",
    resultBytes (keyNat key-7),none⟩
  catBytes := readStore
  imageId := natKey 2
  str _ := ""

lemma settledHost_fetches (resultBytes : ℕ → Bytes) {i : ℕ} (hi : i < 128) :
    (settledHost resultBytes).fetchJob (natKey (7+i)) =
      some ⟨jobStatusSettled,sha256 (resultBytes i),"cid-output",resultBytes i,none⟩ := by
  have hnat : keyNat (natKey (7+i)) = 7+i := keyNat_natKey (by omega)
  simp only [settledHost,hnat,Nat.add_sub_cancel_left]

section Executed
variable [CharData] {o : OpenOptions} {run : Run} {r : RunShape} {payload : ℕ → Json}
  {x : ℕ → Worker.BranchExecution}

/-- Every branch of an opened run executes once the answers of its model are accepted. -/
lemma Opened.executes (ho : Opened sampleHost o run r)
    (ha : ∀ i < o.branches, ∃ trace extra a,
      Worker.acquire (answerHost (payload i)) (branchInput o r i) = .ok (trace,extra,a)) :
    ∃ x : ℕ → Worker.BranchExecution, ∀ i < o.branches,
      Worker.execute (answerHost (payload i)) "Job222" (branchInput o r i) none = .ok (x i) := by
  have hx : ∀ i, ∃ x, i < o.branches →
      Worker.execute (answerHost (payload i)) "Job222" (branchInput o r i) none = .ok x := by
    have hone : ∀ i < o.branches, ∃ x,
        Worker.execute (answerHost (payload i)) "Job222" (branchInput o r i) none = .ok x := by
      intro i hi
      obtain ⟨trace,extra,a,ha⟩ := ha i hi
      obtain ⟨versionHash,hversion⟩ := llmVersionHash_exists (answerHost (payload i)) o r i
      have hindex : i < 2^32 := by
        have := ho.branches_le
        omega
      have hinput := canonicalJsonBytes_finite (ho.inputs i hi)
      obtain ⟨x,hx⟩ := Worker.publish_exists (h := answerHost (payload i)) "Job222" none trace extra
        (Worker.acquire_checked ha) hindex hversion hinput rfl (fun name _ => ⟨name,rfl⟩)
      refine ⟨x,?_⟩
      rw [Worker.execute,ha]
      exact hx
    obtain ⟨x₀,-⟩ := hone 0 ho.branches_pos
    intro i
    by_cases hi : i < o.branches
    · obtain ⟨x,hx⟩ := hone i hi
      exact ⟨x,fun _ => hx⟩
    · exact ⟨x₀,fun h => absurd h hi⟩
  choose x hx using hx
  exact ⟨x,hx⟩

lemma Opened.settles (ho : Opened sampleHost o run r)
    (hx : ∀ i < o.branches,
      Worker.execute (answerHost (payload i)) "Job222" (branchInput o r i) none = .ok (x i)) :
    ∃ branches, collectBranchReceipts (settledHost (fun i => (x i).resultBytes)) run false =
      .ok branches := by
  have hle := ho.branches_le
  refine ho.collect_accepts (fun i hi => ?_)
  have hlabels : (branchInput o r i).targetOutputKind = .categorical →
      0 < (parsedLabels o.labels).length := by
    intro hk
    exact List.length_pos_iff.mpr (ho.dictionary hk).1
  obtain ⟨e,hreceipt,-⟩ := execution_answers (hx i hi) (labelCount_branchInput o r i) hlabels
  exact ⟨_,settledHost_fetches _ (by omega),rfl,hreceipt ▸ e.receipt_ne_nil,rfl⟩

lemma Opened.settled (ho : Opened sampleHost o run r) : ∀ i < o.branches, ∀ job,
    (settledHost (fun i => (x i).resultBytes)).fetchJob
      (sampleHost.jobPda sampleHost.customer (sampleHost.baseNonce+i)) = some job →
    job.resultBytes = (x i).resultBytes := by
  intro i hi job hjob
  have hle := ho.branches_le
  have hfetch := settledHost_fetches (fun i => (x i).resultBytes) (show i < 128 by omega)
  obtain rfl := Option.some.inj (hfetch.symm.trans hjob)
  rfl

end Executed

/-- What the model says about each branch: the second one disagrees. -/
def votePayload (i : ℕ) : Json := .obj [("categorical_label_index",.int (if i = 1 then 0 else 1))]

/-- The vote, opened, executed and settled. -/
lemma vote_settles : let _ := CharData.ascii
    ∃ run r branches, ∃ x : ℕ → Worker.BranchExecution,
      predictOpen sampleHost voteOptions = .ok (run,r) ∧
      (∀ i < voteOptions.branches, Worker.execute (answerHost (votePayload i)) "Job222"
        (branchInput voteOptions r i) none = .ok (x i)) ∧
      collectBranchReceipts (settledHost (fun i => (x i).resultBytes)) run false =
        .ok branches := by
  let _ := CharData.ascii
  obtain ⟨⟨run,r⟩,hopen⟩ := predictOpen_accepts (h := sampleHost) (o := voteOptions)
    (by decide) (by simp [voteOptions]) rfl rfl (by decide) rfl (by simp [voteOptions])
    (fun _ _ => ⟨_,rfl⟩)
  have ho := predictOpen_ok hopen
  have ha : ∀ i < voteOptions.branches, ∃ trace extra a,
      Worker.acquire (answerHost (votePayload i)) (branchInput voteOptions r i) =
        .ok (trace,extra,a) := by
    have hk := Except.ok.inj ho.kind
    clear hopen ho
    obtain ⟨kind,parameters,schemaHash,manifestCid,aggregateJob,commitment,personasHash⟩ := r
    subst hk
    intro i hi
    have hthree : i = 0 ∨ i = 1 ∨ i = 2 := by
      change i < 3 at hi
      omega
    rcases hthree with rfl | rfl | rfl
    all_goals exact ⟨.null,.null,_,rfl⟩
  obtain ⟨x,hx⟩ := ho.executes ha
  obtain ⟨branches,hc⟩ := ho.settles hx
  exact ⟨run,r,branches,x,hopen,hx,hc⟩

/-- A vote over two labels is bound to what its three branches settled with. -/
theorem honest_run_binds_vote : let _ := CharData.ascii
    ∃ run r branches artifact journal, ∃ x : ℕ → Worker.BranchExecution,
      predictOpen sampleHost voteOptions = .ok (run,r) ∧
      (∀ i < voteOptions.branches, Worker.execute (answerHost (votePayload i)) "Job222"
        (branchInput voteOptions r i) none = .ok (x i)) ∧
      collectBranchReceipts (settledHost (fun i => (x i).resultBytes)) run false = .ok branches ∧
      branches.length = 3 ∧
      bindBranches run branches run.aggregatePlanCid = .ok (artifact,journal) := by
  let _ := CharData.ascii
  obtain ⟨run,r,branches,x,hopen,hx,hc⟩ := vote_settles
  have ho := predictOpen_ok hopen
  obtain ⟨artifact,journal,hbind⟩ := honest_run_binds hopen hx hc ho.settled run.aggregatePlanCid
  have hlength := congrArg List.length (ho.collected hc).1
  rw [List.length_map,List.length_range] at hlength
  exact ⟨run,r,branches,artifact,journal,x,hopen,hx,hc,hlength,hbind⟩

end Example

end Kswarm.Prediction
