import Kswarm.Mirror.Agreement
import Kswarm.Mirror.Printed
import Kswarm.Worker.AggregateVerifier

/-! The two checks of an aggregate artifact against the chain, the runner's before it claims and the
verifier's before it attests, and what each leaves open. -/
namespace Kswarm.Settlement
open Cli Worker

section Records

/-- The record of an artifact names a job. -/
def NamesJob (branch : Json) (jobKey : Digest) : Prop :=
  ∃ text, branch.get "job" = some (.str text) ∧ readKey text = some jobKey

/-- The record of an artifact carries receipt bytes. -/
def CarriesReceipt (branch : Json) (receipt : Bytes) : Prop :=
  ∃ text, branch.get "result_bytes" = some (.str text) ∧ fromhex text.toList = some receipt

lemma recordKey_eq_ok {ε : Type} {malformed : ε} {badKey : String → ε} {branch : Json}
    {jobKey : Digest} :
    recordKey malformed badKey branch = .ok jobKey ↔ NamesJob branch jobKey := by
  simp only [recordKey,bind_eq_ok,ok_of_mapError,Mirror.string_eq_ok,require_eq_ok,NamesJob]

lemma NamesJob.unique {branch : Json} {j k : Digest} (hj : NamesJob branch j)
    (hk : NamesJob branch k) : j = k := by
  obtain ⟨s,hs,hj⟩ := hj
  obtain ⟨t,ht,hk⟩ := hk
  rw [hs,Option.some.injEq,Json.str.injEq] at ht
  rw [ht] at hj
  exact Option.some.inj (hj.symm.trans hk)

lemma CarriesReceipt.unique {branch : Json} {r s : Bytes} (hr : CarriesReceipt branch r)
    (hs : CarriesReceipt branch s) : r = s := by
  obtain ⟨t,ht,hr⟩ := hr
  obtain ⟨u,hu,hs⟩ := hs
  rw [ht,Option.some.injEq,Json.str.injEq] at hu
  rw [hu] at hr
  exact Option.some.inj (hr.symm.trans hs)

/-- The hash of a parsed receipt is the hash of its bytes. -/
lemma parsed_hash {receipt : Bytes} {b : BranchReceipt}
    (h : parseBranchResultBytes receipt = .ok b) : b.resultHash = sha256 receipt := by
  obtain ⟨r,hr,rfl⟩ := Mirror.parse_eq_ok.mp h
  exact (Reducer.parseBranchResultBytes_facts hr).2.2

lemma recordReceipt_eq_ok {ε : Type} {malformed : ε} {badReceipt : AggregateError → ε}
    {branch : Json} {b : BranchReceipt} : recordReceipt malformed badReceipt branch = .ok b ↔
      ∃ receipt, CarriesReceipt branch receipt ∧ parseBranchResultBytes receipt = .ok b := by
  simp only [recordReceipt,bind_eq_ok,ok_of_mapError,Mirror.string_eq_ok,require_eq_ok,
    CarriesReceipt]
  constructor
  · rintro ⟨text,htext,receipt,hreceipt,hb⟩
    exact ⟨receipt,⟨text,htext,hreceipt⟩,hb⟩
  · rintro ⟨receipt,⟨text,htext,hreceipt⟩,hb⟩
    exact ⟨text,htext,receipt,hreceipt,hb⟩

/-- The account of the named job carries exactly the receipt of the record. -/
structure Carried (fetchJob : Digest → Option Job) (branch : Json) (jobKey : Digest)
    (receipt : Bytes) (job : Job) : Prop where
  names : NamesJob branch jobKey
  fetched : fetchJob jobKey = some job
  branchProof : job.jobClass = jobClassBranchProof
  carries : CarriesReceipt branch receipt
  parses : Accepts (parseBranchResultBytes receipt)
  hash : sha256 receipt = job.submittedResultHash

lemma checkBranch_eq_ok {r : Runner} {branch : Json} : checkBranch r branch = .ok () ↔
    ∃ jobKey receipt job, Carried r.fetchJob branch jobKey receipt job ∧
      job.ready r.allowCompletedBranches = true := by
  simp only [checkBranch,bind_eq_ok,failIf_eq_ok,require_eq_ok,recordKey_eq_ok,
    recordReceipt_eq_ok,exists_and_left,exists_const,Bool.not_eq_false,not_not,ne_eq]
  constructor
  · rintro ⟨jobKey,hk,job,hjob,hclass,hready,b,⟨receipt,hr,hb⟩,hh⟩
    exact ⟨jobKey,receipt,job,⟨hk,hjob,hclass,hr,⟨b,hb⟩,(parsed_hash hb).symm.trans hh⟩,hready⟩
  · rintro ⟨jobKey,receipt,job,hc,hready⟩
    obtain ⟨b,hb⟩ := hc.parses
    exact ⟨jobKey,hc.names,job,hc.fetched,hc.branchProof,hready,b,⟨receipt,hc.carries,hb⟩,
      (parsed_hash hb).trans hc.hash⟩

lemma checkBranches_eq_ok {r : Runner} {artifact : Bytes} :
    checkBranchesAgainstChain r artifact = .ok () ↔
      ∃ branches, branchRecords artifact = some branches ∧ ∀ branch ∈ branches,
        ∃ jobKey receipt job, Carried r.fetchJob branch jobKey receipt job ∧
          job.ready r.allowCompletedBranches = true := by
  simp only [checkBranchesAgainstChain,bind_eq_ok,require_eq_ok,forM_eq_ok,checkBranch_eq_ok]

lemma found_eq_some {v : AggregateVerifier} {jobKey : Digest} {job : Job} :
    v.found jobKey = some job ↔ v.fetchJob jobKey = .ok (some job) := by
  unfold AggregateVerifier.found
  cases v.fetchJob jobKey with
  | error e => simp [Except.toOption]
  | ok found => simp [Except.toOption]

lemma branchErrors_eq_nil {v : AggregateVerifier} {branch : Json} :
    branchErrors v branch = .ok [] ↔
      ∃ jobKey receipt job, Carried v.found branch jobKey receipt job := by
  simp only [branchErrors,bind_eq_ok,recordKey_eq_ok,ok_of_mapError]
  constructor
  · rintro ⟨jobKey,hk,found,hfound,h⟩
    cases found with
    | none => simp at h
    | some job =>
      simp only [ite_eq_ok,pure_eq_ok,and_false,false_or,bind_eq_ok,
        recordReceipt_eq_ok,not_not,ne_eq,exists_false,and_true,List.cons_ne_self] at h
      obtain ⟨hclass,b,⟨receipt,hr,hb⟩,hh⟩ := h
      exact ⟨jobKey,receipt,job,hk,found_eq_some.mpr hfound,hclass,hr,⟨b,hb⟩,
        (parsed_hash hb).symm.trans hh⟩
  · rintro ⟨jobKey,receipt,job,hc⟩
    obtain ⟨b,hb⟩ := hc.parses
    refine ⟨jobKey,hc.names,_,found_eq_some.mp hc.fetched,?_⟩
    simp only [ite_eq_ok,pure_eq_ok,reduceCtorEq,and_false,false_or,bind_eq_ok,
      recordReceipt_eq_ok,not_not,ne_eq,exists_false,and_true]
    exact ⟨hc.branchProof,b,⟨receipt,hc.carries,hb⟩,(parsed_hash hb).trans hc.hash⟩

/-- Every record of an artifact is carried by the account of its job. -/
def AllCarried (found : Digest → Option Job) (branches : List Json) : Prop :=
  ∀ branch ∈ branches, ∃ jobKey receipt job, Carried found branch jobKey receipt job

lemma branchesMatch_eq_nil {v : AggregateVerifier} {artifact : Bytes} :
    aggregateBranchesMatchChain v artifact = .ok [] ↔
      ∃ branches, branchRecords artifact = some branches ∧ AllCarried v.found branches := by
  simp only [aggregateBranchesMatchChain,bind_eq_ok,require_eq_ok,flatten_mapM_eq_nil,
    branchErrors_eq_nil,AllCarried]

lemma carries_of_spells {e : Mirror.Entry} {branch : Json} (h : e.Spells branch) :
    CarriesReceipt branch e.receipt :=
  ⟨_,h.2.1,Mirror.fromhex_encodeHex e.receipt⟩

end Records

section Samples

def sampleImage : Digest := natKey 2

def samplePanel : Mirror.Artifact := Mirror.weightedPanel 1 Nat.one_pos

/-- The job of a branch of the panel. -/
def sampleKey (e : Mirror.Entry) : Digest := natKey (20 + e.index)

def sampleRecord (e : Mirror.Entry) : Json :=
  e.record (Mirror.jobRecord (fun e => keyText (sampleKey e)) e)

/-- The panel printed, each of its records with a job. -/
@[irreducible] def sampleArtifact : Bytes :=
  samplePanel.printed Mirror.bareArtifact (Mirror.jobRecord (fun e => keyText (sampleKey e)))

/-- What the guest commits for the panel. -/
@[irreducible] def sampleOutputs : Bytes :=
  Reducer.aggregateCommittedOutputs samplePanel.guestReduction

lemma samplePanel_fits : samplePanel.Fits := Mirror.weightedPanel_fits (Nat.one_lt_two_pow (by decide))

/-- What is known of the panel's text and outputs. -/
structure Sample (artifact outputs : Bytes) : Prop where
  loads : ∃ doc, loadsBytes artifact = some doc ∧ doc.isObj = true ∧
    doc.get "branches" = some (.arr (samplePanel.entries.map sampleRecord)) ∧
    doc.get "aggregate_plan_cid" = none
  reduces : aggregateJournal loadsBytes artifact =
    .ok ⟨framedInputDigest artifact,samplePanel.cliReduction⟩
  packs : aggregateCommittedOutputs samplePanel.cliReduction = some outputs
  proves : Reducer.aggregateJournal Mirror.jsonOfBytes artifact =
    .ok ⟨framedInputDigest artifact,samplePanel.guestReduction⟩

section Printed
variable {artifact : Bytes} {r : AggregateReduction} {g : Reducer.AggregateReduction}

lemma journal_of_reduction (h : reduceAggregateArtifact loadsBytes artifact = .ok r) :
    aggregateJournal loadsBytes artifact = .ok ⟨framedInputDigest artifact,r⟩ :=
  bind_eq_ok.mpr ⟨r,h,rfl⟩

lemma guest_of_reduction {fromSlice : Bytes → Option Json}
    (h : Reducer.reduceAggregateArtifact fromSlice artifact = .ok g) :
    Reducer.aggregateJournal fromSlice artifact = .ok ⟨framedInputDigest artifact,g⟩ :=
  bind_eq_ok.mpr ⟨g,h,rfl⟩

end Printed

lemma sample_holds : Sample sampleArtifact sampleOutputs := by
  unfold sampleArtifact sampleOutputs
  exact {
    loads := ⟨_,samplePanel.loads_printed _ _,rfl,rfl,rfl⟩
    reduces := journal_of_reduction (samplePanel.cli_printed _ _)
    packs := samplePanel.committedOutputs_agree samplePanel_fits
    proves := guest_of_reduction (samplePanel.guest_printed_eq _ _ samplePanel_fits) }

lemma Sample.records {artifact outputs : Bytes} (h : Sample artifact outputs) :
    branchRecords artifact = some (samplePanel.entries.map sampleRecord) := by
  obtain ⟨doc,hdoc,-,hbranches,-⟩ := h.loads
  simp [branchRecords,hdoc,hbranches]

lemma Sample.hash {artifact outputs : Bytes} (h : Sample artifact outputs) :
    journalHash (framedInputDigest artifact) outputs =
      (⟨framedInputDigest artifact,samplePanel.guestReduction⟩ :
        Reducer.AggregateJournal).journalHash := by
  have hsame := h.packs.symm.trans (samplePanel.committedOutputs_agree samplePanel_fits)
  rw [Option.some.inj hsame]
  rfl

lemma sample_names (e : Mirror.Entry) : NamesJob (sampleRecord e) (sampleKey e) :=
  ⟨_,rfl,readKey_keyText _⟩

lemma sample_carries (e : Mirror.Entry) : CarriesReceipt (sampleRecord e) e.receipt :=
  carries_of_spells (e.record_spells _)

/-- An aggregate job opened against the artifact, whose receipt is on chain. -/
def sampleJob (artifact outputs : Bytes) : Job where
  status := jobStatusCompleted
  submittedResultHash := sha256 outputs
  outputCid := "cid-aggregate-output"
  resultBytes := outputs
  verifierAttestationHash := none
  jobClass := jobClassAggregateProof
  customer := natKey 3
  worker := natKey 4
  inputCid := "cid-artifact"
  inputBundleHash := framedInputDigest artifact
  expectedResultHash := journalHash (framedInputDigest artifact) outputs
  requiredSoftwareDigest := sampleImage
  verifierAuthority := none
  challengeDeadline := 1756990000

/-- The job of a branch in the given status, with its receipt. -/
def sampleBranchJob (status : ℕ) (e : Mirror.Entry) : Job where
  status := status
  submittedResultHash := sha256 e.receipt
  outputCid := "cid-output"
  resultBytes := e.receipt
  verifierAttestationHash := none
  jobClass := jobClassBranchProof
  customer := natKey 3
  worker := natKey 4
  inputCid := "cid-input"
  inputBundleHash := zeroHash
  expectedResultHash := zeroHash
  requiredSoftwareDigest := zeroHash
  verifierAuthority := none
  challengeDeadline := 1756990000

/-- A chain with the job of every branch, its status given by the index of the branch. -/
def sampleChain (status : ℕ → ℕ) (jobKey : Digest) : Option Job :=
  (samplePanel.entries.find? (fun e => decide (sampleKey e = jobKey))).map
    (fun e => sampleBranchJob (status e.index) e)

/-- The jobs of the panel are pairwise different. -/
lemma sampleKey_inj {e f : Mirror.Entry} (he : e ∈ samplePanel.entries)
    (hf : f ∈ samplePanel.entries) (h : sampleKey e = sampleKey f) : e = f := by
  have hindex : e.index = f.index := by
    have hnat := congrArg keyNat h
    have hbound : ∀ g : Mirror.Entry, 20 + g.index < 256^32 := by
      intro g
      have := g.index_lt
      omega
    rw [sampleKey,sampleKey,keyNat_natKey (hbound e),keyNat_natKey (hbound f)] at hnat
    omega
  have hnodup : (samplePanel.entries.map Mirror.Entry.index).Nodup := by
    rw [List.Nodup,List.pairwise_map]
    exact samplePanel.rising.2.imp (fun hlt => ne_of_lt hlt)
  exact List.inj_on_of_nodup_map hnodup he hf hindex

lemma sampleChain_key (status : ℕ → ℕ) {e : Mirror.Entry} (he : e ∈ samplePanel.entries) :
    sampleChain status (sampleKey e) = some (sampleBranchJob (status e.index) e) := by
  have hfound : samplePanel.entries.find? (fun f => decide (sampleKey f = sampleKey e)) =
      some e := by
    cases h : samplePanel.entries.find? (fun f => decide (sampleKey f = sampleKey e)) with
    | none =>
      have hother := List.find?_eq_none.mp h e he
      simp at hother
    | some f =>
      have hkey : sampleKey f = sampleKey e := by simpa using List.find?_some h
      rw [sampleKey_inj (List.mem_of_find?_eq_some h) he hkey]
  rw [sampleChain,hfound,Option.map_some]

def sampleVerifier (artifact : Bytes) (chain : Digest → Option Job) : AggregateVerifier where
  softwareDigest := zeroHash
  wallet := natKey 7
  challengeOnMismatch := true
  fetchJob jobKey := .ok (chain jobKey)
  catBytes _ := .ok artifact
  addJson name _ := .ok name

def sampleRunner (artifact : Bytes) (chain : Digest → Option Job) : Runner where
  catBytes _ := .ok artifact
  str _ := ""
  fetchJob := chain
  allowCompletedBranches := true

lemma sample_carried (status : ℕ → ℕ) {e : Mirror.Entry} (he : e ∈ samplePanel.entries) :
    Carried (sampleChain status) (sampleRecord e) (sampleKey e) e.receipt
      (sampleBranchJob (status e.index) e) :=
  ⟨sample_names e,sampleChain_key status he,rfl,sample_carries e,
    ⟨_,Mirror.parse_eq_ok.mpr ⟨_,e.parsed,rfl⟩⟩,rfl⟩

/-- A chain on which the branches have settled. -/
def settledChain : Digest → Option Job := sampleChain (fun _ => jobStatusSettled)

lemma Sample.binds {artifact outputs : Bytes} (h : Sample artifact outputs) :
    bindCommittedArtifact (sampleRunner artifact settledChain) (sampleJob artifact outputs) =
      .ok ⟨artifact,⟨framedInputDigest artifact,samplePanel.cliReduction⟩⟩ := by
  obtain ⟨doc,hdoc,hobj,-,hplan⟩ := h.loads
  simp only [bindCommittedArtifact,bind_eq_ok,failIf_eq_ok,require_eq_ok,ok_of_mapError,pure_eq_ok]
  refine ⟨artifact,rfl,(),not_not.mpr rfl,_,h.reduces,_,?_,(),not_not.mpr rfl,(),?_,(),?_,(),?_,rfl⟩
  · simp only [AggregateJournal.journalHash,AggregateJournal.committedOutputs,h.packs]
    rfl
  · exact (by decide : sampleImage ≠ zeroHash)
  · refine checkBranches_eq_ok.mpr ⟨_,h.records,fun branch hmem => ?_⟩
    obtain ⟨e,he,rfl⟩ := List.mem_map.mp hmem
    exact ⟨_,_,_,sample_carried (fun _ => jobStatusSettled) he,rfl⟩
  · simp only [checkArtifactAgainstPlan,hdoc,require,ok_bind,hplan,bind_eq_ok,failIf_eq_ok]
    exact ⟨(),by simp [hobj],rfl⟩

end Samples

section Strictness

lemma ready_iff {job : Job} : job.ready true = true ↔ job.status = jobStatusSettled ∨
    (job.status = jobStatusCompleted ∧ job.verifierAttestationHash ≠ none) := by
  simp [JobAccount.ready,Option.isSome_iff_ne_none]

/-- The runner accepts every artifact the verifier finds nothing wrong with exactly when every job
named is settled, or submitted with an attestation, or some record is not carried by its account:
the verifier never reads a status. -/
theorem verifier_covers_runner_iff (v : AggregateVerifier) (host : RunnerHost) (artifact : Bytes) :
    (aggregateBranchesMatchChain v artifact = .ok [] →
      checkBranchesAgainstChain ⟨host,v.found,true⟩ artifact = .ok ()) ↔
    ∀ branches, branchRecords artifact = some branches →
      ¬AllCarried v.found branches ∨
      ∀ branch ∈ branches, ∀ jobKey job, NamesJob branch jobKey → v.found jobKey = some job →
        job.status = jobStatusSettled ∨
          (job.status = jobStatusCompleted ∧ job.verifierAttestationHash ≠ none) := by
  simp only [branchesMatch_eq_nil,checkBranches_eq_ok,ready_iff]
  constructor
  · intro h branches hbranches
    refine or_iff_not_imp_left.mpr (fun hall => ?_)
    obtain ⟨branches',hbranches',hready⟩ := h ⟨branches,hbranches,not_not.mp hall⟩
    obtain rfl := Option.some.inj (hbranches.symm.trans hbranches')
    intro branch hmem jobKey job hnames hfound
    obtain ⟨k,_,j,hc,hstatus⟩ := hready branch hmem
    obtain rfl := hc.names.unique hnames
    obtain rfl := Option.some.inj (hc.fetched.symm.trans hfound)
    exact hstatus
  · rintro h ⟨branches,hbranches,hall⟩
    refine ⟨branches,hbranches,fun branch hmem => ?_⟩
    obtain ⟨jobKey,receipt,job,hc⟩ := hall branch hmem
    rcases h branches hbranches with hnot | hready
    · exact absurd hall hnot
    · exact ⟨jobKey,receipt,job,hc,hready branch hmem jobKey job hc.names hc.fetched⟩

/-- The second of three branches was slashed. -/
def slashedStatus (index : ℕ) : ℕ := if index = 1 then jobStatusSlashed else jobStatusSettled

def slashedChain : Digest → Option Job := sampleChain slashedStatus

def middleBranch : Mirror.Entry := Mirror.middleBranch 1 Nat.one_pos

lemma middleBranch_mem : middleBranch ∈ samplePanel.entries := by
  simp [samplePanel,Mirror.weightedPanel,middleBranch]

/-- A slashed branch still carries its receipt: the verifier finds nothing wrong with an artifact
the runner refuses. -/
theorem slashed_branch_passes_verifier :
    Accepts (reduceAggregateArtifact loadsBytes sampleArtifact) ∧
    aggregateBranchesMatchChain (sampleVerifier sampleArtifact slashedChain) sampleArtifact =
      .ok [] ∧
    checkBranchesAgainstChain (sampleRunner sampleArtifact slashedChain) sampleArtifact ≠
      .ok () := by
  refine ⟨?_,?_,?_⟩
  · obtain ⟨reduction,hreduction,-⟩ := bind_eq_ok.mp sample_holds.reduces
    exact ⟨reduction,hreduction⟩
  · refine branchesMatch_eq_nil.mpr ⟨_,sample_holds.records,?_⟩
    intro branch hmem
    obtain ⟨e,he,rfl⟩ := List.mem_map.mp hmem
    exact ⟨_,_,_,sample_carried slashedStatus he⟩
  · intro hrun
    obtain ⟨branches,hbranches,hready⟩ := checkBranches_eq_ok.mp hrun
    obtain rfl := Option.some.inj (sample_holds.records.symm.trans hbranches)
    obtain ⟨jobKey,receipt,job,hc,hready⟩ := hready _ (List.mem_map_of_mem middleBranch_mem)
    obtain rfl := (sample_names _).unique hc.names
    have hjob := (sampleChain_key slashedStatus middleBranch_mem).symm.trans hc.fetched
    obtain rfl := Option.some.inj hjob
    have hslashed : (sampleBranchJob jobStatusSlashed middleBranch).ready true = false := by decide
    exact absurd (hslashed.symm.trans hready) Bool.false_ne_true

end Strictness

section Distinct

/-- Entries that rise by index carry distinct receipts. -/
lemma receipts_nodup {es : List Mirror.Entry} (h : Mirror.Rising none es) :
    (es.map Mirror.Entry.receipt).Nodup := by
  rw [List.Nodup,List.pairwise_map]
  refine h.2.imp (fun {a b} hlt he => ?_)
  have hb := b.parsed
  rw [← he] at hb
  have hsame := Except.ok.inj (a.parsed.symm.trans hb)
  simp only [Mirror.Entry.index,hsame] at hlt
  exact absurd hlt (lt_irrefl _)

/-- What a successful binding has checked. -/
lemma bindCommittedArtifact_ok {r : Runner} {job : Job} {binding : AggregateBinding}
    (h : bindCommittedArtifact r job = .ok binding) :
    framedInputDigest binding.artifact = job.inputBundleHash ∧
      aggregateJournal loadsBytes binding.artifact = .ok binding.journal ∧
      binding.journal.journalHash = some job.expectedResultHash ∧
      job.requiredSoftwareDigest ≠ zeroHash ∧
      checkBranchesAgainstChain r binding.artifact = .ok () := by
  simp only [bindCommittedArtifact,bind_eq_ok,failIf_eq_ok,require_eq_ok,ok_of_mapError,pure_eq_ok,
    exists_and_left,exists_const,ne_eq,not_not] at h
  obtain ⟨artifact,-,hframed,journal,hjournal,hash,hhash,rfl,hzero,_,hchain,_,-,rfl⟩ := h
  exact ⟨hframed,hjournal,hhash,hzero,hchain⟩

/-- The records of a reduced artifact are those of rising entries. -/
lemma branchRecords_of_journal {artifact : Bytes} {journal : AggregateJournal}
    (h : aggregateJournal loadsBytes artifact = .ok journal) :
    ∃ branches es, branchRecords artifact = some branches ∧ Mirror.Rising none es ∧
      List.Forall₂ Mirror.Entry.Spells es branches := by
  simp only [aggregateJournal,reduceAggregateArtifact,bind_eq_ok,require_eq_ok] at h
  obtain ⟨_,⟨doc,hdoc,hred⟩,-⟩ := h
  obtain ⟨a,⟨-,-,-,-,-,branches,hbranches,hspell⟩,-⟩ := Mirror.cli_reduceValue.mp hred
  refine ⟨branches,a.entries,?_,a.rising,hspell⟩
  simp [branchRecords,hdoc,hbranches]

/-- No branch is counted twice. An artifact the runner binds names receipts that are pairwise
distinct, and jobs that are pairwise distinct unless two of the receipts collide. -/
theorem bound_branches_distinct (r : Runner) (job : Job) {binding : AggregateBinding}
    (h : bindCommittedArtifact r job = .ok binding) :
    ∃ branches jobKeys receipts, branchRecords binding.artifact = some branches ∧
      List.Forall₂ NamesJob branches jobKeys ∧ List.Forall₂ CarriesReceipt branches receipts ∧
      receipts.Nodup ∧ (jobKeys.Nodup ∨ Collision sha256 receipts) := by
  obtain ⟨-,hjournal,-,-,hchain⟩ := bindCommittedArtifact_ok h
  obtain ⟨branches,es,hbranches,hrising,hspell⟩ := branchRecords_of_journal hjournal
  simp only [checkBranchesAgainstChain,hbranches,require,ok_bind,forM_eq_ok,
    checkBranch_eq_ok] at hchain
  obtain ⟨jobKeys,hkeys⟩ : ∃ jobKeys, List.Forall₂ (fun branch jobKey => ∃ receipt account,
      Carried r.fetchJob branch jobKey receipt account) branches jobKeys := by
    apply exists_forall₂
    intro branch hb
    obtain ⟨jobKey,receipt,account,hc,-⟩ := hchain branch hb
    exact ⟨jobKey,receipt,account,hc⟩
  have hcarry : List.Forall₂ CarriesReceipt branches (es.map Mirror.Entry.receipt) := by
    rw [List.forall₂_map_right_iff]
    exact hspell.flip.imp (fun _ _ h => carries_of_spells h)
  have hdistinct := receipts_nodup hrising
  refine ⟨branches,jobKeys,_,hbranches,hkeys.imp ?_,hcarry,hdistinct,?_⟩
  · rintro branch jobKey ⟨_,_,hc⟩
    exact hc.names
  -- The hash of a receipt is a function of its job key: the account's submitted hash.
  · have hhash : jobKeys.map (fun k => (r.fetchJob k).map (fun j => j.submittedResultHash)) =
        ((es.map Mirror.Entry.receipt).map sha256).map some := by
      rw [List.map_map]
      apply map_eq_of_forall₂ (forall₂_join hkeys hcarry)
      rintro jobKey receipt ⟨branch,⟨receipt',account,hc⟩,hreceipt⟩
      obtain rfl := hc.carries.unique hreceipt
      simp [hc.fetched,hc.hash]
    refine (nodup_map_or_collision hdistinct).imp_left (fun hn => ?_)
    apply List.Nodup.of_map (fun k => (r.fetchJob k).map (fun j => j.submittedResultHash))
    rw [hhash]
    exact hn.map (Option.some_injective _)

/-- Three settled branches, bound. -/
theorem bound_branches_distinct_panel : ∃ binding branches jobKeys receipts,
    bindCommittedArtifact (sampleRunner sampleArtifact settledChain)
      (sampleJob sampleArtifact sampleOutputs) = .ok binding ∧
    branchRecords binding.artifact = some branches ∧ branches.length = 3 ∧
    List.Forall₂ NamesJob branches jobKeys ∧ List.Forall₂ CarriesReceipt branches receipts ∧
    receipts.Nodup ∧ (jobKeys.Nodup ∨ Collision sha256 receipts) := by
  obtain ⟨branches,jobKeys,receipts,hbranches,hd⟩ := bound_branches_distinct _ _ sample_holds.binds
  have hlength : branches.length = 3 := by
    rw [← Option.some.inj (sample_holds.records.symm.trans hbranches),List.length_map]
    rfl
  exact ⟨_,branches,jobKeys,receipts,sample_holds.binds,hbranches,hlength,hd⟩

end Distinct

section Unchallengeable

/-- The settlement rule: a marker of an honest guest run over the artifact names the job's image,
input and journal. `fromSlice` is the guest's reader of JSON and `imageId` the guest. -/
def Settles (fromSlice : Bytes → Option Json) (imageId : Digest) (job : Job) (artifact : Bytes) :
    Prop :=
  ∃ g, Reducer.aggregateJournal fromSlice artifact = .ok g ∧
    imageId = job.requiredSoftwareDigest ∧ g.inputDigest = job.inputBundleHash ∧
    g.journalHash = job.expectedResultHash

lemma guest_inputDigest {fromSlice : Bytes → Option Json} {artifact : Bytes}
    {g : Reducer.AggregateJournal} (h : Reducer.aggregateJournal fromSlice artifact = .ok g) :
    g.inputDigest = framedInputDigest artifact := by
  simp only [Reducer.aggregateJournal,bind_eq_ok,pure_eq_ok] at h
  obtain ⟨_,-,rfl⟩ := h
  rfl

/-- The guest derives the hash as the journal of the artifact. -/
def Derives (fromSlice : Bytes → Option Json) (artifact : Bytes) (hash : Digest) : Prop :=
  ∃ g, Reducer.aggregateJournal fromSlice artifact = .ok g ∧ g.journalHash = hash

lemma settles_iff {fromSlice : Bytes → Option Json} {imageId : Digest} {job : Job}
    {artifact : Bytes} : Settles fromSlice imageId job artifact ↔
      imageId = job.requiredSoftwareDigest ∧ framedInputDigest artifact = job.inputBundleHash ∧
        Derives fromSlice artifact job.expectedResultHash := by
  constructor
  · rintro ⟨g,hg,himage,hinput,hhash⟩
    exact ⟨himage,(guest_inputDigest hg).symm.trans hinput,g,hg,hhash⟩
  · rintro ⟨himage,hinput,g,hg,hhash⟩
    exact ⟨g,hg,himage,(guest_inputDigest hg).trans hinput,hhash⟩

/-- The guest's own run over the panel settles the job opened against it. -/
lemma Sample.settles {artifact outputs : Bytes} (h : Sample artifact outputs) :
    Settles Mirror.jsonOfBytes sampleImage (sampleJob artifact outputs) artifact :=
  settles_iff.mpr ⟨rfl,rfl,_,h.proves,h.hash.symm⟩

/-- The middle branch has no job. -/
def missingChain (jobKey : Digest) : Option Job :=
  if jobKey = sampleKey middleBranch then none else settledChain jobKey

lemma Sample.missing_recorded {artifact outputs : Bytes} (h : Sample artifact outputs) :
    ∃ errors, errors ≠ [] ∧ aggregateBranchesMatchChain
      (sampleVerifier artifact missingChain) artifact = .ok errors := by
  have hone : ∀ branch ∈ samplePanel.entries.map sampleRecord,
      Accepts (branchErrors (sampleVerifier artifact missingChain) branch) := by
    intro branch hmem
    obtain ⟨e,he,rfl⟩ := List.mem_map.mp hmem
    by_cases hkey : sampleKey e = sampleKey middleBranch
    · refine ⟨["branch job " ++ keyText (sampleKey e) ++ " does not exist"],?_⟩
      refine bind_eq_ok.mpr ⟨sampleKey e,recordKey_eq_ok.mpr (sample_names e),?_⟩
      exact bind_eq_ok.mpr ⟨none,(ok_of_mapError _ _ _).mpr (congrArg Except.ok (if_pos hkey)),rfl⟩
    · have hc := sample_carried (fun _ => jobStatusSettled) he
      exact ⟨[],branchErrors_eq_nil.mpr
        ⟨_,_,_,{ hc with fetched := (if_neg hkey).trans hc.fetched }⟩⟩
  obtain ⟨lists,hlists⟩ := mapM_accepts hone
  have hmatch : aggregateBranchesMatchChain (sampleVerifier artifact missingChain) artifact =
      .ok lists.flatten :=
    bind_eq_ok.mpr ⟨_,require_eq_ok.mpr h.records,map_eq_ok.mpr ⟨lists,hlists,rfl⟩⟩
  refine ⟨_,?_,hmatch⟩
  intro hnil
  rw [hnil] at hmatch
  obtain ⟨branches,hbranches,hall⟩ := branchesMatch_eq_nil.mp hmatch
  obtain rfl := Option.some.inj (h.records.symm.trans hbranches)
  obtain ⟨jobKey,_,_,hc⟩ := hall _ (List.mem_map_of_mem middleBranch_mem)
  obtain rfl := (sample_names _).unique hc.names
  have hnone : missingChain (sampleKey middleBranch) = none := if_pos rfl
  exact absurd (hnone.symm.trans hc.fetched) (by simp)

/-- The verifier of an artifact one of whose branch jobs does not exist. -/
lemma Sample.missing_attests {artifact outputs : Bytes} (h : Sample artifact outputs) :
    ∃ a, verifyAndAttestAggregate (sampleVerifier artifact missingChain) (natKey 9)
      (sampleJob artifact outputs) = .ok a ∧ a.artifact = artifact ∧ a.resultBytes = outputs ∧
      a.errors ≠ [] := by
  obtain ⟨errors,hne,herrors⟩ := h.missing_recorded
  simp only [verifyAndAttestAggregate,bind_eq_ok,ok_of_mapError,require_eq_ok,pure_eq_ok]
  exact ⟨_,⟨_,rfl,_,h.reduces,_,h.packs,_,herrors,_,rfl,rfl⟩,rfl,rfl,
    fun hnil => hne (List.append_eq_nil_iff.mp hnil).2⟩

end Unchallengeable

end Kswarm.Settlement
