import Kswarm.Lib.JsonEqual
import Kswarm.Mirror.Reduction
import Kswarm.Prediction.Opened

/-! What `predict bind-aggregate` builds for an opened run: one record a branch in the planned order,
the parameters of the run, and a document that is read back as it was written. -/
namespace Kswarm.Prediction
open Cli

section Collecting
variable {h : BindHost} {run : Run} {allowCompleted : Bool} {branches : List Branch}

/-- A branch as it was planned, with the receipt of its job. -/
def Collected (h : BindHost) (item : BranchJob) (b : Branch) : Prop :=
  b.branchIndex = item.branchIndex ∧ b.job = item.job ∧ b.weight = 1 ∧
    ∃ key job, b.job = keyText key ∧ h.fetchJob key = some job ∧
      b.resultBytes = Reducer.encodeHex job.resultBytes

lemma collectBranch_ok {item : BranchJob} {b : Branch}
    (hb : collectBranch h allowCompleted item = .ok b) : Collected h item b := by
  simp only [collectBranch,bind_eq_ok,failIf_eq_ok,require_eq_ok,pure_eq_ok] at hb
  obtain ⟨key,hkey,job,hjob,-,-,-,-,-,-,rfl⟩ := hb
  exact ⟨rfl,(readKey_eq_some.mp hkey).symm,rfl,key,job,rfl,hjob,rfl⟩

lemma collect_ok (hc : collectBranchReceipts h run allowCompleted = .ok branches) :
    List.Forall₂ (Collected h) run.branchJobs branches :=
  (mapM_eq_ok.mp hc).imp (fun _ _ => collectBranch_ok)

/-- Nothing is bound but the planned jobs, in the planned order. -/
theorem collected_jobs (hc : collectBranchReceipts h run allowCompleted = .ok branches) :
    branches.map (fun b => (b.branchIndex,b.job)) =
      run.branchJobs.map (fun b => (b.branchIndex,b.job)) :=
  (map_eq_of_forall₂ (collect_ok hc) (fun _ _ hb => by rw [hb.1,hb.2.1])).symm

end Collecting

section Records

/-- The branches stand in the order of their indices. -/
lemma sorted_branches {branches : List Branch} {n : ℕ}
    (h : branches.map Branch.branchIndex = List.range n) :
    branches.insertionSort branchLe = branches := by
  apply List.Pairwise.insertionSort_eq
  have hr : (branches.map Branch.branchIndex).Pairwise (· ≤ ·) := by
    rw [h]
    exact List.pairwise_lt_range.imp Nat.le_of_lt
  rw [List.pairwise_map] at hr
  exact hr

/-- The record of a branch with the given receipt. -/
structure Records (b : Branch) (receipt : Bytes) (e : Json) : Prop where
  plain : e.Plain
  branch_index : e.get "branch_index" = some (.int b.branchIndex)
  job : e.get "job" = some (.str b.job)
  result_bytes : e.get "result_bytes" = some (.str (Reducer.encodeHex receipt))
  result_hash : e.get "result_hash" = some (.str (Reducer.encodeHex (sha256 receipt).val))
  weight : e.get "weight" = some (.int b.weight)

lemma artifactEntry_ok {b : Branch} {e : Json} (he : artifactEntry b = .ok e) :
    ∃ receipt, fromhex b.resultBytes.toList = some receipt ∧ Records b receipt e := by
  simp only [artifactEntry,bind_eq_ok,require_eq_ok,pure_eq_ok] at he
  obtain ⟨receipt,hreceipt,rfl⟩ := he
  refine ⟨receipt,hreceipt,⟨?_,trivial,trivial,trivial,trivial,trivial,trivial,trivial⟩,rfl,rfl,rfl,
    rfl,rfl⟩
  simp only [List.map_cons,List.map_nil]
  decide

lemma artifactEntry_exists {b : Branch} {receipt : Bytes}
    (h : b.resultBytes = Reducer.encodeHex receipt) : ∃ e, artifactEntry b = .ok e := by
  refine ⟨_,bind_eq_ok.mpr ⟨receipt,?_,rfl⟩⟩
  rw [require_eq_ok,h,Mirror.fromhex_encodeHex]

lemma entries_plain {branches : List Branch} {entries : List Json}
    (h : List.Forall₂ (fun b e => artifactEntry b = .ok e) branches entries) :
    ∀ e ∈ entries, e.Plain := by
  intro e he
  obtain ⟨b,-,hb⟩ := exists_of_mem_right h he
  obtain ⟨_,-,hrec⟩ := artifactEntry_ok hb
  exact hrec.plain

end Records

section Documents
variable (run : Run) (planCid : Option String) {outputSchemaHash parameters : Json}
  {combinerId : ℕ} {entries : List Json}

/-- A document of plain records and plain parameters is plain. -/
lemma artifactDocument_plain (hh : outputSchemaHash.Plain) (hp : parameters.Plain)
    (he : ∀ e ∈ entries, e.Plain) :
    (artifactDocument run outputSchemaHash combinerId parameters entries planCid).Plain := by
  have hbranches : (Json.arr entries).Plain := (Json.plainElems_iff entries).mpr he
  cases planCid with
  | none =>
    refine ⟨?_,trivial,trivial,trivial,trivial,hh,trivial,trivial,hp,hbranches,trivial⟩
    simp only [List.map_cons,List.map_nil,List.append_nil]
    decide
  | some cid =>
    refine ⟨?_,trivial,trivial,trivial,trivial,hh,trivial,trivial,hp,hbranches,trivial,trivial⟩
    simp only [List.map_cons,List.map_nil,List.cons_append,List.nil_append]
    decide

lemma sortKeys_arr (xs : List Json) : (Json.arr xs).sortKeys = .arr (xs.map Json.sortKeys) :=
  congrArg Json.arr (Json.sortElems_eq_map _ xs)

/-- The canonical bytes of a plain tree exist, and are read back as the sorted tree. -/
lemma canonicalJsonBytes_plain {ε : Type} {notFinite : ε} {v : Json} (hv : v.Plain) :
    canonicalJsonBytes notFinite v = .ok (utf8 (Json.render v.sortKeys)) := by
  simp only [canonicalJsonBytes,bind_eq_ok,failIf_eq_ok,pure_eq_ok]
  exact ⟨(),by simp [hv.finite],trivial⟩

lemma loadsBytes_render {v : Json} (hv : v.Plain) :
    loadsBytes (utf8 (Json.render v.sortKeys)) = some v.sortKeys := by
  rw [loadsBytes,decodeUtf8_utf8,Option.bind_some,Json.loads_render _ hv.sortKeys]

/-- The written record is the record of the entry. -/
lemma Records.spells {b : Branch} {record : Json} {e : Mirror.Entry}
    (hr : Records b e.receipt record) (hi : b.branchIndex = e.index) (hw : b.weight = e.weight) :
    e.Spells record.sortKeys := by
  simp only [Mirror.Entry.Spells,Json.get_sortKeys hr.plain,hr.branch_index,hr.result_bytes,
    hr.result_hash,hr.weight,hi,hw]
  exact ⟨rfl,rfl,rfl,rfl⟩

/-- A document built for an artifact spells it. -/
theorem artifactDocument_spells {a : Mirror.Artifact} (hh : outputSchemaHash.Plain)
    (hp : parameters.Plain) (he : ∀ e ∈ entries, e.Plain)
    (hname : run.combiner = Mirror.Artifact.combinerName a.combinerId)
    (hobj : parameters.sortKeys.isObj = true)
    (htrim : Mirror.SpellsOptional parameters.sortKeys "trim_bps" a.trimBps)
    (hsize : Mirror.SpellsOptional parameters.sortKeys "category_dictionary_size"
      a.dictionarySize)
    (hentries : List.Forall₂ Mirror.Entry.Spells a.entries (entries.map Json.sortKeys)) :
    a.Spells (artifactDocument run outputSchemaHash a.combinerId parameters entries
      planCid).sortKeys := by
  have hplain : (artifactDocument run outputSchemaHash a.combinerId parameters entries
      planCid).Plain := artifactDocument_plain run planCid hh hp he
  have hget := Json.get_sortKeys hplain
  have hbranches : (artifactDocument run outputSchemaHash a.combinerId parameters entries
      planCid).sortKeys.get "branches" = some (.arr (entries.map Json.sortKeys)) := by
    rw [hget,← sortKeys_arr]
    rfl
  refine ⟨hget _,hget _,hget _,?_,⟨parameters.sortKeys,hget _,hobj,htrim,hsize⟩,_,hbranches,
    hentries⟩
  rw [← hname]
  exact hget _

/-- What spells an artifact reduces once it is written and read back. -/
lemma journal_of_spells {a : Mirror.Artifact} {doc : Json} (hp : doc.Plain)
    (hs : a.Spells doc.sortKeys) :
    ∃ journal, aggregateJournal loadsBytes (utf8 (Json.render doc.sortKeys)) = .ok journal := by
  refine ⟨⟨framedInputDigest (utf8 (Json.render doc.sortKeys)),a.cliReduction⟩,?_⟩
  simp only [aggregateJournal,reduceAggregateArtifact,bind_eq_ok,require_eq_ok,pure_eq_ok]
  exact ⟨_,⟨_,loadsBytes_render hp,Mirror.cli_reduceValue.mpr ⟨a,hs,rfl⟩⟩,rfl⟩

end Documents

section Parameters

/-- The parameters an artifact carries: a vote's are the size of its dictionary. -/
def boundParameters (combiner : String) (labels : ℕ) (parameters : Json) : Json :=
  if combiner = "majority-vote" then .obj [("category_dictionary_size",.int labels)]
  else parameters

/-- A receipt that answers a run over so many labels. -/
def Answers (kind : OutputKind) (labels : ℕ) (result : Reducer.BranchResult) : Prop :=
  result.outputKind = kind ∧
    (kind.carriesScalar = true → ∃ s, result.scalarValueBps = some s) ∧
    (kind = .categorical → ∃ l, result.categoricalLabelIndex = some l ∧ l.toNat < labels)

variable {combiner : String} {kind : OutputKind} {parameters : Json}

lemma Compatible.bound_plain (h : Compatible combiner kind parameters) (labels : ℕ) :
    (boundParameters combiner labels parameters).Plain := by
  unfold boundParameters
  split_ifs
  · exact ⟨List.nodup_singleton _,trivial,trivial⟩
  · exact h.plain

lemma Compatible.bound_sorted (h : Compatible combiner kind parameters) (labels : ℕ) :
    (boundParameters combiner labels parameters).sortKeys =
      boundParameters combiner labels parameters ∧
    (boundParameters combiner labels parameters).isObj = true := by
  cases h <;> exact ⟨rfl,rfl⟩

/-- Rising receipts that answer a run make an artifact of its combiner, and the parameters the
binding writes are those of the artifact. -/
theorem Compatible.artifact (h : Compatible combiner kind parameters) {labels : ℕ}
    {es : List Mirror.Entry} (hne : es ≠ []) (hle : es.length ≤ 128)
    (hrising : Mirror.Rising none es)
    (hanswers : ∀ e ∈ es, e.weight = 1 ∧ Answers kind labels e.result) :
    ∃ a : Mirror.Artifact, a.entries = es ∧
      combiner = Mirror.Artifact.combinerName a.combinerId ∧
      combinerIds.lookup combiner = some a.combinerId ∧
      Mirror.SpellsOptional (boundParameters combiner labels parameters) "trim_bps" a.trimBps ∧
      Mirror.SpellsOptional (boundParameters combiner labels parameters)
        "category_dictionary_size" a.dictionarySize := by
  have hscalar : ∀ id, id ≠ 3 → kind.carriesScalar = true →
      ∀ e ∈ es, ∀ size, e.Suits id size := by
    intro id hid hk e he size
    obtain ⟨hw,hkind,hs,-⟩ := hanswers e he
    refine ⟨fun _ => hw,?_⟩
    rw [if_neg hid,hkind]
    exact ⟨hk,hs hk⟩
  cases h with
  | mean hk =>
    refine ⟨⟨1,0,0,es,.inl rfl,hne,hle,hrising,fun e he => hscalar 1 (by decide) hk e he 0,
      by decide⟩,rfl,rfl,rfl,.inl ⟨.inl rfl,rfl⟩,.inl ⟨.inl rfl,rfl⟩⟩
  | trimmed hk n hn =>
    refine ⟨⟨2,n,0,es,.inr (.inl rfl),hne,hle,hrising,
      fun e he => hscalar 2 (by decide) hk e he 0,fun _ => hn⟩,rfl,rfl,rfl,.inr rfl,
      .inl ⟨.inl rfl,rfl⟩⟩
  | vote =>
    refine ⟨⟨3,0,labels,es,.inr (.inr rfl),hne,hle,hrising,?_,by decide⟩,rfl,rfl,rfl,
      .inl ⟨.inl rfl,rfl⟩,.inr rfl⟩
    intro e he
    obtain ⟨hw,-,-,hl⟩ := hanswers e he
    exact ⟨fun _ => hw,hl rfl⟩

end Parameters

section Binding
variable [CharData] {h : OpenHost} {o : OpenOptions} {run : Run} {r : RunShape}

/-- A categorical run is opened over a dictionary of labels, which the manifest keeps. -/
lemma Opened.dictionary (ho : Opened h o run r) (hk : r.outputKind = .categorical) :
    parsedLabels o.labels ≠ [] ∧
      categoryDictionary run.parentManifest = some (.arr ((parsedLabels o.labels).map .str)) := by
  obtain ⟨schema,hschema,hmanifest⟩ := ho.schema
  rw [hk] at hschema
  simp only [predictionOutputSchema,bind_eq_ok,failIf_eq_ok,pure_eq_ok] at hschema
  obtain ⟨-,hlabels,rfl⟩ := hschema
  refine ⟨hlabels,?_⟩
  rw [hmanifest]
  rfl

lemma Opened.outputSchemaHash (ho : Opened h o run r) :
    run.parentManifest.get "output_schema_hash" = some (.str r.outputSchemaHash) := by
  obtain ⟨schema,-,hmanifest⟩ := ho.schema
  rw [hmanifest]
  rfl

/-- The parameters a binding of the run always finds. -/
theorem Opened.bindParameters_ok (ho : Opened h o run r) : bindParameters run =
    .ok (boundParameters o.combiner (parsedLabels o.labels).length r.parameters) := by
  obtain ⟨fs,hfs⟩ := ho.compatible.members
  simp only [bindParameters,bind_eq_ok,require_eq_ok,ite_eq_ok,pure_eq_ok,failIf_eq_ok,
    ho.parameters,ho.combiner]
  refine ⟨fs,by rw [hfs]; rfl,?_⟩
  by_cases hv : o.combiner = "majority-vote"
  · obtain ⟨hlabels,hdictionary⟩ := ho.dictionary (ho.compatible.of_vote hv).1
    obtain rfl : fs = [] := Json.obj.inj (hfs.symm.trans (ho.compatible.of_vote hv).2)
    refine .inl ⟨hv,(parsedLabels o.labels).map .str,by rw [hdictionary]; rfl,(),?_,?_⟩
    · simpa using hlabels
    · rw [boundParameters,if_pos hv,List.length_map]
      rfl
  · refine .inr ⟨hv,?_⟩
    rw [boundParameters,if_neg hv,hfs]

/-- The document a binding of the run writes. -/
def boundDocument (o : OpenOptions) (run : Run) (r : RunShape) (combinerId : ℕ)
    (entries : List Json) (planCid : Option String) : Json :=
  artifactDocument run (.str r.outputSchemaHash) combinerId
    (boundParameters o.combiner (parsedLabels o.labels).length r.parameters) entries planCid

lemma Opened.document_plain (ho : Opened h o run r) (combinerId : ℕ) (planCid : Option String)
    {entries : List Json} (he : ∀ e ∈ entries, e.Plain) :
    (boundDocument o run r combinerId entries planCid).Plain := by
  have hhash : (Json.str r.outputSchemaHash).Plain := trivial
  exact artifactDocument_plain run planCid hhash (ho.compatible.bound_plain _) he

/-- A binding of the run is the canonical text of its document, if that reduces. -/
theorem Opened.bindBranches_eq_ok (ho : Opened h o run r) {branches : List Branch}
    {planCid : Option String} {artifact : Bytes} {journal : AggregateJournal} :
    bindBranches run branches planCid = .ok (artifact,journal) ↔
      ∃ combinerId entries, combinerIds.lookup o.combiner = some combinerId ∧
        List.Forall₂ (fun b e => artifactEntry b = .ok e) (branches.insertionSort branchLe)
          entries ∧
        artifact = utf8 (Json.render (boundDocument o run r combinerId entries
          planCid).sortKeys) ∧
        aggregateJournal loadsBytes artifact = .ok journal := by
  simp only [bindBranches,buildAggregateArtifact,bind_eq_ok,ok_of_mapError,require_eq_ok,
    pure_eq_ok,Prod.mk.injEq,ho.bindParameters_ok,ho.outputSchemaHash,ho.combiner,mapM_eq_ok,
    Except.ok.injEq,Option.some.injEq,exists_eq_left']
  constructor
  · rintro ⟨_,⟨id,hid,entries,he,hbytes⟩,_,hj,rfl,rfl⟩
    have hplain := ho.document_plain id planCid (entries_plain he)
    exact ⟨id,entries,hid,he,Except.ok.inj (hbytes.symm.trans (canonicalJsonBytes_plain hplain)),hj⟩
  · rintro ⟨id,entries,hid,he,rfl,hj⟩
    have hplain := ho.document_plain id planCid (entries_plain he)
    exact ⟨_,⟨id,hid,entries,he,canonicalJsonBytes_plain hplain⟩,journal,hj,rfl,rfl⟩

/-- Branches that carry answering receipts can be bound, whichever plan the artifact names. -/
theorem Opened.binds (ho : Opened h o run r) {branches : List Branch}
    (hindex : branches.map Branch.branchIndex = List.range o.branches)
    (hb : ∀ b ∈ branches, ∃ e : Mirror.Entry, b.resultBytes = Reducer.encodeHex e.receipt ∧
      b.branchIndex = e.index ∧ b.weight = 1 ∧ e.weight = 1 ∧
      Answers r.outputKind (parsedLabels o.labels).length e.result) (planCid : Option String) :
    ∃ artifact journal, bindBranches run branches planCid = .ok (artifact,journal) := by
  obtain ⟨es,hes⟩ := exists_forall₂ hb
  obtain ⟨entries,hentries⟩ := exists_forall₂ (fun b hm => by
    obtain ⟨e,hhex,-⟩ := hb b hm
    exact artifactEntry_exists hhex)
  have hesIndex : es.map Mirror.Entry.index = List.range o.branches := by
    rw [← hindex]
    exact (map_eq_of_forall₂ hes (fun _ _ hm => hm.2.1)).symm
  have hlen : es.length = o.branches := by simpa using congrArg List.length hesIndex
  have hpos := ho.branches_pos
  have hrising : Mirror.Rising none es := by
    refine ⟨by simp,?_⟩
    have hr := List.pairwise_lt_range (n := o.branches)
    rw [← hesIndex,List.pairwise_map] at hr
    exact hr
  obtain ⟨a,rfl,hname,hid,htrim,hsize⟩ := ho.compatible.artifact
    (by rintro rfl; simp at hlen; omega) (by have := ho.branches_le; omega) hrising (by
      intro e he
      obtain ⟨b,-,-,-,-,hw,hans⟩ := exists_of_mem_right hes he
      exact ⟨hw,hans⟩)
  obtain ⟨hsorted,hobj⟩ := ho.compatible.bound_sorted (parsedLabels o.labels).length
  have hplain := ho.compatible.bound_plain (parsedLabels o.labels).length
  rw [← hsorted] at htrim hsize hobj
  have hspells : List.Forall₂ Mirror.Entry.Spells a.entries (entries.map Json.sortKeys) := by
    rw [List.forall₂_map_right_iff]
    refine (forall₂_join hes hentries).imp ?_
    rintro e record ⟨b,⟨hhex,hi,hw,hwe,-⟩,hbe⟩
    obtain ⟨receipt,hreceipt,hrec⟩ := artifactEntry_ok hbe
    rw [hhex,Mirror.fromhex_encodeHex] at hreceipt
    obtain rfl := Option.some.inj hreceipt
    exact hrec.spells hi (hw.trans hwe.symm)
  have hhash : (Json.str r.outputSchemaHash).Plain := trivial
  have hdoc := artifactDocument_spells run planCid hhash hplain (entries_plain hentries)
    (ho.combiner.trans hname) hobj htrim hsize hspells
  obtain ⟨journal,hjournal⟩ := journal_of_spells (ho.document_plain a.combinerId planCid
    (entries_plain hentries)) hdoc
  refine ⟨_,journal,ho.bindBranches_eq_ok.mpr ⟨a.combinerId,entries,hid,?_,rfl,hjournal⟩⟩
  rw [sorted_branches hindex]
  exact hentries

end Binding

end Kswarm.Prediction
