import Kswarm.Cli.Prediction

/-! What `predict open` fixes: a combiner that fits the output kind, the branch jobs in order, the
pinned inputs and the pinned plan. Everything a later step needs is read off this record. -/
namespace Kswarm.Prediction
open Cli

/-- The combiners with the kinds and parameters they may be opened with. -/
inductive Compatible : String → OutputKind → Json → Prop
  | mean {kind : OutputKind} (hk : kind.carriesScalar = true) :
    Compatible "weighted-mean" kind (.obj [])
  | trimmed {kind : OutputKind} (hk : kind.carriesScalar = true) (trimBps : ℕ)
    (ht : trimBps < 10000) : Compatible "trimmed-mean" kind (.obj [("trim_bps",.int trimBps)])
  | vote : Compatible "majority-vote" .categorical (.obj [])

lemma mem_scalarOutputKinds {kind : OutputKind} :
    kind ∈ scalarOutputKinds ↔ kind.carriesScalar = true := by
  cases kind <;> decide

/-- The rules of the command line allow exactly the compatible parameters. -/
theorem combinerParameters_compatible {combiner : String} {kind : OutputKind}
    {trimBps : Option ℤ} {parameters : Json}
    (h : combinerParameters combiner kind trimBps = .ok parameters) :
    Compatible combiner kind parameters := by
  simp only [combinerParameters,validateCombiner,bind_eq_ok,failIf_eq_ok,ite_eq_ok,pure_eq_ok,
    exists_and_left,exists_const,not_and,not_not] at h
  obtain ⟨hknown,hscalar,hlabel,⟨rfl,trim,htrim,rfl⟩ | ⟨hne,-,rfl⟩⟩ := h
  · have hk := mem_scalarOutputKinds.mp (hscalar (by decide))
    simp only [validateTrimBps,bind_eq_ok,failIf_eq_ok,pure_eq_ok,exists_and_left,exists_const]
      at htrim
    obtain ⟨hrange,rfl⟩ := htrim
    generalize trimBps.getD defaultTrimBps = trim at hrange ⊢
    rw [bpsScale] at hrange
    obtain ⟨n,rfl⟩ : ∃ n : ℕ, trim = n := ⟨trim.toNat,by omega⟩
    exact .trimmed hk n (by omega)
  · simp only [combiners,List.map_cons,List.map_nil,List.mem_cons,List.not_mem_nil,or_false]
      at hknown
    rcases hknown with rfl | rfl | rfl
    · exact .mean (mem_scalarOutputKinds.mp (hscalar (by decide)))
    · exact absurd rfl hne
    · obtain rfl := hlabel (by decide)
      exact .vote

lemma Compatible.plain {combiner : String} {kind : OutputKind} {parameters : Json}
    (h : Compatible combiner kind parameters) : parameters.Plain := by
  cases h with
  | mean hk => exact ⟨List.nodup_nil,trivial⟩
  | trimmed hk n hn => exact ⟨List.nodup_singleton _,trivial,trivial⟩
  | vote => exact ⟨List.nodup_nil,trivial⟩

lemma zipIdx_range (n base : ℕ) : ((List.range n).map (base+·)).zipIdx =
    (List.range n).map (fun i => (base+i,i)) := by
  apply List.ext_getElem
  · simp
  · intro i h1 h2
    simp

lemma Compatible.members {combiner : String} {kind : OutputKind} {parameters : Json}
    (h : Compatible combiner kind parameters) : ∃ fs, parameters = .obj fs := by
  cases h <;> exact ⟨_,rfl⟩

lemma Compatible.of_vote {combiner : String} {kind : OutputKind} {parameters : Json}
    (h : Compatible combiner kind parameters) (hv : combiner = "majority-vote") :
    kind = .categorical ∧ parameters = .obj [] := by
  cases h with
  | mean hk => exact absurd hv (by decide)
  | trimmed hk n hn => exact absurd hv (by decide)
  | vote => exact ⟨rfl,rfl⟩

section Runs
variable [CharData]

/-- A run planned by `predict open`, and the shape its branch inputs share. -/
structure Opened (h : OpenHost) (o : OpenOptions) (run : Run) (r : RunShape) : Prop where
  branches_pos : 0 < o.branches
  branches_le : o.branches ≤ 128
  kind : validateOutputKind o.outputKind = .ok r.outputKind
  compatible : Compatible o.combiner r.outputKind r.parameters
  combiner : run.combiner = o.combiner
  parameters : run.combinerParameters = r.parameters
  schema : ∃ outputSchema,
    predictionOutputSchema r.outputKind o.labels o.forecastHorizon = .ok outputSchema ∧
    run.parentManifest = parentManifest h o r.parameters outputSchema r.outputSchemaHash
      r.aggregateJob r.personasHash
  jobs : run.branchJobs.map (fun b => (b.branchIndex,b.job)) =
    (List.range o.branches).map (fun i => (i,keyText (h.jobPda h.customer (h.baseNonce+i))))
  inputs : ∀ i < o.branches, (branchInput o r i).modelDump.finite = true
  plan : run.aggregatePlan = aggregatePlan h o r run.branchJobs
  pinned : ∃ planCid, h.addBytes "aggregate-plan.json"
    (utf8 (Json.render run.aggregatePlan.sortKeys)) = .ok planCid ∧
    run.aggregatePlanCid = some planCid

lemma planBranch_ok {h : OpenHost} {o : OpenOptions} {r : RunShape} {item : ℕ × ℕ} {b : BranchJob}
    (hb : planBranch h o r item = .ok b) : b.branchIndex = item.2 ∧
      b.job = keyText (h.jobPda h.customer item.1) ∧
      (branchInput o r item.2).modelDump.finite = true := by
  simp only [planBranch,canonicalJsonBytes,bind_eq_ok,failIf_eq_ok,ok_of_mapError,pure_eq_ok] at hb
  obtain ⟨_,⟨-,hfinite,rfl⟩,_,-,rfl⟩ := hb
  exact ⟨rfl,rfl,by simpa using hfinite⟩

theorem predictOpen_ok {h : OpenHost} {o : OpenOptions} {run : Run} {r : RunShape}
    (hopen : predictOpen h o = .ok (run,r)) : Opened h o run r := by
  simp only [predictOpen,bind_eq_ok,failIf_eq_ok,ok_of_mapError,pure_eq_ok,Prod.mk.injEq] at hopen
  obtain ⟨-,hcount,-,-,kind,hkind,parameters,hp,⟨nonces,aggregateNonce⟩,hnonces,outputSchema,hschema,_,
    -,personasHash,-,_,-,cid,-,_,-,jobs,hjobs,planBytes,hplan,planCid,hcid,rfl,rfl⟩ := hopen
  simp only [plannedNonces,bind_eq_ok,failIf_eq_ok,pure_eq_ok,Prod.mk.injEq] at hnonces
  obtain ⟨-,-,rfl,rfl⟩ := hnonces
  simp only [canonicalJsonBytes,bind_eq_ok,failIf_eq_ok,pure_eq_ok] at hplan
  obtain ⟨-,-,rfl⟩ := hplan
  rw [zipIdx_range,mapM_eq_ok,List.forall₂_map_left_iff] at hjobs
  rw [maxBranches] at hcount
  refine ⟨by omega,by omega,hkind,combinerParameters_compatible hp,rfl,rfl,⟨_,hschema,rfl⟩,?_,?_,rfl,
    planCid,hcid,rfl⟩
  · refine (map_eq_of_forall₂ hjobs (fun i b hb => ?_)).symm
    obtain ⟨hindex,hjob,-⟩ := planBranch_ok hb
    rw [hindex,hjob]
  · intro i hi
    obtain ⟨hlen,hget⟩ := List.forall₂_iff_get.mp hjobs
    rw [List.length_range] at hlen
    have hb := hget i (by simpa using hi) (by omega)
    simpa using (planBranch_ok hb).2.2

end Runs

section Progress

lemma finite_texts (xs : List String) : (Json.arr (xs.map .str)).finite = true := by
  rw [Json.finite,Json.finiteElems_iff]
  simp [Json.finite]

lemma finite_optText (t : Option String) : (optText t).finite = true := by cases t <;> rfl

lemma canonicalJsonBytes_accepts {ε : Type} (notFinite : ε) {payload : Json}
    (h : payload.finite = true) : Accepts (canonicalJsonBytes notFinite payload) :=
  .guard (by simp [h]) ⟨_,rfl⟩

lemma parentManifest_finite (h : OpenHost) (o : OpenOptions) {parameters outputSchema : Json}
    (hp : parameters.finite = true) (hs : outputSchema.finite = true) (outputSchemaHash : String)
    (aggregateJob : Digest) (personasHash : Option String) :
    (parentManifest h o parameters outputSchema outputSchemaHash aggregateJob
      personasHash).finite = true := by
  have hhash := finite_optText personasHash
  rw [parentManifest,Json.finite,Json.finiteFields_iff]
  simp only [List.forall_mem_append,List.forall_mem_cons]
  refine ⟨⟨⟨⟨rfl,rfl,rfl,rfl,hp,finite_optText _,hs,rfl,rfl,rfl,rfl,by simp⟩,?_⟩,?_⟩,?_⟩
  · cases o.contextFile with
    | none => simp
    | some f => simp [Json.finite,Json.finiteFields]
  · cases o.numCtx with
    | none => simp
    | some n => simp [Json.finite,Json.finiteFields]
  · cases o.personasFile with
    | none => simp
    | some f => simp [Json.finite,Json.finiteFields,hhash]

lemma personaOf_finite {personas : List Json} (h : (Json.arr personas).finite = true)
    (branchIndex : ℕ) : (personaOf personas branchIndex).finite = true := by
  rw [Json.finite,Json.finiteElems_iff] at h
  unfold personaOf
  split_ifs with hne
  · rfl
  · have hlt := Nat.mod_lt branchIndex (List.length_pos_iff.mpr hne)
    rw [List.getD_eq_getElem?_getD,List.getElem?_eq_getElem hlt]
    exact h _ (List.getElem_mem hlt)

lemma aggregatePlan_finite (h : OpenHost) (o : OpenOptions) (r : RunShape)
    (branchJobs : List BranchJob) (hp : r.parameters.finite = true) :
    (aggregatePlan h o r branchJobs).finite = true := by
  have hjobs : (Json.arr (branchJobs.map planRecord)).finite = true := by
    rw [Json.finite,Json.finiteElems_iff]
    simp [planRecord,Json.finite,Json.finiteFields]
  rw [aggregatePlan,Json.finite,Json.finiteFields_iff]
  simp only [List.forall_mem_cons]
  exact ⟨rfl,rfl,rfl,hjobs,rfl,hp,rfl,rfl,by simp⟩

variable [CharData]

lemma predictionOutputSchema_finite {kind : OutputKind} {labels : Option String}
    {forecastHorizon : String} {schema : Json}
    (h : predictionOutputSchema kind labels forecastHorizon = .ok schema) :
    schema.finite = true := by
  cases kind with
  | scalar =>
    obtain rfl := pure_eq_ok.mp h
    rfl
  | categorical =>
    simp only [predictionOutputSchema,bind_eq_ok,failIf_eq_ok,pure_eq_ok] at h
    obtain ⟨-,-,rfl⟩ := h
    have hlabels := finite_texts (parsedLabels labels)
    simpa [Json.finite,Json.finiteFields_iff] using hlabels
  | narrativeWithScalar =>
    obtain rfl := pure_eq_ok.mp h
    rfl

lemma branchInput_finite (o : OpenOptions) (r : RunShape) (branchIndex : ℕ)
    (hp : r.parameters.finite = true)
    (hpersonas : (Json.arr ((o.personasFile.map Prod.snd).getD [])).finite = true) :
    (branchInput o r branchIndex).modelDump.finite = true := by
  have hlabels := finite_texts (parsedLabels o.labels)
  have hpersona := personaOf_finite hpersonas branchIndex
  have hnum : (optNumber o.numCtx).finite = true := by cases o.numCtx <;> rfl
  have hgrid : ∀ n : Option ℕ, (Protocol.optInt n).finite = true := by
    intro n
    cases n <;> rfl
  have hset : (Protocol.optStr o.personaSet).finite = true := by cases o.personaSet <;> rfl
  have hparameters : (Json.obj (branchInput o r branchIndex).parameters).finite = true := by
    rw [Json.finite,Json.finiteFields_iff]
    simp only [branchInput,List.forall_mem_cons]
    exact ⟨rfl,hp,rfl,hlabels,rfl,rfl,finite_optText _,finite_optText _,hnum,hpersona,
      finite_optText _,by simp⟩
  rw [Protocol.BranchInput.modelDump,Json.finite,Json.finiteFields_iff]
  simp only [List.forall_mem_cons]
  exact ⟨rfl,rfl,rfl,rfl,hparameters,hset,rfl,rfl,hgrid _,by simp⟩

/-- Every choice the rules allow is opened, once IPFS takes the artifacts. -/
theorem predictOpen_accepts {h : OpenHost} {o : OpenOptions} {kind : OutputKind}
    {parameters outputSchema : Json} (hcount : 1 ≤ o.branches ∧ o.branches ≤ 128)
    (hctx : ∀ n ∈ o.numCtx, 1 ≤ n) (hkind : validateOutputKind o.outputKind = .ok kind)
    (hparameters : combinerParameters o.combiner kind o.trimBps = .ok parameters)
    (hnonces : h.baseNonce+o.branches ≤ nonceMax)
    (hschema : predictionOutputSchema kind o.labels o.forecastHorizon = .ok outputSchema)
    (hpersonas : ∀ f ∈ o.personasFile, f.2 ≠ [] ∧ (Json.arr f.2).finite = true)
    (hadd : ∀ name bytes, ∃ cid, h.addBytes name bytes = .ok cid) :
    Accepts (predictOpen h o) := by
  have hadd' : ∀ name bytes, Accepts ((h.addBytes name bytes).mapError OpenError.ipfs) := by
    intro name bytes
    obtain ⟨cid,hcid⟩ := hadd name bytes
    exact ⟨cid,(ok_of_mapError _ _ _).mpr hcid⟩
  have hp := (combinerParameters_compatible hparameters).plain.finite
  have hlibrary : (Json.arr ((o.personasFile.map Prod.snd).getD [])).finite = true := by
    cases hf : o.personasFile with
    | none => rfl
    | some f => exact (hpersonas f hf).2
  have hread : Accepts (readOptionalPersonas o) := by
    unfold readOptionalPersonas
    split
    · exact ⟨_,rfl⟩
    · rename_i path personas hf
      obtain ⟨hne,hfinite⟩ := hpersonas _ hf
      exact .guard hne (.andThen (canonicalJsonBytes_accepts _ hfinite) (fun _ => ⟨_,rfl⟩))
  have hbranch : ∀ r : RunShape, r.parameters = parameters → ∀ item,
      Accepts (planBranch h o r item) := by
    rintro r rfl item
    refine .andThen (canonicalJsonBytes_accepts _ (branchInput_finite o r item.2 hp hlibrary)) ?_
    exact fun _ => .andThen (hadd' _ _) (fun _ => ⟨_,rfl⟩)
  have hcontext : ¬o.numCtx.any (fun n => decide (n < 1)) = true := by
    cases hn : o.numCtx with
    | none => simp
    | some n => simpa using hctx n hn
  have hfinite := predictionOutputSchema_finite hschema
  refine .guard (by rw [maxBranches]; omega) (.guard hcontext (.bind hkind (.bind hparameters
    (.bind (a := (_,_)) (bind_eq_ok.mpr ⟨(),failIf_eq_ok.mpr (by omega),rfl⟩)
    (.bind hschema ?_)))))
  refine .andThen (canonicalJsonBytes_accepts _ hfinite) (fun _ => ?_)
  refine .andThen hread (fun personasHash => ?_)
  refine .andThen (canonicalJsonBytes_accepts _ (parentManifest_finite h o hp hfinite _ _ _))
    (fun _ => ?_)
  refine .andThen (hadd' _ _) (fun _ => ?_)
  refine .andThen (canonicalJsonBytes_accepts _ rfl) (fun _ => ?_)
  refine .andThen (mapM_accepts (fun item _ => hbranch _ rfl item)) (fun branchJobs => ?_)
  refine .andThen (canonicalJsonBytes_accepts _ (aggregatePlan_finite h o _ branchJobs hp))
    (fun _ => ?_)
  exact .andThen (hadd' _ _) (fun _ => ⟨_,rfl⟩)

end Progress
end Kswarm.Prediction
