import Kswarm.Worker.Accepted

/-! A verifier's re-execution against the worker's run. Two runs of one input may differ in clock,
endpoint, retries, proving and narrative; none of it reaches the result bytes. -/
namespace Kswarm
namespace Protocol

/-- The fields the canonical hash and the compact result are taken over. -/
def OutputFields.verifiedPart (f : OutputFields) : OutputFields :=
  { f with narrativeText := none, completedAtUnix := 0, zkvmReceiptCid := none }

/-- The result bytes are a function of the verified part. -/
theorem resultBytes_verifiedPart (f : OutputFields) :
    branchOutputResultBytes f.verifiedPart = branchOutputResultBytes f := by
  have hpre : f.verifiedPart.canonicalHashPreimage = f.canonicalHashPreimage := by
    simp [OutputFields.canonicalHashPreimage,OutputFields.modelDump,OutputFields.verifiedPart,
      Json.without]
  have hhash : canonicalHash f.verifiedPart = canonicalHash f := by
    rw [canonicalHash,hpre,canonicalHash]
  rw [branchOutputResultBytes,hhash,branchOutputResultBytes]
  rfl

end Protocol

namespace Worker
open Protocol

/-- Two answers agree in everything but the narrative. -/
def ParsedResponse.SameUpToText : ParsedResponse → ParsedResponse → Prop
  | .scalar p,.scalar q => p.scalarValueBps = q.scalarValueBps ∧
    p.confidenceLowerBps = q.confidenceLowerBps ∧ p.confidenceUpperBps = q.confidenceUpperBps
  | .categorical l,.categorical m => l = m
  | .narrative p,.narrative q => p.scalarValueBps = q.scalarValueBps ∧
    p.narrativeScores = q.narrativeScores
  | _,_ => False

/-- The model name and the token budget are all of the host that the version hash sees. -/
lemma llmVersionHash_congr {w v : Host} (hmodel : w.llmModelName = v.llmModelName)
    (htokens : w.llmMaxTokens = v.llmMaxTokens) (branchInput : BranchInput) :
    llmVersionHash w branchInput = llmVersionHash v branchInput := by
  rw [llmVersionHash,llmVersionHash,llmVersionPreimage,llmVersionPreimage,hmodel,htokens]

section Runs
variable [CharData]

/-- The document of a run: the answer's fields, bound to a transcript, a time and a receipt. -/
def finished (h : Host) (branchInput : BranchInput) (versionHash : String)
    (verifierReference : Option BranchOutput) (p : ParsedResponse) (transcriptCid : String)
    (receiptCid : Option String) : OutputFields :=
  { answerFields h branchInput versionHash verifierReference p with
    transcriptCid := transcriptCid
    completedAtUnix := h.clock 2
    zkvmReceiptCid := receiptCid }

lemma buildOutput_eq_ok {h : Host} {branchInput : BranchInput} {p : ParsedResponse}
    {verifierReference : Option BranchOutput} {o : BranchOutput} :
    buildOutput h branchInput p verifierReference = .ok o ↔
      ∃ versionHash, llmVersionHash h branchInput = .ok versionHash ∧
        o.toOutputFields = answerFields h branchInput versionHash verifierReference p := by
  simp only [buildOutput,bind_eq_ok,ok_of_mapError,require_eq_ok,BranchOutput.ofFields]
  refine exists_congr (fun versionHash => and_congr_right (fun _ => ?_))
  constructor
  · intro ho
    split_ifs at ho
    exact (congrArg BranchOutput.toOutputFields (Option.some.inj ho)).symm
  · intro ho
    have hv := o.valid
    rw [ho] at hv
    rw [dif_pos hv]
    exact congrArg some (by cases o; cases ho; rfl)

/-- What a run publishes. -/
theorem publish_ok {h : Host} {jobPubkey : String} {branchInput : BranchInput}
    {verifierReference : Option BranchOutput} {trace extra : Json} {a : ModelAnswer}
    {x : BranchExecution}
    (hx : publish h jobPubkey branchInput verifierReference trace extra a = .ok x) :
    ∃ versionHash receiptCid, llmVersionHash h branchInput = .ok versionHash ∧
      (∃ text, canonicalJsonBytes branchInput.modelDump = .ok text) ∧
      x.output.toOutputFields = finished h branchInput versionHash verifierReference a.parsed
        x.transcriptCid receiptCid ∧
      (∀ r ∈ verifierReference, x.transcriptCid = r.transcriptCid) ∧
      branchOutputResultBytes x.output.toOutputFields = .ok x.resultBytes := by
  simp only [publish,bind_eq_ok,ok_of_mapError,pure_eq_ok] at hx
  obtain ⟨o,ho,text,htext,cid,hcid,receipt,-,_,-,bytes,hbytes,rfl⟩ := hx
  obtain ⟨versionHash,hvh,hof⟩ := buildOutput_eq_ok.mp ho
  refine ⟨versionHash,receipt,hvh,⟨text,htext⟩,?_,?_,hbytes⟩
  · cases receipt with
    | none =>
      simp only [named,BranchOutput.copy,hof,finished]
      cases a.parsed <;> rfl
    | some c => simp only [named,BranchOutput.copy,BranchOutput.withReceipt,hof,finished]
  · intro r hr
    rw [Option.mem_def.mp hr] at hcid
    exact (pure_eq_ok.mp hcid).symm

lemma finished_valid (h : Host) {branchInput : BranchInput} (versionHash : String)
    (verifierReference : Option BranchOutput) {p : ParsedResponse} (hp : p.Checked branchInput)
    (transcriptCid : String) (receiptCid : Option String) :
    (finished h branchInput versionHash verifierReference p transcriptCid receiptCid).Valid :=
  answerFields_valid h versionHash verifierReference hp

/-- The document of an accepted answer has at most the three guardrail scores. -/
lemma finished_scores (h : Host) {branchInput : BranchInput} (versionHash : String)
    (verifierReference : Option BranchOutput) {p : ParsedResponse} (hp : p.Checked branchInput)
    (transcriptCid : String) (receiptCid : Option String) :
    (scores (finished h branchInput versionHash verifierReference p transcriptCid
      receiptCid)).length ≤ 32 := by
  cases p with
  | scalar p => exact Nat.zero_le 32
  | categorical l => exact Nat.zero_le 32
  | narrative p =>
    obtain ⟨-,-,-,hkeys,-⟩ := hp
    have hlen := congrArg List.length hkeys
    rw [List.length_map] at hlen
    change p.narrativeScores.length ≤ 32
    rw [hlen]
    decide

/-- An accepted answer encodes as soon as the index is a `u32`. -/
lemma finished_bytes (h : Host) {branchInput : BranchInput} (versionHash : String)
    (verifierReference : Option BranchOutput) {p : ParsedResponse} (hp : p.Checked branchInput)
    (hi : branchInput.branchIndex < 2^32) (transcriptCid : String) (receiptCid : Option String) :
    ∃ bytes, branchOutputResultBytes (finished h branchInput versionHash verifierReference p
      transcriptCid receiptCid) = .ok bytes := by
  have hc := (finished_valid h versionHash verifierReference hp transcriptCid receiptCid).checked
  have hindex : (finished h branchInput versionHash verifierReference p transcriptCid
      receiptCid).branchIndex < 2^32 := by
    cases p <;> exact hi
  exact ⟨_,(resultBytes_eq_ok hc).mpr
    ⟨hindex,finished_scores h versionHash verifierReference hp transcriptCid receiptCid,rfl⟩⟩

/-- A run of an accepted answer that proves no receipt publishes, once IPFS takes its documents. -/
lemma publish_exists {h : Host} (jobPubkey : String) {branchInput : BranchInput}
    (verifierReference : Option BranchOutput) (trace extra : Json) {a : ModelAnswer}
    {versionHash : String} {text : Bytes} (hp : a.parsed.Checked branchInput)
    (hi : branchInput.branchIndex < 2^32)
    (hvh : llmVersionHash h branchInput = .ok versionHash)
    (htext : canonicalJsonBytes branchInput.modelDump = .ok text)
    (hproves : proves h verifierReference = false)
    (hadd : ∀ name doc, ∃ cid, h.addJson name doc = .ok cid) :
    ∃ x, publish h jobPubkey branchInput verifierReference trace extra a = .ok x := by
  let o : BranchOutput := ⟨_,answerFields_valid h versionHash verifierReference hp⟩
  have ho : buildOutput h branchInput a.parsed verifierReference = .ok o :=
    buildOutput_eq_ok.mpr ⟨versionHash,hvh,rfl⟩
  have hpin : ∀ transcript, ∃ cid, pinTranscript h branchInput verifierReference transcript =
      .ok cid := by
    intro transcript
    cases verifierReference with
    | some r => exact ⟨_,rfl⟩
    | none =>
      obtain ⟨cid,hcid⟩ := hadd ("branch-" ++ toString branchInput.branchIndex ++
        "-transcript.json") transcript
      exact ⟨cid,(ok_of_mapError _ _ _).mpr hcid⟩
  have hreceipt : ∀ bound, pinReceipt h branchInput verifierReference bound = .ok none :=
    fun _ => if_neg (by simp [hproves])
  obtain ⟨transcriptCid,htranscript⟩ := hpin (transcriptOf h jobPubkey branchInput
    (hex (sha256 text)) o.llmVersionHash (messages branchInput trace) extra trace a)
  obtain ⟨cid,hcid⟩ := hadd ("branch-" ++ toString branchInput.branchIndex ++ "-output.json")
    (o.copy transcriptCid (h.clock 2)).modelDump
  have hdoc : (o.copy transcriptCid (h.clock 2)).toOutputFields =
      finished h branchInput versionHash verifierReference a.parsed transcriptCid none := by
    simp only [BranchOutput.copy,finished,o]
    cases a.parsed <;> rfl
  obtain ⟨bytes,hbytes⟩ := finished_bytes h versionHash verifierReference hp hi transcriptCid none
  simp only [publish,ho,htext,bind_eq_ok,ok_of_mapError,pure_eq_ok,Except.ok.injEq,
    exists_eq_left']
  refine ⟨_,transcriptCid,htranscript,none,hreceipt _,cid,hcid,bytes,?_,rfl⟩
  rw [named,hdoc]
  exact hbytes

/-- Re-execution against a worker's published output. If the two hosts run the same model with the
same token budget and their accepted answers agree up to the narrative, the verifier's run ends
in a result whenever IPFS takes its document, and the result is the worker's, byte for byte. -/
theorem reexecution_agrees {w v : Host} (hmodel : w.llmModelName = v.llmModelName)
    (htokens : w.llmMaxTokens = v.llmMaxTokens) (branchInput : BranchInput)
    (jobPubkey jobPubkey' : String) {x : BranchExecution}
    (hx : execute w jobPubkey branchInput none = .ok x) {tw ew tv ev : Json} {a b : ModelAnswer}
    (ha : acquire w branchInput = .ok (tw,ew,a)) (hb : acquire v branchInput = .ok (tv,ev,b))
    (hab : a.parsed.SameUpToText b.parsed) :
    (∀ y, execute v jobPubkey' branchInput (some x.output) = .ok y →
      y.resultBytes = x.resultBytes) ∧
    ((∀ name doc, ∃ cid, v.addJson name doc = .ok cid) →
      ∃ y, execute v jobPubkey' branchInput (some x.output) = .ok y) := by
  simp only [execute,ha,hb,bind_eq_ok,Except.ok.injEq,exists_eq_left'] at hx ⊢
  obtain ⟨versionHash,receipt,hvh,⟨text,htext⟩,hdoc,-,hbytes⟩ := publish_ok hx
  have hvh' : llmVersionHash v branchInput = .ok versionHash := by
    rw [← llmVersionHash_congr hmodel htokens]
    exact hvh
  have hcid : x.output.transcriptCid = x.transcriptCid := by rw [hdoc]; rfl
  -- Whatever the verifier's clock and receipt, its document has the worker's verified part.
  have hsame : ∀ receipt', (finished v branchInput versionHash (some x.output) b.parsed
      x.output.transcriptCid receipt').verifiedPart = x.output.verifiedPart := by
    intro receipt'
    rw [hcid,hdoc]
    cases ha' : a.parsed with
    | scalar p =>
      cases hb' : b.parsed with
      | scalar q =>
        rw [ha',hb'] at hab
        obtain ⟨h1,h2,h3⟩ := hab
        simp [OutputFields.verifiedPart,finished,answerFields,commonFields,h1,h2,h3,hmodel]
      | _ => rw [ha',hb'] at hab; exact hab.elim
    | categorical l =>
      cases hb' : b.parsed with
      | categorical m =>
        rw [ha',hb'] at hab
        have h1 : l = m := hab
        simp [OutputFields.verifiedPart,finished,answerFields,commonFields,h1,hmodel]
      | _ => rw [ha',hb'] at hab; exact hab.elim
    | narrative p =>
      cases hb' : b.parsed with
      | narrative q =>
        rw [ha',hb'] at hab
        obtain ⟨h1,h2⟩ := hab
        simp [OutputFields.verifiedPart,finished,answerFields,commonFields,h1,h2,hmodel]
      | _ => rw [ha',hb'] at hab; exact hab.elim
  have hresult : ∀ receipt', branchOutputResultBytes (finished v branchInput versionHash
      (some x.output) b.parsed x.output.transcriptCid receipt') = .ok x.resultBytes := by
    intro receipt'
    rw [← resultBytes_verifiedPart,hsame,resultBytes_verifiedPart]
    exact hbytes
  constructor
  · intro y hy
    obtain ⟨versionHash',receipt',hvh'',-,hdoc',href,hbytes'⟩ := publish_ok hy
    obtain rfl : versionHash = versionHash' := Except.ok.inj (hvh'.symm.trans hvh'')
    rw [hdoc',href _ rfl,hresult] at hbytes'
    exact (Except.ok.inj hbytes').symm
  · intro hadd
    have hi : branchInput.branchIndex < 2^32 := by
      obtain ⟨hi,-⟩ := (resultBytes_eq_ok x.output.valid.checked).mp hbytes
      rw [hdoc] at hi
      cases hp : a.parsed <;> simpa [hp,finished,answerFields,commonFields] using hi
    exact publish_exists jobPubkey' _ tv ev (acquire_checked hb) hi hvh' htext (by simp [proves])
      hadd

end Runs

section Example

/-- A categorical branch over two labels. -/
def labelInput : BranchInput where
  schemaVersion := 1
  parentJob := "Job111"
  branchIndex := 0
  seed := "Will it rain?"
  parameters := [("labels",.arr [.str "no",.str "yes"])]
  personaSetCid := none
  rngSeed := 7
  targetOutputKind := .categorical
  scalarGridBps := none

/-- A host that serves one label after `refusals` unusable answers. -/
def labelHost (baseUrl : String) (refusals start : ℕ) : Host where
  llmBaseUrl := baseUrl
  llmModelName := "llama3.2:3b"
  llmMaxTokens := 12000
  invalidOutputRetries := 2
  zkvmHost := none
  chat attempt _ _ _ := if attempt ≤ refusals then .error (.valueError "no JSON object")
    else .ok ⟨.obj [("categorical_label_index",.int 1)],some 9,some 400,some 409,""⟩
  repr _ := ""
  runOasis _ := .error "engine not installed"
  addJson name _ := .ok name
  prove _ _ := .error "no host"
  clock k := start+k
  latencySeconds _ := .finite false 0
  proveSeconds := .finite false 0

/-- A worker that answered at once, and a verifier elsewhere, later, that was refused twice. -/
theorem reexecution_agrees_label : let _ := CharData.ascii
    ∃ x y, execute (labelHost "http://worker" 0 1756900000) "Job222" labelInput none = .ok x ∧
      execute (labelHost "http://verifier" 2 1756990000) "Job222" labelInput (some x.output) =
        .ok y ∧ y.resultBytes = x.resultBytes := by
  let _ := CharData.ascii
  have ha : acquire (labelHost "http://worker" 0 1756900000) labelInput =
      .ok (.null,.null,⟨_,.categorical 1,_,_⟩) := rfl
  have hb : acquire (labelHost "http://verifier" 2 1756990000) labelInput =
      .ok (.null,.null,⟨_,.categorical 1,_,_⟩) := rfl
  obtain ⟨x,hx⟩ := publish_exists (h := labelHost "http://worker" 0 1756900000) "Job222" none .null
    .null (acquire_checked ha) (by decide) rfl rfl rfl (fun name _ => ⟨name,rfl⟩)
  have hex : execute (labelHost "http://worker" 0 1756900000) "Job222" labelInput none = .ok x := by
    rw [execute,ha,ok_bind]
    exact hx
  have h := reexecution_agrees (w := labelHost "http://worker" 0 1756900000)
    (v := labelHost "http://verifier" 2 1756990000) rfl rfl labelInput "Job222" "Job222" hex ha hb
    (show 1 = 1 from rfl)
  obtain ⟨y,hy⟩ := h.2 (fun name _ => ⟨name,rfl⟩)
  exact ⟨x,y,hex,hy,h.1 y hy⟩

end Example

end Worker
end Kswarm
