import Kswarm.Worker.BranchDaemon
import Kswarm.Worker.ModelAnswers
import Kswarm.Worker.Reexecution

/-! What makes an execution fail on the daemon: the causes of an exception it has no handler for, and
those of a failure in passing that it answers with another attempt. Both are said of what the run is
given: its input, and the answers of OASIS, the model, IPFS and the prover. -/
namespace Kswarm.Worker.Branch
open Protocol

section Steps
variable [CharData] (h : Host) (key : String) (branchInput : BranchInput)

/-- The input asks for a simulation. -/
def AsksOasis : Prop :=
  ((parameter branchInput "oasis_simulation_id").getD .null).truthy = true ∧
    ((parameter branchInput "run_oasis").getD (.bool false)).truthy = true

/-- The trace of the simulation, if one is asked for. -/
def Traced (trace : Json) : Prop :=
  (AsksOasis branchInput ∧ h.runOasis branchInput = .ok trace) ∨
    (¬AsksOasis branchInput ∧ trace = .null)

/-- The input asks for a context window that is no positive integer. -/
def NoContext : Prop :=
  ∃ raw, parameter branchInput "num_ctx" = some raw ∧ raw ≠ .null ∧
    ∀ n, raw.toInt = some n → n ≤ 0

/-- The model's answer to the request of one turn. -/
def reply (trace extra : Json) (turn : ℕ) : Except RequestError Reply :=
  h.chat turn (messages branchInput trace) (normalizeLlmSeed branchInput.rngSeed) extra

/-- An answer that is asked for again: no JSON object, or one the parser refuses. -/
def Refused : Except RequestError Reply → Prop
  | .error (.valueError _) => True
  | .error _ => False
  | .ok r => ∃ e, parseModelResponse branchInput r.payload = .error (.invalid e)

/-- The model gives this answer, once the ones before it were refused. -/
def Answers (answer : Except RequestError Reply) : Prop :=
  ∃ trace extra, Traced h branchInput trace ∧ extraBody branchInput = .ok extra ∧
    ∃ n < h.invalidOutputRetries+1, reply h branchInput trace extra (n+1) = answer ∧
      ∀ k < n, Refused branchInput (reply h branchInput trace extra (k+1))

/-- An answer the parser crashes on: an integer that is too wide, or labels that have no length. -/
def Unreadable (payload : Json) : Prop :=
  Overruns branchInput.targetOutputKind payload ∨
    (payload.isObj = true ∧ branchInput.targetOutputKind = .categorical ∧
      labelCount branchInput.parameters = none)

/-- The run has its output and the transcript of the answer it was made from. -/
def Built (output : BranchOutput) (transcript : Json) : Prop :=
  ∃ trace extra answer text, acquire h branchInput = .ok (trace,extra,answer) ∧
    buildOutput h branchInput answer.parsed none = .ok output ∧
    canonicalJsonBytes branchInput.modelDump = .ok text ∧
    transcriptOf h key branchInput (hex (sha256 text)) output.llmVersionHash
      (messages branchInput trace) extra trace answer = transcript

/-- What `add_json` answers of a document of this branch. -/
def pinned (suffix : String) (document : Json) : Except String String :=
  h.addJson ("branch-" ++ toString branchInput.branchIndex ++ suffix) document

/-- The transcript is pinned, and the document refers to it. -/
def Drafted (bound : BranchOutput) : Prop :=
  ∃ output transcript cid, Built h key branchInput output transcript ∧
    pinned h branchInput "-transcript.json" transcript = .ok cid ∧
    output.copy cid (h.clock 2) = bound

/-- The prover's bundle states the journal of this very document. -/
def Receipt (bound : BranchOutput) (bundle : Json) : Prop :=
  h.prove branchInput.modelDump bound.modelDump = .ok bundle ∧
    ∃ journal resultHash, bundleJournal bundle = .ok journal ∧
      branchResultHash bound.toOutputFields = .ok resultHash ∧
      expectedJournal branchInput.modelDump bound.modelDump resultHash = .ok journal

/-- The document that is published, with its receipt if the run proves one. -/
def Final (bound output : BranchOutput) : Prop :=
  (proves h none = false ∧ bound = output) ∨
    (proves h none = true ∧ ∃ bundle cid, Receipt h branchInput bound bundle ∧
      pinned h branchInput "-zkvm-receipt.json" bundle = .ok cid ∧
      bound.withReceipt (some cid) = output)

/-- What makes an execution raise an exception that the daemon has no handler for. -/
inductive Breaks : Prop where
  | oasis (text : String) (asks : AsksOasis branchInput)
      (failed : h.runOasis branchInput = .error text)
  | context (trace : Json) (traced : Traced h branchInput trace) (none : NoContext branchInput)
  | answer (r : Reply) (answers : Answers h branchInput (.ok r))
      (unreadable : Unreadable branchInput r.payload)
  | input (taken : Json × Json × ModelAnswer) (acquired : acquire h branchInput = .ok taken)
      (infinite : branchInput.modelDump.finite = false)
  | receipt (bound : BranchOutput) (drafted : Drafted h key branchInput bound)
      (proving : proves h none = true) (unproved : ∀ bundle, ¬Receipt h branchInput bound bundle)
  | index (bound output : BranchOutput) (cid : String) (drafted : Drafted h key branchInput bound)
      (final : Final h branchInput bound output)
      (published : pinned h branchInput "-output.json" output.modelDump = .ok cid)
      (wide : 2^32 ≤ branchInput.branchIndex)

/-- What makes an execution fail in passing, so that the daemon tries it again. -/
inductive Passes : Prop where
  | unreachable (text : String) (answers : Answers h branchInput (.error (.apiConnection text)))
  | status (code : ℕ) (message : String) (retried : code ∈ retryableHttpStatuses)
      (answers : Answers h branchInput (.error (.apiStatus code message)))
  | transcript (output : BranchOutput) (transcript : Json) (text : String)
      (built : Built h key branchInput output transcript)
      (refused : pinned h branchInput "-transcript.json" transcript = .error text)
  | receipt (bound : BranchOutput) (bundle : Json) (text : String)
      (drafted : Drafted h key branchInput bound) (proving : proves h none = true)
      (receipt : Receipt h branchInput bound bundle)
      (refused : pinned h branchInput "-zkvm-receipt.json" bundle = .error text)
  | output (bound output : BranchOutput) (text : String) (drafted : Drafted h key branchInput bound)
      (final : Final h branchInput bound output)
      (refused : pinned h branchInput "-output.json" output.modelDump = .error text)

end Steps

section Asking
variable [CharData] {h : Host} {branchInput : BranchInput} {trace extra : Json}
  {p : ExecutionError → Prop}

omit [CharData] in
lemma runOasis_fails : Fails p (runOasisIfRequested h branchInput) ↔
    AsksOasis branchInput ∧ ∃ text, h.runOasis branchInput = .error text ∧ p (.oasis text) := by
  unfold runOasisIfRequested AsksOasis
  split
  case isTrue hasks =>
    rcases hasks with ha | ha <;> simp [ha]
  case isFalse hasks =>
    rw [not_or,Bool.not_eq_false,Bool.not_eq_false] at hasks
    rw [Fails.mapError_iff,and_iff_right hasks]
    rfl

omit [CharData] in
lemma runOasis_ok : runOasisIfRequested h branchInput = .ok trace ↔ Traced h branchInput trace := by
  unfold runOasisIfRequested Traced AsksOasis
  split
  case isTrue hasks =>
    have hnot : ¬(((parameter branchInput "oasis_simulation_id").getD .null).truthy = true ∧
        ((parameter branchInput "run_oasis").getD (.bool false)).truthy = true) := by
      rintro ⟨h1,h2⟩
      rcases hasks with ha | ha
      · rw [h1] at ha
        cases ha
      · rw [h2] at ha
        cases ha
    rw [pure_eq_ok,and_iff_right hnot,eq_comm (a := Json.null)]
    exact ⟨.inr,fun ht => ht.resolve_left (fun hl => hnot hl.1)⟩
  case isFalse hasks =>
    rw [not_or,Bool.not_eq_false,Bool.not_eq_false] at hasks
    rw [ok_of_mapError]
    exact ⟨fun ht => .inl ⟨hasks,ht⟩,fun ht => (ht.resolve_right (fun hr => hr.1 hasks)).2⟩

lemma extraBody_fails : Fails p (extraBody branchInput) ↔ NoContext branchInput ∧ p .numCtx := by
  unfold extraBody NoContext
  split
  case h_1 hn => simp [hn]
  case h_2 hn => simp [hn]
  case h_3 raw hraw hn =>
    have hne : raw ≠ .null := hraw
    simp only [Fails.bind_iff,Fails.require_iff,Fails.failIf_iff,Fails.pure_iff,require_eq_ok,
      hn,Option.some.injEq,exists_eq_left',and_false,exists_false,or_false]
    cases hint : raw.toInt with
    | none => simp [hne]
    | some n => simp [hne,and_comm]

/-- What ends the requests: a failure of the endpoint, or a crash of the parser. -/
def Ending (p : ExecutionError → Prop) (h : Host) (branchInput : BranchInput) :
    Except RequestError Reply → Prop
  | .error (.valueError _) => False
  | .error (.apiStatus code message) => p (.endpoint
      ("LLM endpoint " ++ h.llmBaseUrl ++ " returned HTTP " ++ toString code ++ ": " ++ message)
      (decide (code ∈ retryableHttpStatuses)))
  | .error (.apiConnection text) => p (.endpoint
      ("LLM endpoint " ++ h.llmBaseUrl ++ " unreachable: " ++ text) true)
  | .ok r => ∃ e, parseModelResponse branchInput r.payload = .error e ∧
      (∀ i, e ≠ .invalid i) ∧ p (.parse e)

omit [CharData] in
lemma exists_first_iff {R S : ℕ → Prop} {n : ℕ} :
    (∃ k < n+1, S k ∧ ∀ j < k, R j) ↔
      S 0 ∨ (R 0 ∧ ∃ k < n, S (k+1) ∧ ∀ j < k, R (j+1)) := by
  constructor
  · rintro ⟨k,hk,hs,hr⟩
    cases k with
    | zero => exact .inl hs
    | succ k =>
      exact .inr ⟨hr 0 k.succ_pos,k,by omega,hs,fun j hj => hr (j+1) (by omega)⟩
  · rintro (hs | ⟨h0,k,hk,hs,hr⟩)
    · exact ⟨0,n.succ_pos,hs,fun j hj => absurd hj j.not_lt_zero⟩
    · refine ⟨k+1,by omega,hs,fun j hj => ?_⟩
      cases j with
      | zero => exact h0
      | succ j => exact hr j (by omega)

/-- The turns fail at the first answer that ends them, within their number. -/
lemma askModelFrom_fails (hp : ∀ text rejected, ¬p (.modelOutputRejected text rejected))
    (messages : Json) (seed : ℕ) (n turn : ℕ) (rejected : List RejectedAttempt) :
    Fails p (askModelFrom h branchInput messages seed extra n turn rejected) ↔
      ∃ k < n, Ending p h branchInput (h.chat (turn+k) messages seed extra) ∧
        ∀ j < k, Refused branchInput (h.chat (turn+j) messages seed extra) := by
  induction n generalizing turn rejected with
  | zero => simp [askModelFrom,hp]
  | succ n ih =>
    rw [exists_first_iff (S := fun k => Ending p h branchInput (h.chat (turn+k) messages seed extra))
      (R := fun j => Refused branchInput (h.chat (turn+j) messages seed extra))]
    have hnext : ∀ rejected', Fails p (askModelFrom h branchInput messages seed extra n (turn+1)
        rejected') ↔ ∃ k < n, Ending p h branchInput (h.chat (turn+(k+1)) messages seed extra) ∧
          ∀ j < k, Refused branchInput (h.chat (turn+(j+1)) messages seed extra) := by
      intro rejected'
      have hturn : ∀ k, turn + 1 + k = turn + (k+1) := Nat.add_right_comm turn 1
      simpa only [hturn] using ih (turn+1) rejected'
    rw [add_zero]
    unfold askModelFrom
    split
    · next text heq => simp only [heq,Ending,Refused,hnext,false_or,true_and]
    · next code message heq => simp only [heq,Ending,Refused,Fails.error_iff,false_and,or_false]
    · next text heq => simp only [heq,Ending,Refused,Fails.error_iff,false_and,or_false]
    · next r heq =>
      rw [heq]
      split
      · next parsed hparse => simp [Ending,Refused,hparse]
      · next e hparse => simp [Ending,Refused,hparse,hnext]
      · next e hne hparse =>
        have hne' : ∀ i, e ≠ .invalid i := fun i hi => hne i hi
        simp [Ending,Refused,hparse,hne']

/-- The parser raises something else than its own error exactly on the unreadable responses. -/
lemma unreadable_iff {payload : Json} :
    Fails (fun e => ∀ i, e ≠ .invalid i) (parseModelResponse branchInput payload) ↔
      Unreadable branchInput payload := by
  unfold Unreadable
  by_cases hlabels : payload.isObj = true ∧ branchInput.targetOutputKind = .categorical ∧
      labelCount branchInput.parameters = none
  · obtain ⟨hobj,hkind,hcount⟩ := hlabels
    have hraised : parseModelResponse branchInput payload = .error .noLength := by
      unfold parseModelResponse
      rw [failIf_of_not (by simp [hobj]),ok_bind,hkind]
      dsimp only
      rw [hcount]
      rfl
    rw [hraised]
    simp [hobj,hkind,hcount]
  · have hjudged := parseModelResponse_overflows hlabels
    rw [or_iff_left hlabels,← hjudged.overflow]
    constructor
    · rintro ⟨e,he,hother⟩
      cases e with
      | invalid i => exact absurd rfl (hother i)
      | overflow => exact he
      | noLength => exact absurd he hjudged.measured
    · intro he
      exact ⟨.overflow,he,fun i hi => (nomatch hi)⟩

lemma acquire_fails (hp : ∀ text rejected, ¬p (.modelOutputRejected text rejected)) :
    Fails p (acquire h branchInput) ↔
      (AsksOasis branchInput ∧ ∃ text, h.runOasis branchInput = .error text ∧ p (.oasis text)) ∨
        ∃ trace, Traced h branchInput trace ∧ ((NoContext branchInput ∧ p .numCtx) ∨
          ∃ extra, extraBody branchInput = .ok extra ∧ ∃ n < h.invalidOutputRetries+1,
            Ending p h branchInput (reply h branchInput trace extra (n+1)) ∧
              ∀ k < n, Refused branchInput (reply h branchInput trace extra (k+1))) := by
  have hturn : ∀ k, 1 + k = k + 1 := Nat.add_comm 1
  unfold acquire askModel reply
  simp only [Fails.bind_iff,Fails.pure_iff,and_false,exists_false,or_false,runOasis_fails,
    runOasis_ok,extraBody_fails,askModelFrom_fails hp,hturn]


end Asking

section Publishing
variable [CharData] {h : Host} {key : String} {branchInput : BranchInput} {trace extra : Json}
  {answer : ModelAnswer} {p : ExecutionError → Prop}

lemma llmVersionHash_of_extraBody (hx : extraBody branchInput = .ok extra) :
    ∃ versionHash, llmVersionHash h branchInput = .ok versionHash := by
  have hfinite : ((parameter branchInput "num_ctx").getD .null).finite = true := by
    unfold extraBody at hx
    split at hx
    case h_1 hn => rw [hn]; rfl
    case h_2 hn => rw [hn]; rfl
    case h_3 raw hraw hn =>
      rw [bind_eq_ok] at hx
      obtain ⟨n,hint,-⟩ := hx
      rw [require_eq_ok] at hint
      rw [hn]
      cases raw with
      | float f =>
        cases f with
        | finite neg mag => rfl
        | inf neg => cases hint
        | nan => cases hint
      | arr xs => cases hint
      | obj fs => cases hint
      | _ => rfl
  refine ⟨_,map_eq_ok.mpr ⟨_,bind_eq_ok.mpr ⟨(),failIf_of_not ?_,rfl⟩,rfl⟩⟩
  rw [Bool.not_eq_false]
  unfold llmVersionPreimage
  simp [Json.finite,Json.finiteFields,hfinite]

lemma buildOutput_exists (ha : acquire h branchInput = .ok (trace,extra,answer)) :
    ∃ output, buildOutput h branchInput answer.parsed none = .ok output := by
  have hx : extraBody branchInput = .ok extra := by
    simp only [acquire,bind_eq_ok,pure_eq_ok,Prod.mk.injEq] at ha
    obtain ⟨_,-,_,hx,_,-,-,rfl,-⟩ := ha
    exact hx
  obtain ⟨versionHash,hversion⟩ := llmVersionHash_of_extraBody (h := h) hx
  let output : BranchOutput := ⟨_,answerFields_valid h versionHash none (acquire_checked ha)⟩
  exact ⟨output,buildOutput_eq_ok.mpr ⟨versionHash,hversion,rfl⟩⟩

omit [CharData] in
lemma canonicalJsonBytes_fails {q : ResultError → Prop} {v : Json} :
    Fails q (canonicalJsonBytes v) ↔ v.finite = false ∧ q .notFinite := by
  simp [canonicalJsonBytes]

/-- The steps of a run after the model's answer, each reached when the ones before it succeeded. -/
lemma execute_fails : Fails p (execute h key branchInput none) ↔
    Fails p (acquire h branchInput) ∨
    (∃ taken, acquire h branchInput = .ok taken ∧ branchInput.modelDump.finite = false ∧
      p (.notCanonical .notFinite)) ∨
    (∃ output transcript, Built h key branchInput output transcript ∧
      Fails (fun text => p (.ipfs text)) (pinned h branchInput "-transcript.json" transcript)) ∨
    ∃ bound, Drafted h key branchInput bound ∧ (Fails p (pinReceipt h branchInput none bound) ∨
      ∃ receiptCid, pinReceipt h branchInput none bound = .ok receiptCid ∧
        (Fails (fun text => p (.ipfs text))
          (pinned h branchInput "-output.json" (named bound receiptCid).modelDump) ∨
        ∃ cid, pinned h branchInput "-output.json" (named bound receiptCid).modelDump = .ok cid ∧
          Fails (fun e => p (.notCanonical e))
            (branchOutputResultBytes (named bound receiptCid).toOutputFields))) := by
  unfold execute
  rw [Fails.bind_iff]
  apply or_congr_right
  constructor
  · rintro ⟨⟨trace,extra,answer⟩,ha,hfails⟩
    obtain ⟨output,houtput⟩ := buildOutput_exists ha
    simp only [publish,houtput,Fails.bind_iff,Fails.mapError_iff,Fails.ok_iff,
      Fails.pure_iff,ok_of_mapError,Except.ok.injEq,exists_eq_left',false_or,and_false,exists_false,
      or_false,canonicalJsonBytes_fails,pinTranscript] at hfails
    rcases hfails with hinput | ⟨text,htext,hpin | ⟨cid,hcid,hrest⟩⟩
    · exact .inl ⟨_,ha,hinput⟩
    · exact .inr (.inl ⟨output,_,⟨trace,extra,answer,text,ha,houtput,htext,rfl⟩,hpin⟩)
    · exact .inr (.inr ⟨_,⟨output,_,cid,⟨trace,extra,answer,text,ha,houtput,htext,rfl⟩,hcid,rfl⟩,
        hrest⟩)
  · rintro (⟨⟨trace,extra,answer⟩,ha,hinput⟩ |
      ⟨output,_,⟨trace,extra,answer,text,ha,houtput,htext,rfl⟩,hpin⟩ |
      ⟨_,⟨output,_,cid,⟨trace,extra,answer,text,ha,houtput,htext,rfl⟩,hcid,rfl⟩,hrest⟩)
    · obtain ⟨output,houtput⟩ := buildOutput_exists ha
      refine ⟨_,ha,?_⟩
      simp only [publish,houtput,Fails.bind_iff,Fails.mapError_iff,canonicalJsonBytes_fails]
      exact .inr ⟨output,rfl,.inl hinput⟩
    · refine ⟨_,ha,?_⟩
      simp only [publish,houtput,Fails.bind_iff,Fails.mapError_iff,ok_of_mapError,pinTranscript]
      exact .inr ⟨output,rfl,.inr ⟨text,htext,.inl hpin⟩⟩
    · refine ⟨_,ha,?_⟩
      simp only [publish,houtput,Fails.bind_iff,Fails.mapError_iff,Fails.pure_iff,ok_of_mapError,
        and_false,exists_false,or_false,pinTranscript]
      exact .inr ⟨output,rfl,.inr ⟨text,htext,.inr ⟨cid,hcid,hrest⟩⟩⟩

/-- The daemon has no handler for it. -/
def Unhandled (e : ExecutionError) : Prop := caught e = none

/-- The daemon tries again after it. -/
def Passing (e : ExecutionError) : Prop := ∃ text, e = .endpoint text true ∨ e = .ipfs text

lemma proveBranchReceipt_of_receipt {bound : BranchOutput} {bundle : Json}
    (hr : Receipt h branchInput bound bundle) : proveBranchReceipt h branchInput bound =
      (pinned h branchInput "-zkvm-receipt.json" bundle).mapError .ipfs := by
  obtain ⟨hprove,journal,hash,hjournal,hhash,hexpected⟩ := hr
  unfold proveBranchReceipt
  rw [hprove]
  dsimp only [Except.mapError]
  rw [ok_bind,hjournal]
  dsimp only
  rw [ok_bind,hhash]
  dsimp only
  rw [ok_bind,hexpected]
  dsimp only
  rw [ok_bind,failIf_of_not (not_not.mpr rfl),ok_bind]
  rfl

lemma proveBranchReceipt_of_none {bound : BranchOutput}
    (hnone : ∀ bundle, ¬Receipt h branchInput bound bundle) :
    Fails (fun e => Unhandled e ∧ ¬Passing e) (proveBranchReceipt h branchInput bound) := by
  unfold proveBranchReceipt
  cases hprove : h.prove branchInput.modelDump bound.modelDump with
  | error text => simp [Except.mapError,Unhandled,caught,Passing]
  | ok bundle =>
    cases hjournal : bundleJournal bundle with
    | error e => simp [Except.mapError,hjournal,Unhandled,caught,Passing]
    | ok journal =>
      cases hhash : branchResultHash bound.toOutputFields with
      | error e => simp [Except.mapError,hjournal,Unhandled,caught,Passing]
      | ok hash =>
        cases hexpected : expectedJournal branchInput.modelDump bound.modelDump hash with
        | error e => simp [Except.mapError,hjournal,hexpected,Unhandled,caught,Passing]
        | ok expected =>
          have hdiffers : journal ≠ expected := by
            rintro rfl
            exact hnone bundle ⟨hprove,journal,hash,hjournal,hhash,hexpected⟩
          simp [Except.mapError,hjournal,hexpected,hdiffers,Unhandled,caught,Passing]

/-- What the run publishes is the document of an accepted answer. -/
lemma final_finished {bound output : BranchOutput} (hd : Drafted h key branchInput bound)
    (hf : Final h branchInput bound output) :
    ∃ versionHash p cid receiptCid, ParsedResponse.Checked branchInput p ∧
      output.toOutputFields = finished h branchInput versionHash none p cid receiptCid := by
  obtain ⟨drafted,transcript,cid,⟨trace,extra,answer,text,ha,hbuild,-,-⟩,-,rfl⟩ := hd
  obtain ⟨versionHash,-,hdrafted⟩ := buildOutput_eq_ok.mp hbuild
  have hbound : (drafted.copy cid (h.clock 2)).toOutputFields =
      finished h branchInput versionHash none answer.parsed cid none := by
    simp only [BranchOutput.copy,finished,hdrafted]
    cases answer.parsed <;> rfl
  rcases hf with ⟨-,rfl⟩ | ⟨-,bundle,receiptCid,-,-,rfl⟩
  · exact ⟨versionHash,answer.parsed,cid,none,acquire_checked ha,hbound⟩
  · refine ⟨versionHash,answer.parsed,cid,some receiptCid,acquire_checked ha,?_⟩
    change {(drafted.copy cid (h.clock 2)).toOutputFields with zkvmReceiptCid := some receiptCid} = _
    rw [hbound]
    rfl

/-- A branch index that is no `u32` is all that keeps a published document from being encoded. -/
lemma resultBytes_fails {q : ResultError → Prop} {bound output : BranchOutput}
    (hd : Drafted h key branchInput bound) (hf : Final h branchInput bound output)
    (hq : ∀ e, q e) :
    Fails q (branchOutputResultBytes output.toOutputFields) ↔ 2^32 ≤ branchInput.branchIndex := by
  have hchecked := output.valid.checked
  obtain ⟨versionHash,p,cid,receiptCid,hp,hdoc⟩ := final_finished hd hf
  constructor
  · rintro ⟨e,he,-⟩
    by_contra hwide
    obtain ⟨bytes,hbytes⟩ := finished_bytes h versionHash none hp (not_le.mp hwide) cid receiptCid
    rw [hdoc,hbytes] at he
    cases he
  · intro hwide
    cases hbytes : branchOutputResultBytes output.toOutputFields with
    | error e => exact ⟨e,rfl,hq e⟩
    | ok bytes =>
      obtain ⟨hi,-⟩ := (resultBytes_eq_ok hchecked).mp hbytes
      have hindex : output.branchIndex = branchInput.branchIndex := by
        rw [hdoc]
        cases p <;> rfl
      rw [hindex] at hi
      exact absurd hi (not_lt.mpr hwide)

lemma pinReceipt_final {bound output : BranchOutput} :
    (∃ receiptCid, pinReceipt h branchInput none bound = .ok receiptCid ∧
      named bound receiptCid = output) ↔ Final h branchInput bound output := by
  unfold pinReceipt Final
  cases proves h none with
  | false =>
    simp only [Bool.false_eq_true,if_false,pure_eq_ok,exists_eq_left',named]
    simp
  | true =>
    simp only [if_true,map_eq_ok,Bool.true_eq_false,false_and,false_or,true_and]
    constructor
    · rintro ⟨_,⟨cid,hcid,rfl⟩,rfl⟩
      by_cases hreceipt : ∃ bundle, Receipt h branchInput bound bundle
      · obtain ⟨bundle,hbundle⟩ := hreceipt
        rw [proveBranchReceipt_of_receipt hbundle,ok_of_mapError] at hcid
        exact ⟨bundle,cid,hbundle,hcid,rfl⟩
      · obtain ⟨e,he,-⟩ := proveBranchReceipt_of_none (not_exists.mp hreceipt)
        rw [he] at hcid
        cases hcid
    · rintro ⟨bundle,cid,hbundle,hcid,rfl⟩
      refine ⟨some cid,⟨cid,?_,rfl⟩,rfl⟩
      rw [proveBranchReceipt_of_receipt hbundle,ok_of_mapError]
      exact hcid

lemma pinReceipt_fails {bound : BranchOutput} : Fails p (pinReceipt h branchInput none bound) ↔
    proves h none = true ∧ Fails p (proveBranchReceipt h branchInput bound) := by
  unfold pinReceipt
  split
  case isTrue hproves => rw [Fails.map_iff,and_iff_right hproves]
  case isFalse hproves => simp [hproves]

/-- An execution raises an exception without a handler exactly for one of these causes. -/
theorem breaks_iff :
    Fails Unhandled (execute h key branchInput none) ↔ Breaks h key branchInput := by
  have hrejected : ∀ text rejected, ¬Unhandled (.modelOutputRejected text rejected) :=
    fun _ _ he => nomatch he
  have hipfs : ∀ text, ¬Unhandled (.ipfs text) := fun _ he => nomatch he
  rw [execute_fails,acquire_fails hrejected]
  constructor
  · rintro ((⟨hasks,text,htext,-⟩ | ⟨trace,htrace,⟨hnone,-⟩ | ⟨extra,hextra,n,hn,hend,hrefused⟩⟩) |
      ⟨taken,htaken,hinfinite,-⟩ | ⟨output,transcript,hbuilt,hpin⟩ |
      ⟨bound,hdrafted,hreceipt | ⟨receiptCid,hpinned,hpin | ⟨cid,hcid,hbytes⟩⟩⟩)
    · exact .oasis text hasks htext
    · exact .context trace htrace hnone
    · cases hreply : reply h branchInput trace extra (n+1) with
      | error e =>
        rw [hreply] at hend
        cases e with
        | valueError text => exact hend.elim
        | apiStatus code message => cases hend
        | apiConnection text => cases hend
      | ok r =>
        rw [hreply] at hend
        obtain ⟨e,he,hother,-⟩ := hend
        exact .answer r ⟨trace,extra,htrace,hextra,n,hn,hreply,hrefused⟩
          (unreadable_iff.mp ⟨e,he,hother⟩)
    · exact .input taken htaken hinfinite
    · exact absurd hpin (Fails.of_false hipfs)
    · rw [pinReceipt_fails] at hreceipt
      obtain ⟨hproves,hprove⟩ := hreceipt
      refine .receipt bound hdrafted hproves (fun bundle hbundle => ?_)
      rw [proveBranchReceipt_of_receipt hbundle,Fails.mapError_iff] at hprove
      exact Fails.of_false hipfs hprove
    · exact absurd hpin (Fails.of_false hipfs)
    · have hfinal := pinReceipt_final.mp ⟨receiptCid,hpinned,rfl⟩
      exact .index bound _ cid hdrafted hfinal hcid
        ((resultBytes_fails hdrafted hfinal (fun _ => rfl)).mp hbytes)
  · intro hbreaks
    cases hbreaks with
    | oasis text hasks hfailed => exact .inl (.inl ⟨hasks,text,hfailed,rfl⟩)
    | context trace htraced hnone => exact .inl (.inr ⟨trace,htraced,.inl ⟨hnone,rfl⟩⟩)
    | answer r hanswers hunreadable =>
      obtain ⟨trace,extra,htrace,hextra,n,hn,hreply,hrefused⟩ := hanswers
      obtain ⟨e,he,hother⟩ := unreadable_iff.mpr hunreadable
      refine .inl (.inr ⟨trace,htrace,.inr ⟨extra,hextra,n,hn,?_,hrefused⟩⟩)
      rw [hreply]
      exact ⟨e,he,hother,rfl⟩
    | input taken hacquired hinfinite => exact .inr (.inl ⟨taken,hacquired,hinfinite,rfl⟩)
    | receipt bound hdrafted hproves hunproved =>
      obtain ⟨e,he,hun,-⟩ := proveBranchReceipt_of_none hunproved
      exact .inr (.inr (.inr ⟨bound,hdrafted,.inl (pinReceipt_fails.mpr ⟨hproves,e,he,hun⟩)⟩))
    | index bound output cid hdrafted hfinal hpublished hwide =>
      obtain ⟨receiptCid,hpinned,rfl⟩ := pinReceipt_final.mpr hfinal
      exact .inr (.inr (.inr ⟨bound,hdrafted,.inr ⟨receiptCid,hpinned,.inr ⟨cid,hpublished,
        (resultBytes_fails hdrafted hfinal (fun _ => rfl)).mpr hwide⟩⟩⟩))

/-- An execution fails in passing exactly for one of these causes. -/
theorem passes_iff :
    Fails Passing (execute h key branchInput none) ↔ Passes h key branchInput := by
  have hrejected : ∀ text rejected, ¬Passing (.modelOutputRejected text rejected) := by
    simp [Passing]
  have hcanonical : ∀ e, ¬Passing (.notCanonical e) := by simp [Passing]
  have hipfs : ∀ text, Passing (.ipfs text) := fun text => ⟨text,.inr rfl⟩
  rw [execute_fails,acquire_fails hrejected]
  constructor
  · rintro ((⟨-,text,-,hpass⟩ | ⟨trace,htrace,⟨-,hpass⟩ | ⟨extra,hextra,n,hn,hend,hrefused⟩⟩) |
      ⟨taken,-,-,hpass⟩ | ⟨output,transcript,hbuilt,text,hpin,-⟩ |
      ⟨bound,hdrafted,hreceipt | ⟨receiptCid,hpinned,⟨text,hpin,-⟩ | ⟨cid,hcid,hbytes⟩⟩⟩)
    · simp [Passing] at hpass
    · simp [Passing] at hpass
    · cases hreply : reply h branchInput trace extra (n+1) with
      | error e =>
        rw [hreply] at hend
        have hanswers : Answers h branchInput (.error e) :=
          ⟨trace,extra,htrace,hextra,n,hn,hreply,hrefused⟩
        cases e with
        | valueError text => exact hend.elim
        | apiStatus code message =>
          refine .status code message ?_ hanswers
          simpa [Ending,Passing] using hend
        | apiConnection text => exact .unreachable text hanswers
      | ok r =>
        rw [hreply] at hend
        obtain ⟨e,-,-,hpass⟩ := hend
        simp [Passing] at hpass
    · exact absurd hpass (hcanonical _)
    · exact .transcript output transcript text hbuilt hpin
    · rw [pinReceipt_fails] at hreceipt
      obtain ⟨hproves,hprove⟩ := hreceipt
      by_cases hproved : ∃ bundle, Receipt h branchInput bound bundle
      · obtain ⟨bundle,hbundle⟩ := hproved
        rw [proveBranchReceipt_of_receipt hbundle,Fails.mapError_iff] at hprove
        obtain ⟨text,htext,-⟩ := hprove
        exact .receipt bound bundle text hdrafted hproves hbundle htext
      · obtain ⟨e,he,-,hnot⟩ := proveBranchReceipt_of_none (not_exists.mp hproved)
        rw [he,Fails.error_iff] at hprove
        exact absurd hprove hnot
    · exact .output bound _ text hdrafted (pinReceipt_final.mp ⟨receiptCid,hpinned,rfl⟩) hpin
    · exact absurd hbytes (Fails.of_false hcanonical)
  · intro hpasses
    cases hpasses with
    | unreachable text hanswers =>
      obtain ⟨trace,extra,htrace,hextra,n,hn,hreply,hrefused⟩ := hanswers
      refine .inl (.inr ⟨trace,htrace,.inr ⟨extra,hextra,n,hn,?_,hrefused⟩⟩)
      rw [hreply]
      exact ⟨_,.inl rfl⟩
    | status code message hretried hanswers =>
      obtain ⟨trace,extra,htrace,hextra,n,hn,hreply,hrefused⟩ := hanswers
      refine .inl (.inr ⟨trace,htrace,.inr ⟨extra,hextra,n,hn,?_,hrefused⟩⟩)
      rw [hreply]
      simp [Ending,Passing,hretried]
    | transcript output transcript text hbuilt hrefused =>
      exact .inr (.inr (.inl ⟨output,transcript,hbuilt,text,hrefused,hipfs text⟩))
    | receipt bound bundle text hdrafted hproves hreceipt hrefused =>
      refine .inr (.inr (.inr ⟨bound,hdrafted,.inl (pinReceipt_fails.mpr ⟨hproves,?_⟩)⟩))
      rw [proveBranchReceipt_of_receipt hreceipt,Fails.mapError_iff]
      exact ⟨text,hrefused,hipfs text⟩
    | output bound output text hdrafted hfinal hrefused =>
      obtain ⟨receiptCid,hpinned,rfl⟩ := pinReceipt_final.mpr hfinal
      exact .inr (.inr (.inr ⟨bound,hdrafted,.inr ⟨receiptCid,hpinned,.inl
        ⟨text,hrefused,hipfs text⟩⟩⟩))

end Publishing

end Kswarm.Worker.Branch
