import Kswarm.Lib.JsonLength
import Kswarm.Proving.Accepted
import Kswarm.Proving.InputStore

/-! Proving through the service (`bonsol_http_hook.py`, `bonsol-hook-server.py`). The command the
runner starts hands the payload on to the service, the service starts the hook on it, and what the
hook prints comes back the same way. The runner cannot tell it from a hook of its own. -/
namespace Kswarm.Proving
open Worker Cli Settlement

section Text
open Json.Style

/-- `print(json.dumps(value))`. -/
def line (v : Json) : String := String.ofList (Json.spacedAscii.write v ++ ['\n'])

/-- `json.dumps(payload, sort_keys=True, separators=(",", ":"))`. -/
def payloadText (payload : Json) : String :=
  String.ofList (Json.compactAscii.write payload.sortKeys)

lemma loads_line {fs : List (String × Json)} (h : (Json.obj fs).Plain) :
    Json.loads (line (.obj fs)).toList = some (.obj fs) := by
  rw [line,String.toList_ofList]
  exact loads_write_blank fs h (by simp [Json.isWs])

lemma loads_payloadText {payload : Json} (h : payload.Plain) :
    Json.loads (payloadText payload).toList = some payload.sortKeys := by
  rw [payloadText,String.toList_ofList]
  exact loads_write _ h.sortKeys

end Text

/-- What comes back from a request: nothing, or a status and a body. -/
abbrev Exchange := Option (ℕ × Bytes)

/-- `_reply`, as the client receives it. -/
def Reply.exchange : Reply → Exchange
  | .json status payload => some (status,utf8 (Json.spacedAscii.write payload))
  | .bytes body => some (200,body)
  | .dropped => none

/-- A command that prints a problem and exits with 1. -/
def refused (problem : String) : HookRun := some (1,"",problem ++ "\n")

def serviceText (url : String) : String := "proving service " ++ url

/-- `main` of the client, for the payload of its last argument. What a library says of a failed
exchange is left out. -/
def httpHook [CharData] (url payload : String) (exchange : Bytes → Exchange) : HookRun :=
  if url.isEmpty then
    refused "KSWARM_BONSOL_HOOK_URL is unset: this hook has no proving service to call"
  else match exchange (utf8 payload.toList) with
  | none => refused (serviceText url ++ " did not answer")
  | some (status,body) =>
    if status < 200 ∨ 300 ≤ status then
      refused (serviceText url ++ " returned HTTP " ++ String.ofList (decimal status) ++ ": " ++
        String.ofList ((decodeReplacing body).take 1000))
    else match decodeUtf8 body with
    | none => refused (serviceText url ++ " did not answer")
    | some text => match Json.loads text with
      | none => refused (serviceText url ++ " did not return JSON: " ++
          String.ofList (Json.reprChars (text.take 500)))
      | some (.obj binding) => some (0,line (.obj binding),"")
      | some value => refused (serviceText url ++ " returned " ++ typeName value ++
          ", not an object")

/-- The client exits with 0 only on an answer that is not an error. -/
lemma httpHook_answered [CharData] {url payload stdout stderr : String} {exchange : Bytes → Exchange}
    (h : httpHook url payload exchange = some (0,stdout,stderr)) :
    url.isEmpty = false ∧ ∃ status body, exchange (utf8 payload.toList) = some (status,body) ∧
      status < 300 ∧ ∃ binding, stdout = line (.obj binding) ∧
        ∃ chars, decodeUtf8 body = some chars ∧ Json.loads chars = some (.obj binding) := by
  unfold httpHook refused at h
  split_ifs at h with hurl
  · cases h
  · split at h
    · cases h
    · rename_i status body hexchange
      split_ifs at h with hstatus
      · cases h
      · rw [not_or,not_lt,not_le] at hstatus
        split at h
        · cases h
        · rename_i chars hdecode
          split at h
          · cases h
          · rename_i binding hload
            simp only [Option.some.injEq,Prod.mk.injEq,true_and] at h
            exact ⟨by simpa using hurl,status,body,hexchange,hstatus.2,binding,h.1.symm,chars,
              hdecode,hload⟩
          · cases h

/-- An object that the service answers with is printed again. -/
lemma httpHook_relays [CharData] {url payload : String} {exchange : Bytes → Exchange}
    {fs : List (String × Json)} (hurl : url.isEmpty = false) (hplain : (Json.obj fs).Plain)
    (h : exchange (utf8 payload.toList) = (Reply.json 200 (.obj fs)).exchange) :
    httpHook url payload exchange = some (0,line (.obj fs),"") := by
  have hload := Json.Style.loads_write (s := Json.spacedAscii) _ hplain
  simp only [httpHook,hurl,h,Reply.exchange,decodeUtf8_utf8,hload]
  rfl

lemma problem_status {code status : ℕ} {text : String} {body : Bytes}
    (h : (problem code text).exchange = some (status,body)) : status = code := by
  simp only [problem,Reply.exchange,Option.some.injEq,Prod.mk.injEq] at h
  exact h.1.symm

lemma plain_hookPayload {run : RunManifest} {job : Job} {binding : AggregateBinding}
    {resultBytes : Bytes} {report : Json} (h : report.Plain) :
    (hookPayload run job binding resultBytes report).Plain :=
  ⟨by simp,trivial,trivial,trivial,trivial,trivial,trivial,trivial,trivial,trivial,h,trivial⟩

/-- Sorting the payload keeps what it spells. -/
lemma Spells.sortKeys {payload : Json} {p : Payload} (hplain : payload.Plain)
    (h : Spells payload p) : Spells payload.sortKeys p := by
  have hget : ∀ {field : String} {value : String}, payload.get field = some (.str value) →
      payload.sortKeys.get field = some (.str value) := by
    intro field value hvalue
    rw [Json.get_sortKeys hplain,hvalue]
    rfl
  exact ⟨hget h.aggregateJob,hget h.imageId,hget h.artifact,hget h.inputDigest,
    hget h.committedOutputs,hget h.outputDigest,hget h.journalHash⟩

/-- The reply to a stored input is not a binding. -/
lemma parseHookOutput_stored (url digest : String) :
    ∀ b, parseHookOutput (line (.obj [("url",.str url),("sha256",.str digest)])) ≠ .ok b := by
  intro b h
  have hplain : (Json.obj [("url",.str url),("sha256",.str digest)]).Plain :=
    ⟨by simp,trivial,trivial,trivial⟩
  have hload := loads_line hplain
  rw [parseHookOutput,hload] at h
  cases h

section Runs
variable [CharData]

/-- A posted body, with the hook the service starts on it. -/
def proveRequest (path : String) (hook : String → HookRun) (raw : Bytes) : Request :=
  .post path raw.length raw (hook (String.ofList (decodeReplacing raw)))

/-- `run_bonsol_hook`, for the words of the command and how it ends on them. -/
def runBonsolHook (words : List String) (payload : Json) (ended : List String → HookRun) :
    Except BonsolHookError BonsolBinding := do
  failIf (words = [])
    (.failed "KSWARM_BONSOL_AGGREGATE_COMMAND is set but empty after shell splitting")
  match ended (words ++ [payloadText payload]) with
  | none => .error (.failed "hook did not run")
  | some (code,stdout,stderr) => do
    failIf (code ≠ 0) (.failed ("hook exited " ++ String.ofList (decimalInt code) ++ ": " ++
      String.ofList ((strip stderr.toList).take 500)))
    parseHookOutput stdout

/-- The hook of this host, as a command. -/
def localHook (hook : String → HookRun) (argv : List String) : HookRun :=
  hook (argv.getLastD "")

/-- The client, with a service that has these inputs. -/
def remoteHook (s : Server) (inputs : Inputs) (url path : String) (hook : String → HookRun)
    (argv : List String) : HookRun :=
  httpHook url (argv.getLastD "")
    (fun raw => (handle s inputs (proveRequest path hook raw)).1.exchange)

/-- How the hook can end on the text of a payload. -/
inductive Ended (e : Environment) (find : FindProgramAddress) (turns : ℕ) (text : String) :
    HookRun → Prop
  | notJson (stderr : String) (h : Json.loads text.toList = none) :
      Ended e find turns text (some (1,"",stderr))
  | printed {payload out : Json} {log : Log} (h : Json.loads text.toList = some payload)
      (hreach : Reaches (transcript Op Ans) [] (main e find turns payload) log (.done out))
      (stderr : String) : Ended e find turns text (some (0,line out,stderr))
  | raised {payload : Json} {log : Log} {f : Failure} (stderr : String)
      (h : Json.loads text.toList = some payload)
      (hreach : Reaches (transcript Op Ans) [] (main e find turns payload) log (.raise f)) :
      Ended e find turns text (some (1,"",stderr))
  /-- The hook took too long. -/
  | killed : Ended e find turns text none

variable {e : Environment} {find : FindProgramAddress} {turns : ℕ} {text : String}

/-- A hook that exits with 0 has printed an object on one line. -/
lemma Ended.line_of_done {stdout stderr : String}
    (h : Ended e find turns text (some (0,stdout,stderr))) :
    ∃ payload out log, Json.loads text.toList = some payload ∧
      Reaches (transcript Op Ans) [] (main e find turns payload) log (.done out) ∧
      stdout = line out ∧ ∃ fs, out = .obj fs ∧ out.Plain := by
  cases h with
  | printed h hreach stderr =>
    obtain ⟨p,-,-,r,-,rfl,-⟩ := (Safe.reaches (main_holds e find turns _) hreach).outcome _ rfl
    exact ⟨_,_,_,h,hreach,rfl,_,rfl,plain_printed p r.executionId⟩

/-- The binding comes from a hook that exited with 0. -/
lemma runBonsolHook_eq_ok {words : List String} {payload : Json} {ended : List String → HookRun}
    {b : BonsolBinding} : runBonsolHook words payload ended = .ok b ↔
      words ≠ [] ∧ ∃ stdout stderr,
        ended (words ++ [payloadText payload]) = some (0,stdout,stderr) ∧
        parseHookOutput stdout = .ok b := by
  simp only [runBonsolHook,bind_eq_ok,failIf_eq_ok,exists_const]
  cases hended : ended (words ++ [payloadText payload]) with
  | none => simp
  | some run =>
    obtain ⟨code,stdout,stderr⟩ := run
    simp only [bind_eq_ok,failIf_eq_ok,exists_const,not_not,Option.some.injEq,Prod.mk.injEq]
    constructor
    · rintro ⟨hwords,rfl,hparse⟩
      exact ⟨hwords,stdout,stderr,⟨rfl,rfl,rfl⟩,hparse⟩
    · rintro ⟨hwords,_,_,⟨rfl,rfl,rfl⟩,hparse⟩
      exact ⟨hwords,rfl,hparse⟩

/-- The paths the service proves on. -/
def Proves (path : String) : Prop := rstripSlash path = "" ∨ rstripSlash path = "/prove"

/-- A hook that printed an object is the only one answered without an error. -/
lemma runHook_answered {raw body : Bytes} {hookRun : HookRun} {status : ℕ}
    (h : (runHook raw hookRun).exchange = some (status,body)) (hstatus : status < 300) :
    ∃ stdout stderr binding, hookRun = some (0,stdout,stderr) ∧
      Json.loads stdout.toList = some (.obj binding) := by
  unfold runHook at h
  split at h
  · have := problem_status h
    omega
  · split at h
    · cases h
    · rename_i code stdout stderr
      by_cases hcode : code = 0
      · subst hcode
        rw [if_neg (not_not.mpr rfl)] at h
        split at h
        · have := problem_status h
          omega
        · rename_i binding hload
          exact ⟨stdout,stderr,binding,rfl,hload⟩
        · cases h
      · rw [if_pos hcode] at h
        have := problem_status h
        omega
  · cases h

/-- The service answers without an error when it stores an input, or when the hook prints an
object. -/
lemma prove_answered {s : Server} {inputs : Inputs} {path : String} {hook : String → HookRun}
    {raw body : Bytes} {status : ℕ}
    (h : (handle s inputs (proveRequest path hook raw)).1.exchange = some (status,body))
    (hstatus : status < 300) :
    raw.length ≤ maxRequestBytes ∧
      ((∃ digest, body = utf8 (Json.spacedAscii.write (.obj [("url",.str (inputUrl s digest)),
          ("sha256",.str digest)]))) ∨
        Proves path ∧ ∃ stdout stderr binding,
          hook (String.ofList (decodeReplacing raw)) = some (0,stdout,stderr) ∧
          Json.loads stdout.toList = some (.obj binding)) := by
  simp only [proveRequest,handle,doPost] at h
  split_ifs at h with hroute hlength hinput
  · have := problem_status h
    omega
  · have := problem_status h
    omega
  · simp only [Reply.exchange,Option.some.injEq,Prod.mk.injEq] at h
    exact ⟨by omega,.inl ⟨_,h.2.symm⟩⟩
  · refine ⟨by omega,.inr ⟨?_,runHook_answered h hstatus⟩⟩
    by_contra hno
    rw [Proves,not_or] at hno
    exact hroute ⟨hno.1,hno.2,hinput⟩

/-- The service hands on what the hook printed. -/
lemma prove_relays {s : Server} {inputs : Inputs} {path stdout stderr : String}
    {hook : String → HookRun} {raw : Bytes} {payload binding : List (String × Json)}
    (hpath : Proves path) (hlength : raw.length ≤ maxRequestBytes)
    (hload : Json.loads (decodeReplacing raw) = some (.obj payload))
    (hhook : hook (String.ofList (decodeReplacing raw)) = some (0,stdout,stderr))
    (hout : Json.loads stdout.toList = some (.obj binding)) :
    (handle s inputs (proveRequest path hook raw)).1 = .json 200 (.obj binding) := by
  have hroute : ¬(rstripSlash path ≠ "" ∧ rstripSlash path ≠ "/prove" ∧
      rstripSlash path ≠ "/input") := by
    rcases hpath with h | h <;> simp [h]
  have hinput : rstripSlash path ≠ "/input" := by
    rcases hpath with h | h <;> simp [h]
  have hempty : raw ≠ [] := by
    rintro rfl
    cases hload
  have hpositive := List.length_pos_iff.mpr hempty
  simp only [proveRequest,handle,doPost]
  rw [if_neg hroute,if_neg (by omega),if_neg hinput]
  simp only [runHook,hload,hhook,ne_eq,not_true_eq_false,if_false,hout]

/-- Through the service the runner gets what the hook printed. -/
lemma remote_parses {s : Server} {inputs : Inputs} {url path : String} {words : List String}
    {hook : String → HookRun} {b : BonsolBinding} {payload : List (String × Json)}
    (hload : Json.loads text.toList = some (.obj payload))
    (hend : Ended e find turns text (hook text)) :
    (∃ stdout stderr, remoteHook s inputs url path hook (words ++ [text]) =
        some (0,stdout,stderr) ∧ parseHookOutput stdout = .ok b) ↔
      url.isEmpty = false ∧ Proves path ∧ (utf8 text.toList).length ≤ maxRequestBytes ∧
        ∃ stdout stderr, hook text = some (0,stdout,stderr) ∧ parseHookOutput stdout = .ok b := by
  have hlast : (words ++ [text]).getLastD "" = text := by simp
  have hsent : decodeReplacing (utf8 text.toList) = text.toList := decodeReplacing_utf8 _
  rw [remoteHook,hlast]
  have hrelays : url.isEmpty = false → Proves path → (utf8 text.toList).length ≤ maxRequestBytes →
      ∀ stdout stderr, hook text = some (0,stdout,stderr) →
      httpHook url text (fun raw => (handle s inputs (proveRequest path hook raw)).1.exchange) =
        some (0,stdout,"") := by
    intro hurl hpath hlength stdout stderr hended
    rw [hended] at hend
    obtain ⟨-,out,-,-,-,rfl,fs,rfl,hplain⟩ := hend.line_of_done
    refine httpHook_relays hurl hplain ?_
    have hread : Json.loads (decodeReplacing (utf8 text.toList)) = some (.obj payload) := by
      rw [hsent,hload]
    have hrun : hook (String.ofList (decodeReplacing (utf8 text.toList))) =
        some (0,line (.obj fs),stderr) := by
      rw [hsent,String.ofList_toList,hended]
    rw [prove_relays hpath hlength hread hrun (loads_line hplain)]
  constructor
  · rintro ⟨stdout,stderr,hclient,hparse⟩
    obtain ⟨hurl,status,body,hexchange,hstatus,fs,rfl,chars,hdecode,hchars⟩ :=
      httpHook_answered hclient
    obtain ⟨hlength,hstored | ⟨hpath,printed,errors,-,hended,-⟩⟩ :=
      prove_answered hexchange hstatus
    · obtain ⟨digest,rfl⟩ := hstored
      rw [decodeUtf8_utf8] at hdecode
      obtain rfl := Option.some.inj hdecode
      rw [Json.Style.loads_write _ (by exact ⟨by simp,trivial,trivial,trivial⟩)] at hchars
      obtain rfl := Json.obj.inj (Option.some.inj hchars)
      exact absurd hparse (parseHookOutput_stored _ _ b)
    · rw [hsent,String.ofList_toList] at hended
      have hsame := (hrelays hurl hpath hlength _ _ hended).symm.trans hclient
      obtain ⟨-,hprinted,-⟩ : (0 : ℤ) = 0 ∧ printed = line (.obj fs) ∧ "" = stderr := by
        simpa using hsame
      exact ⟨hurl,hpath,hlength,printed,errors,hended,hprinted ▸ hparse⟩
  · rintro ⟨hurl,hpath,hlength,stdout,stderr,hended,hparse⟩
    exact ⟨stdout,"",hrelays hurl hpath hlength _ _ hended,hparse⟩

variable (e find turns) in
/-- A hook that is run through the service is worth as much as one that is run by the runner. The
runner takes the same binding from it, as long as the payload is not too long for the service; and
that binding is of an execution of the job's own claim. -/
theorem remote_hook_agrees (s : Server) (inputs : Inputs) (url path : String)
    (words : List String) (hook : String → HookRun) (host : Runner) (run : RunManifest) (job : Job)
    (binding : AggregateBinding) (resultBytes : Bytes) (report : Json) (b : BonsolBinding)
    (hhook : ∀ text, Ended e find turns text (hook text)) (hreport : report.Plain)
    (hbind : bindCommittedArtifact host job = .ok binding)
    (hpacked : binding.journal.committedOutputs = some resultBytes) :
    (runBonsolHook words (hookPayload run job binding resultBytes report)
        (remoteHook s inputs url path hook) = .ok b ↔
      url.isEmpty = false ∧ Proves path ∧
        (utf8 (payloadText (hookPayload run job binding resultBytes report)).toList).length ≤
          maxRequestBytes ∧
        runBonsolHook words (hookPayload run job binding resultBytes report) (localHook hook) =
          .ok b) ∧
    (runBonsolHook words (hookPayload run job binding resultBytes report) (localHook hook) =
        .ok b →
      checkBindingAgainstJob b job binding.journal resultBytes = .ok () ∧
      ∃ log p r, Backed e find p r log ∧ r.executionId = b.executionId) := by
  have hplain : (hookPayload run job binding resultBytes report).Plain :=
    plain_hookPayload hreport
  generalize hpayload : hookPayload run job binding resultBytes report = payload at hplain ⊢
  have hspells : Spells payload.sortKeys (runnerPayload run job binding resultBytes) := by
    rw [← hpayload] at hplain ⊢
    exact (spells_hookPayload hbind hpacked).sortKeys hplain
  have htext := loads_payloadText hplain
  have hlast : (words ++ [payloadText payload]).getLastD "" = payloadText payload := by simp
  have hobj : ∃ fs, payload.sortKeys = .obj fs := by
    rw [← hpayload]
    exact ⟨_,rfl⟩
  simp only [runBonsolHook_eq_ok,localHook,hlast]
  refine ⟨?_,?_⟩
  · obtain ⟨fs,hfs⟩ := hobj
    rw [hfs] at htext
    rw [remote_parses htext (hhook _)]
    constructor
    · rintro ⟨hwords,hurl,hpath,hlength,hended⟩
      exact ⟨hurl,hpath,hlength,hwords,hended⟩
    · rintro ⟨hurl,hpath,hlength,hwords,hended⟩
      exact ⟨hwords,hurl,hpath,hlength,hended⟩
  · rintro ⟨hwords,stdout,stderr,hended,hparse⟩
    have hend := hhook (payloadText payload)
    rw [hended] at hend
    obtain ⟨payload',out,log,hload,hreach,rfl,fs,rfl,hfs⟩ := hend.line_of_done
    obtain rfl := Option.some.inj (htext.symm.trans hload)
    obtain ⟨b',p,r,-,hparse',hcheck,hbacked,hid,-⟩ :=
      accepted_of_done hspells hbind hpacked hreach (loads_line hfs)
    obtain rfl := Except.ok.inj (hparse.symm.trans hparse')
    exact ⟨hcheck,log,p,r,hbacked,hid⟩

end Runs

section Sample

lemma room_sampleRecord {e : Mirror.Entry} (he : e ∈ samplePanel.entries) :
    (sampleRecord e).room ≤ 5000 := by
  have hkeys : Json.stringRoom "branch_index".length + Json.stringRoom "result_bytes".length +
      Json.stringRoom "result_hash".length + Json.stringRoom "weight".length +
      Json.stringRoom "job".length + Json.stringRoom "output_cid".length +
      Json.stringRoom "cid-output".length ≤ 1000 := by decide
  have hjob := Json.stringRoom_le (keyText_length_le (sampleKey e))
  have hhash := e.hash.property
  obtain ⟨hreceipt,hindex,hweight⟩ : e.receipt.length = 45 ∧
      (utf8 (Json.render (.int e.index))).length = 1 ∧
      (utf8 (Json.render (.int e.weight))).length = 1 := by
    simp only [samplePanel,Mirror.weightedPanel,List.mem_cons,List.not_mem_nil,or_false] at he
    rcases he with rfl | rfl | rfl <;> decide
  have hrooms : Json.stringRoom 76 + Json.stringRoom (2*45) + Json.stringRoom (2*32) ≤ 3000 := by
    decide
  simp only [sampleRecord,Mirror.Entry.record,Mirror.jobRecord,List.cons_append,List.nil_append,
    Json.room,Json.roomFields,Reducer.encodeHex_length,hreceipt,hindex,hweight,hhash]
  omega

lemma room_document (a : Mirror.Artifact)
    (records : Mirror.Entry → Mirror.Members Mirror.recordKeys) :
    (a.document Mirror.bareArtifact records).room ≤ 2000 +
      Json.stringRoom (Mirror.Artifact.combinerName a.combinerId).length +
      (Json.int a.combinerId).room + (Json.int a.trimBps).room + (Json.int a.dictionarySize).room +
      Json.roomElems (a.entries.map (fun e => e.record (records e))) := by
  have hkeys : Json.stringRoom "schema".length + Json.stringRoom "schema_version".length +
      Json.stringRoom "combiner".length + Json.stringRoom "combiner_id".length +
      Json.stringRoom "combiner_parameters".length + Json.stringRoom "trim_bps".length +
      Json.stringRoom "category_dictionary_size".length + Json.stringRoom "branches".length +
      Json.stringRoom "MFA3".length + (Json.int 3).room ≤ 1900 := by decide
  simp only [Mirror.Artifact.document,Mirror.bareArtifact,Mirror.Artifact.parameters,
    List.append_nil,Json.room,Json.roomFields] at hkeys ⊢
  omega

lemma room_sampleRecords :
    Json.roomElems (samplePanel.entries.map sampleRecord) ≤ 3*(5000+2) := by
  have hroom : ∀ x ∈ samplePanel.entries.map sampleRecord, x.room ≤ 5000 :=
    List.forall_mem_map.mpr (fun e he => room_sampleRecord he)
  have hrecords := Json.roomElems_le hroom
  rw [List.length_map] at hrecords
  exact hrecords

lemma length_printed_le {a : Mirror.Artifact}
    {records : Mirror.Entry → Mirror.Members Mirror.recordKeys} {n : ℕ}
    (hrecords : Json.roomElems (a.entries.map (fun e => e.record (records e))) ≤ n)
    (hatoms : Json.stringRoom (Mirror.Artifact.combinerName a.combinerId).length +
      (Json.int a.combinerId).room + (Json.int a.trimBps).room + (Json.int a.dictionarySize).room ≤
        1000) :
    (a.printed Mirror.bareArtifact records).length ≤ 3000+n := by
  refine (Json.length_render_room _).trans ((room_document a records).trans ?_)
  omega

lemma sampleArtifact_length : sampleArtifact.length ≤ 20000 := by
  unfold sampleArtifact
  exact (length_printed_le room_sampleRecords (by decide)).trans (by decide)

/-- The payload of a short artifact is not too long for the service. -/
lemma hookPayload_fits {run : RunManifest} {job : Job} {binding : AggregateBinding}
    {resultBytes : Bytes} (hartifact : binding.artifact.length ≤ 20000)
    (hresult : resultBytes.length ≤ 100) (hcid : job.inputCid.length ≤ 100) :
    (utf8 (payloadText (hookPayload run job binding resultBytes .null)).toList).length ≤
      maxRequestBytes := by
  have hkeys : Json.stringRoom "run".length + Json.stringRoom "aggregate_job".length +
      Json.stringRoom "image_id".length + Json.stringRoom "input_cid".length +
      Json.stringRoom "input_artifact_hex".length + Json.stringRoom "input_digest".length +
      Json.stringRoom "committed_outputs".length + Json.stringRoom "output_digest".length +
      Json.stringRoom "journal_hash".length + Json.stringRoom "result".length +
      Json.null.room ≤ 2000 := by decide
  have hdigest : ∀ d : Digest, Json.stringRoom (Cli.hex d).length ≤ 770 := by
    intro d
    rw [Cli.hex,Reducer.encodeHex_length,d.property]
    decide
  have hkey : ∀ k : Digest, Json.stringRoom (keyText k).length ≤ 914 :=
    fun k => (Json.stringRoom_le (keyText_length_le k)).trans (by decide)
  have hcid' : Json.stringRoom job.inputCid.length ≤ 1202 :=
    (Json.stringRoom_le hcid).trans (by decide)
  have hhex : Json.stringRoom (2*binding.artifact.length) ≤ 480002 :=
    (Json.stringRoom_le (Nat.mul_le_mul_left 2 hartifact)).trans (by decide)
  have hout : Json.stringRoom (2*resultBytes.length) ≤ 2402 :=
    (Json.stringRoom_le (Nat.mul_le_mul_left 2 hresult)).trans (by decide)
  have himage := hdigest job.requiredSoftwareDigest
  have hinput := hdigest binding.journal.inputDigest
  have hsha := hdigest (sha256 resultBytes)
  have hjournal := hdigest (journalHash binding.journal.inputDigest resultBytes)
  have hrun := hkey run.parentRun
  have hjob := hkey run.aggregateJob
  rw [payloadText,String.toList_ofList]
  refine (Json.length_write_le Json.compactAscii_narrow _).trans ?_
  rw [Json.room_sortKeys]
  refine le_trans (b := 500000) ?_ (by decide)
  simp only [hookPayload,Json.room,Json.roomFields,Reducer.encodeHex_length] at hkeys ⊢
  generalize Json.stringRoom = roomOf at *
  omega

/-- A service of one program proves the sample job like a hook of the runner. -/
theorem remote_hook_agrees_sample :
    ∃ (_ : CharData) (payload : Json) (hook : String → HookRun) (artifact outputs : Bytes)
      (binding : AggregateBinding) (b : BonsolBinding),
      runBonsolHook ["prove"] payload (localHook hook) = .ok b ∧
      checkBindingAgainstJob b (sampleJob artifact outputs) binding.journal outputs = .ok () ∧
      runBonsolHook ["python","-m","aggregator_runner.bonsol_http_hook"] payload
        (remoteHook localServer [] "http://127.0.0.1:38099/prove" "/prove" hook) = .ok b := by
  let tables := CharData.ascii
  obtain ⟨artifact,outputs,h,hshort⟩ : ∃ artifact outputs, Sample artifact outputs ∧
      artifact.length ≤ 20000 := ⟨_,_,sample_holds,sampleArtifact_length⟩
  have hbind := h.binds
  have hpacks := h.packs
  generalize samplePanel.cliReduction = reduction at hbind hpacks
  let payload := hookPayload sampleManifest (sampleJob artifact outputs)
    ⟨artifact,⟨framedInputDigest artifact,reduction⟩⟩ outputs .null
  have hplain : payload.Plain := plain_hookPayload trivial
  have hspells : Spells payload.sortKeys (runnerPayload sampleManifest (sampleJob artifact outputs)
      ⟨artifact,⟨framedInputDigest artifact,reduction⟩⟩ outputs) :=
    (spells_hookPayload hbind hpacks).sortKeys hplain
  obtain ⟨log,hreach,-⟩ := plain_prints (natKey 9) sampleImage.val artifact outputs hspells
    sampleReply_url (by decide) rfl
  let out := printed (payloadOf (keyText (natKey 9)) sampleImage.val artifact outputs)
    (executionIdAt (keyText (natKey 9)) 0)
  let hook : String → HookRun := fun text =>
    if text = payloadText payload then some (0,line out,"") else none
  have hhook : ∀ text, Ended plain (fun _ _ => some (natKey 5)) 0 text (hook text) := by
    intro text
    by_cases htext : text = payloadText payload
    · subst htext
      simp only [hook,if_true]
      exact .printed (loads_payloadText hplain) hreach ""
    · simp only [hook,htext,if_false]
      exact .killed
  have hended : hook (payloadText payload) = some (0,line out,"") := if_pos rfl
  obtain ⟨b,-,-,-,hparse,-⟩ := accepted_of_done hspells hbind hpacks hreach
    (loads_line (plain_printed _ _))
  have hlocal : ∀ words ≠ [], runBonsolHook words payload (localHook hook) = .ok b := by
    intro words hwords
    exact runBonsolHook_eq_ok.mpr ⟨hwords,line out,"",by simp [localHook,hended],hparse⟩
  have hagrees := fun words => remote_hook_agrees plain (fun _ _ => some (natKey 5)) 0 localServer
    [] "http://127.0.0.1:38099/prove" "/prove" words hook _ sampleManifest
    (sampleJob artifact outputs) ⟨artifact,⟨framedInputDigest artifact,reduction⟩⟩ outputs .null b
    hhook trivial hbind hpacks
  refine ⟨tables,payload,hook,artifact,outputs,_,b,hlocal _ (by simp),
    ((hagrees ["prove"]).2 (hlocal _ (by simp))).1,?_⟩
  have hlength : (utf8 (payloadText payload).toList).length ≤ maxRequestBytes :=
    hookPayload_fits hshort (le_of_eq_of_le (committedOutputs_length hpacks) (by decide))
      (show "cid-artifact".length ≤ 100 by decide)
  exact (hagrees _).1.mpr ⟨by decide,.inr (by decide),hlength,hlocal _ (by simp)⟩

end Sample

end Kswarm.Proving
