import Kswarm.Cli.Aggregate
import Kswarm.Worker.BranchReceipt
import Kswarm.Worker.Parsing

/-! The branch executor (`branch_worker/executor.py`): ask the model, build the output, pin the
transcript, prove the receipt, encode the result. Everything outside this code that a run calls
is a field of its `Host`. -/
namespace Kswarm.Worker
open Protocol

def llmSeedModulus : ℕ := 2147483647
def retryableHttpStatuses : List ℕ := [408,409,425,429,500,502,503,504]

def systemPrompt : String :=
  "You execute one deterministic kswarm branch prediction. " ++
  "Return exactly one JSON object and no prose. " ++
  "For target_output_kind=scalar, output exactly these keys: scalar_value, confidence_lower, " ++
  "confidence_upper, rationale. " ++
  "scalar_value is your best probability estimate, in [0,1], that the answer to the question is " ++
  "yes, judged from the provided evidence. " ++
  "confidence_lower and confidence_upper are numeric bounds in [0,1]. " ++
  "Commit to a value across the full range as the evidence warrants; use values near 0.5 only " ++
  "when the evidence is genuinely balanced or absent, and do not default to 0.5. " ++
  "Do not return null for scalar_value. Do not include categorical_label_index for scalar jobs. " ++
  "For target_output_kind=categorical, output exactly categorical_label_index as an integer. " ++
  "For target_output_kind=narrative_with_scalar, include narrative_text, scalar_value, and " ++
  "narrative_scores with severity, quality, and ood in [0,1]."

/-- `LLMJsonResult`. -/
structure Reply where
  payload : Json
  completionTokens : Option ℕ
  promptTokens : Option ℕ
  totalTokens : Option ℕ
  rawContent : String

/-- What the client raises: no JSON object in the answer, or a failure of the endpoint. -/
inductive RequestError where
  | valueError (text : String)
  | apiStatus (code : ℕ) (message : String)
  | apiConnection (text : String)

inductive BranchReceiptError where
  | host (text : String)
  | notAnObject
  | unknownVersion
  | missingField (field : String)
  | malformedJournal
  | journalOutOfRange

structure RejectedAttempt where
  attempt : ℕ
  error : String
  rawContent : Option String

inductive ExecutionError where
  | endpoint (text : String) (retryable : Bool)
  | modelOutputRejected (text : String) (attempts : List RejectedAttempt)
  | parse (error : ParseError)
  | receiptFailed (error : BranchReceiptError)
  | receiptDisagrees (journal expected : ReceiptJournal)
  | oasis (text : String)
  | numCtx
  | notCanonical (error : ResultError)
  | validation
  | ipfs (text : String)

/-- A process that runs branches: its configuration, its clock, and what it calls outside this
code. `clock k` is its `k`-th reading in seconds. -/
structure Host where
  llmBaseUrl : String
  llmModelName : String
  llmMaxTokens : ℕ
  invalidOutputRetries : ℕ
  zkvmHost : Option String
  chat : ℕ → Json → ℕ → Json → Except RequestError Reply
  repr : Json → String
  runOasis : BranchInput → Except String Json
  addJson : String → Json → Except String String
  prove : Json → Json → Except String Json
  clock : ℕ → ℕ
  latencySeconds : ℕ → Binary64
  proveSeconds : Binary64

def normalizeLlmSeed (rngSeed : ℕ) : ℕ := rngSeed % llmSeedModulus

def systemPromptSha256 : String := hex (sha256 (utf8 systemPrompt.toList))

structure BranchExecution [CharData] where
  output : BranchOutput
  outputCid : String
  resultBytes : Bytes
  transcriptCid : String
  transcript : Json
  llmLatencySeconds : Binary64
  completionTokens : Option ℕ
  promptTokens : Option ℕ
  totalTokens : Option ℕ
  attempts : ℕ
  zkvmReceiptCid : Option String
  zkvmProveSeconds : Option Binary64

structure ModelAnswer where
  result : Reply
  parsed : ParsedResponse
  rejectedAttempts : List RejectedAttempt
  latencySeconds : Binary64

def parameter (branchInput : BranchInput) (key : String) : Option Json :=
  branchInput.parameters.lookup key

def RejectedAttempt.toJson (a : RejectedAttempt) : Json := .obj [
  ("attempt",.int a.attempt),
  ("error",.str a.error),
  ("raw_content",optStr a.rawContent)]

/-- Everything that fixes the model's behaviour: the endpoint is not in it. -/
def llmVersionPreimage (h : Host) (branchInput : BranchInput) : Json := .obj [
  ("model",.str h.llmModelName),
  ("provider",.str "openai-compatible"),
  ("response_format",.str "json_object"),
  ("temperature",.int 0),
  ("max_tokens",.int h.llmMaxTokens),
  ("num_ctx",(parameter branchInput "num_ctx").getD .null),
  ("system_prompt_sha256",.str systemPromptSha256)]

def llmVersionHash (h : Host) (branchInput : BranchInput) : Except ResultError String :=
  (fun b => hex (sha256 b)) <$> canonicalJsonBytes (llmVersionPreimage h branchInput)

/-- `_extra_body`; null when the input fixes no context window. -/
def extraBody [CharData] (branchInput : BranchInput) : Except ExecutionError Json :=
  match parameter branchInput "num_ctx" with
  | none | some .null => pure .null
  | some raw => do
    let value ← require raw.toInt .numCtx
    failIf (value ≤ 0) .numCtx
    pure (.obj [("options",.obj [("num_ctx",.int value)])])

def messages (branchInput : BranchInput) (oasisTrace : Json) : Json :=
  let content : Json := .obj [
    ("question",.str branchInput.seed),
    ("branch_index",.int branchInput.branchIndex),
    ("rng_seed",.int branchInput.rngSeed),
    ("target_output_kind",.str branchInput.targetOutputKind.name),
    ("parameters",.obj branchInput.parameters),
    ("labels",(parameter branchInput "labels").getD (.arr [])),
    ("oasis_trace",oasisTrace)]
  .arr [
    .obj [("role",.str "system"),("content",.str systemPrompt)],
    .obj [("role",.str "user"),("content",.str (String.ofList content.sortKeys.renderSpaced))]]

def runOasisIfRequested (h : Host) (branchInput : BranchInput) : Except ExecutionError Json :=
  if ((parameter branchInput "oasis_simulation_id").getD .null).truthy = false ∨
      ((parameter branchInput "run_oasis").getD (.bool false)).truthy = false then pure .null
  else (h.runOasis branchInput).mapError .oasis

/-- The turns of `_ask_model` from `attempt` on, `n` of them at most. -/
def askModelFrom [CharData] (h : Host) (branchInput : BranchInput) (messages : Json) (llmSeed : ℕ)
    (extraBody : Json) : ℕ → ℕ → List RejectedAttempt → Except ExecutionError ModelAnswer
  | 0,_,rejected => .error (.modelOutputRejected
      ("model output rejected after " ++ toString rejected.length ++ " attempt(s) with seed " ++
        toString llmSeed ++ ": " ++ ((rejected.getLast?.map RejectedAttempt.error).getD ""))
      rejected)
  | n+1,attempt,rejected =>
    match h.chat attempt messages llmSeed extraBody with
    | .error (.valueError text) => askModelFrom h branchInput messages llmSeed extraBody n
        (attempt+1) (rejected ++ [⟨attempt,"model output is not a JSON object: " ++ text,none⟩])
    | .error (.apiStatus code message) => .error (.endpoint
        ("LLM endpoint " ++ h.llmBaseUrl ++ " returned HTTP " ++ toString code ++ ": " ++ message)
        (decide (code ∈ retryableHttpStatuses)))
    | .error (.apiConnection text) => .error (.endpoint
        ("LLM endpoint " ++ h.llmBaseUrl ++ " unreachable: " ++ text) true)
    | .ok result =>
      match parseModelResponse branchInput result.payload with
      | .ok parsed => .ok ⟨result,parsed,rejected,h.latencySeconds attempt⟩
      | .error (.invalid error) => askModelFrom h branchInput messages llmSeed extraBody n
          (attempt+1) (rejected ++ [⟨attempt,error.text h.repr,some result.rawContent⟩])
      | .error error => .error (.parse error)

/-- The identical request until the answer parses, at most `retries + 1` times. -/
def askModel [CharData] (h : Host) (branchInput : BranchInput) (messages : Json) (llmSeed : ℕ)
    (extraBody : Json) : Except ExecutionError ModelAnswer :=
  askModelFrom h branchInput messages llmSeed extraBody (h.invalidOutputRetries+1) 1 []

/-- The fields of an output that do not come from the model's answer. -/
def commonFields [CharData] (h : Host) (branchInput : BranchInput) (versionHash : String)
    (verifierReference : Option BranchOutput) (kind : OutputKind) : OutputFields where
  schemaVersion := 1
  parentJob := branchInput.parentJob
  branchIndex := branchInput.branchIndex
  outputKind := kind
  scalarValueBps := none
  scalarConfidenceLowerBps := none
  scalarConfidenceUpperBps := none
  categoricalLabelIndex := none
  narrativeText := none
  narrativeScores := none
  rngSeed := branchInput.rngSeed
  llmModel := h.llmModelName
  llmVersionHash := versionHash
  completedAtUnix := h.clock 0
  transcriptCid := (verifierReference.map (fun r => r.transcriptCid)).getD "pending"
  zkvmReceiptCid := none

/-- The output an answer stands for, before validation. -/
def answerFields [CharData] (h : Host) (branchInput : BranchInput) (versionHash : String)
    (verifierReference : Option BranchOutput) : ParsedResponse → OutputFields
  | .categorical labelIndex =>
    { commonFields h branchInput versionHash verifierReference .categorical with
      categoricalLabelIndex := some labelIndex }
  | .narrative p =>
    { commonFields h branchInput versionHash verifierReference .narrativeWithScalar with
      scalarValueBps := some p.scalarValueBps
      narrativeText := some p.narrativeText
      narrativeScores := some p.narrativeScores }
  | .scalar p =>
    { commonFields h branchInput versionHash verifierReference .scalar with
      scalarValueBps := some p.scalarValueBps
      scalarConfidenceLowerBps := p.confidenceLowerBps
      scalarConfidenceUpperBps := p.confidenceUpperBps
      narrativeText := p.narrativeText }

def buildOutput [CharData] (h : Host) (branchInput : BranchInput) (parsed : ParsedResponse)
    (verifierReference : Option BranchOutput) : Except ExecutionError BranchOutput := do
  let versionHash ← (llmVersionHash h branchInput).mapError .notCanonical
  require (BranchOutput.ofFields (answerFields h branchInput versionHash verifierReference parsed))
    .validation

def transcriptOf (h : Host) (jobPubkey : String) (branchInput : BranchInput) (inputSha : String)
    (versionHash : String) (messages extraBody oasisTrace : Json) (answer : ModelAnswer) : Json :=
  .obj [
    ("schema_version",.int 2),
    ("job",.str jobPubkey),
    ("branch_input_sha256",.str inputSha),
    ("llm",.obj [
      ("base_url",.str h.llmBaseUrl),
      ("model",.str h.llmModelName),
      ("temperature",.int 0),
      ("max_tokens",.int h.llmMaxTokens),
      ("branch_rng_seed",.int branchInput.rngSeed),
      ("request_seed",.int (normalizeLlmSeed branchInput.rngSeed)),
      ("extra_body",extraBody),
      ("latency_seconds",.float answer.latencySeconds),
      ("usage",.obj [
        ("completion_tokens",optInt answer.result.completionTokens),
        ("prompt_tokens",optInt answer.result.promptTokens),
        ("total_tokens",optInt answer.result.totalTokens)]),
      ("version_preimage",llmVersionPreimage h branchInput),
      ("version_hash",.str versionHash),
      ("system_prompt_sha256",.str systemPromptSha256)]),
    ("messages",messages),
    ("raw_content",.str answer.result.rawContent),
    ("raw_response",answer.result.payload),
    ("rejected_attempts",.arr (answer.rejectedAttempts.map RejectedAttempt.toJson)),
    ("attempts",.int (answer.rejectedAttempts.length+1)),
    ("oasis_trace",oasisTrace),
    ("completed_at_unix",.int (h.clock 1))]

def bundleVersion : String := "kswarm-branch-receipt-v1"

/-- The text of a member, if it is one. -/
def stringMember (value : Json) (field : String) : Option String :=
  match value.get field with
  | some (.str s) => some s
  | _ => none

/-- `ReceiptJournal.from_json`. -/
def journalFromJson [CharData] (payload : Json) : Except BranchReceiptError ReceiptJournal := do
  let inputDigest ← require ((stringMember payload "input_digest").bind
    (fun s => Cli.fromhex s.toList)) .malformedJournal
  let resultHash ← require ((stringMember payload "result_hash").bind
    (fun s => Cli.fromhex s.toList)) .malformedJournal
  let outputLen ← require ((payload.get "output_len").bind Json.toInt) .malformedJournal
  if hd : inputDigest.length = 32 ∧ resultHash.length = 32 ∧ 0 ≤ outputLen then
    pure ⟨⟨inputDigest,hd.1⟩,⟨resultHash,hd.2.1⟩,outputLen.toNat⟩
  else .error .journalOutOfRange

/-- `_validate_bundle_shape`, and the journal the bundle states. -/
def bundleJournal [CharData] (bundle : Json) : Except BranchReceiptError ReceiptJournal := do
  failIf (bundle.isObj = false) .notAnObject
  failIf (stringMember bundle "bundle_version" ≠ some bundleVersion) .unknownVersion
  ["image_id_hex","journal_hex","receipt_b64"].forM (fun field =>
    failIf ((stringMember bundle field).getD "" = "") (.missingField field))
  journalFromJson ((bundle.get "journal").getD .null)

/-- `_prove_branch_receipt`: the locator of a receipt over this very document. -/
def proveBranchReceipt [CharData] (h : Host) (branchInput : BranchInput) (output : BranchOutput) :
    Except ExecutionError String := do
  let bundle ← (h.prove branchInput.modelDump output.modelDump).mapError
    (fun text => .receiptFailed (.host text))
  let journal ← (bundleJournal bundle).mapError .receiptFailed
  let resultHash ← (branchResultHash output.toOutputFields).mapError .notCanonical
  let expected ← (expectedJournal branchInput.modelDump output.modelDump resultHash).mapError
    .notCanonical
  failIf (journal ≠ expected) (.receiptDisagrees journal expected)
  (h.addJson ("branch-" ++ toString branchInput.branchIndex ++ "-zkvm-receipt.json")
    bundle).mapError .ipfs

/-- Whether this run proves a receipt: a configured host, and no reference to re-execute. -/
def proves [CharData] (h : Host) (verifierReference : Option BranchOutput) : Bool :=
  h.zkvmHost.any (fun path => !path.isEmpty) && verifierReference.isNone

/-- A verifier takes over the worker's transcript and pins none. -/
def pinTranscript [CharData] (h : Host) (branchInput : BranchInput)
    (verifierReference : Option BranchOutput) (transcript : Json) :
    Except ExecutionError String :=
  match verifierReference with
  | some reference => pure reference.transcriptCid
  | none => (h.addJson ("branch-" ++ toString branchInput.branchIndex ++ "-transcript.json")
      transcript).mapError .ipfs

def pinReceipt [CharData] (h : Host) (branchInput : BranchInput)
    (verifierReference : Option BranchOutput) (output : BranchOutput) :
    Except ExecutionError (Option String) :=
  if proves h verifierReference = true then some <$> proveBranchReceipt h branchInput output
  else pure none

/-- The output that names its receipt, if one was proved. -/
def named [CharData] (output : BranchOutput) : Option String → BranchOutput
  | some cid => output.withReceipt (some cid)
  | none => output

/-- The run from the model's answer on. -/
def publish [CharData] (h : Host) (jobPubkey : String) (branchInput : BranchInput)
    (verifierReference : Option BranchOutput) (oasisTrace extraBody : Json)
    (answer : ModelAnswer) : Except ExecutionError BranchExecution := do
  let parsedOutput ← buildOutput h branchInput answer.parsed verifierReference
  let inputText ← (canonicalJsonBytes branchInput.modelDump).mapError .notCanonical
  let transcript := transcriptOf h jobPubkey branchInput (hex (sha256 inputText))
    parsedOutput.llmVersionHash (messages branchInput oasisTrace) extraBody oasisTrace answer
  let transcriptCid ← pinTranscript h branchInput verifierReference transcript
  let bound := parsedOutput.copy transcriptCid (h.clock 2)
  let receiptCid ← pinReceipt h branchInput verifierReference bound
  let output := named bound receiptCid
  let outputCid ← (h.addJson ("branch-" ++ toString branchInput.branchIndex ++ "-output.json")
    output.modelDump).mapError .ipfs
  let resultBytes ← (branchOutputResultBytes output.toOutputFields).mapError .notCanonical
  pure {
    output,outputCid,resultBytes,transcriptCid,transcript
    llmLatencySeconds := answer.latencySeconds
    completionTokens := answer.result.completionTokens
    promptTokens := answer.result.promptTokens
    totalTokens := answer.result.totalTokens
    attempts := answer.rejectedAttempts.length+1
    zkvmReceiptCid := receiptCid
    zkvmProveSeconds := receiptCid.map (fun _ => h.proveSeconds) }

/-- The run up to the model's accepted answer: the simulation's trace, the request's extra body
and the answer. -/
def acquire [CharData] (h : Host) (branchInput : BranchInput) :
    Except ExecutionError (Json × Json × ModelAnswer) := do
  let oasisTrace ← runOasisIfRequested h branchInput
  let extraBody ← extraBody branchInput
  let answer ← askModel h branchInput (messages branchInput oasisTrace)
    (normalizeLlmSeed branchInput.rngSeed) extraBody
  pure (oasisTrace,extraBody,answer)

/-- Run one branch. With a `verifierReference` this is a verifier's re-execution: the output is
bound to the worker's transcript and no new transcript is pinned. -/
def execute [CharData] (h : Host) (jobPubkey : String) (branchInput : BranchInput)
    (verifierReference : Option BranchOutput) : Except ExecutionError BranchExecution := do
  let (oasisTrace,extraBody,answer) ← acquire h branchInput
  publish h jobPubkey branchInput verifierReference oasisTrace extraBody answer

end Kswarm.Worker
