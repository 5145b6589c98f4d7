import Kswarm.Cli.Aggregate
import Kswarm.Lib.Base58
import Kswarm.Lib.JsonEqual
import Kswarm.Lib.Numeral
import Kswarm.Protocol.BranchSchemas
import Kswarm.Protocol.CanonicalHash
import Kswarm.Reducer.Encoding

/-! Prediction runs on the command line (`prediction.py`, `predict open` and
`predict bind-aggregate` of `main.py`): the plan a run pins before any branch runs, and the
artifact it binds after they settled. -/
namespace Kswarm.Cli
open Protocol

/-- `COMBINERS`. -/
def combiners : List (String × ℕ) := [("weighted-mean",1),("trimmed-mean",2),("majority-vote",3)]
def scalarCombiners : List String := ["weighted-mean","trimmed-mean"]
def categoricalCombiners : List String := ["majority-vote"]
def scalarOutputKinds : List OutputKind := [.scalar,.narrativeWithScalar]
def defaultTrimBps : ℤ := 1000
def nonceMax : ℕ := 2^64-1
def publicInputRule : String := "input-artifact"
def framingRule : String := "u64le-length-prefix"

/-- The refusals of `predict open`. -/
inductive OpenError where
  | unknownOutputKind (outputKind : String)
  | unknownCombiner (combiner : String)
  | trimOutOfRange (trimBps : ℤ)
  | needsScalarKind (combiner : String) (outputKind : OutputKind)
  | needsCategorical (combiner : String) (outputKind : OutputKind)
  | trimNotApplicable (combiner : String)
  | branchCount (branches : ℕ)
  | contextWindow (numCtx : ℤ)
  | noncesDoNotFit
  | labelsRequired
  | emptyPersonas
  | notFinite
  | ipfs (text : String)

/-- The refusals of `predict bind-aggregate`. -/
inductive BindError where
  | missingJob (branchIndex : ℕ)
  | notReady (branchIndex : ℕ)
  | noReceipt (branchIndex : ℕ)
  | hashMismatch (branchIndex : ℕ)
  | badKey (text : String)
  | planUnreadable (cid : String)
  | planMalformed
  | departs (cid : String) (differences : List String)
  | manifestMalformed
  | noDictionary
  | notHex
  | notFinite
  | rejected (error : AggregateError)

section Rules

/-- `validate_output_kind`. -/
def validateOutputKind (outputKind : String) : Except OpenError OutputKind :=
  if outputKind = "scalar" then pure .scalar
  else if outputKind = "categorical" then pure .categorical
  else if outputKind = "narrative_with_scalar" then pure .narrativeWithScalar
  else .error (.unknownOutputKind outputKind)

/-- `validate_combiner`. -/
def validateCombiner (combiner : String) : Except OpenError Unit :=
  failIf (combiner ∉ combiners.map Prod.fst) (.unknownCombiner combiner)

/-- `validate_trim_bps`. -/
def validateTrimBps (trimBps : ℤ) : Except OpenError ℤ := do
  failIf (trimBps < 0 ∨ bpsScale ≤ trimBps) (.trimOutOfRange trimBps)
  pure trimBps

/-- `combiner_parameters`: the parameters a combiner carries for an output kind. -/
def combinerParameters (combiner : String) (outputKind : OutputKind) (trimBps : Option ℤ) :
    Except OpenError Json := do
  validateCombiner combiner
  failIf (combiner ∈ scalarCombiners ∧ outputKind ∉ scalarOutputKinds)
    (.needsScalarKind combiner outputKind)
  failIf (combiner ∈ categoricalCombiners ∧ outputKind ≠ .categorical)
    (.needsCategorical combiner outputKind)
  if combiner = "trimmed-mean" then do
    let trim ← validateTrimBps (trimBps.getD defaultTrimBps)
    pure (.obj [("trim_bps",.int trim)])
  else do
    failIf (trimBps.isSome = true) (.trimNotApplicable combiner)
    pure (.obj [])

/-- `planned_nonces`: the branches' nonces and the aggregate's. -/
def plannedNonces (baseNonce branches : ℕ) : Except OpenError (List ℕ × ℕ) := do
  failIf (nonceMax < baseNonce+branches) .noncesDoNotFit
  pure ((List.range branches).map (baseNonce+·),baseNonce+branches)

/-- `_canonical_json_bytes`: sorted keys, no whitespace, UTF-8, no NaN. -/
def canonicalJsonBytes {ε : Type} (notFinite : ε) (payload : Json) : Except ε Bytes := do
  failIf (payload.finite = false) notFinite
  pure (utf8 (Json.render payload.sortKeys))

/-- The labels between the commas. -/
def parsedLabels [CharData] (labels : Option String) : List String :=
  match labels with
  | some text => if text.isEmpty then []
    else (text.toList.splitOn ',').map (fun item => String.ofList (strip item))
  | none => []

/-- `_prediction_output_schema`. -/
def predictionOutputSchema [CharData] (outputKind : OutputKind) (labels : Option String)
    (forecastHorizon : String) : Except OpenError Json := do
  let base : List (String × Json) := [
    ("schema_version",.int 1),
    ("output_kind",.str outputKind.name),
    ("forecast_horizon",.str forecastHorizon)]
  let units : List (String × Json) := [
    ("units",.str "probability"),
    ("scale",.str "basis_points"),
    ("valid_range",.arr [.int 0,.int 10000])]
  match outputKind with
  | .scalar => pure (.obj (base ++ units))
  | .categorical => do
    failIf (parsedLabels labels = []) .labelsRequired
    pure (.obj (base ++ [
      ("category_dictionary",.arr ((parsedLabels labels).map .str)),
      ("tie_break",.str "lowest_label_index")]))
  | .narrativeWithScalar => pure (.obj (base ++ units ++ [
      ("tier",.str "B"),
      ("guardrail_scores",.arr [.str "severity_bps",.str "quality_bps",.str "ood_bps"]),
      ("disclosure",.str ("Narrative text is hash-committed provenance; " ++
        "guardrail scalars are the verified surface."))]))

end Rules

section Opening

/-- The command line of `predict open`, with its files read. -/
structure OpenOptions where
  question : String
  outputKind : String
  branches : ℕ
  combiner : String
  trimBps : Option ℤ
  personaSet : Option String
  labels : Option String
  forecastHorizon : String
  contextFile : Option (String × String)
  numCtx : Option ℤ
  personasFile : Option (String × List Json)

/-- What `predict open` takes from outside: the customer, the addresses derived from nonces, the
random base nonce, the reducer image, the clock, and IPFS. -/
structure OpenHost where
  customer : Digest
  jobPda : Digest → ℕ → Digest
  baseNonce : ℕ
  imageId : Digest
  createdAtUnix : ℕ
  addBytes : String → Bytes → Except String String

structure BranchJob where
  branchIndex : ℕ
  nonce : ℕ
  job : String
  inputCid : String
  inputBundleHash : Digest

/-- The run manifest, as far as binding reads it. -/
structure Run where
  parentRun : String
  parentManifestCid : String
  parentManifest : Json
  aggregatePlanCid : Option String
  aggregatePlan : Json
  combiner : String
  combinerParameters : Json
  branchJobs : List BranchJob

def optText : Option String → Json
  | some s => .str s
  | none => .null

def optNumber : Option ℤ → Json
  | some n => .int n
  | none => .null

def hex (d : Digest) : String := Reducer.encodeHex d.val

/-- `parent_manifest`. -/
def parentManifest (h : OpenHost) (o : OpenOptions) (parameters outputSchema : Json)
    (outputSchemaHash : String) (aggregateJob : Digest) (personasHash : Option String) : Json :=
  .obj ([
    ("schema_version",.int 1),
    ("question",.str o.question),
    ("branches",.int o.branches),
    ("combiner",.str o.combiner),
    ("combiner_parameters",parameters),
    ("persona_set",optText o.personaSet),
    ("output_schema",outputSchema),
    ("output_schema_hash",.str outputSchemaHash),
    ("aggregate_job",.str (keyText aggregateJob)),
    ("aggregate_image_id",.str (hex h.imageId)),
    ("created_at_unix",.int h.createdAtUnix)] ++
    (match o.contextFile with
    | some (path,text) => [("context",.obj [("path",.str path),
        ("sha256",.str (hex (sha256 (encode text))))])]
    | none => []) ++
    (match o.numCtx with
    | some n => [("llm_options",.obj [("num_ctx",.int n)])]
    | none => []) ++
    (match o.personasFile with
    | some (path,personas) => [("persona_library",.obj [("path",.str path),
        ("sha256",optText personasHash),("count",.int personas.length)])]
    | none => []))

/-- The persona of a branch: the library is dealt out in turn. -/
def personaOf (personas : List Json) (branchIndex : ℕ) : Json :=
  if personas = [] then .null else personas.getD (branchIndex % personas.length) .null

/-- The seed of a branch. -/
def branchRngSeed (aggregateJob : Digest) (branchIndex : ℕ) (runSeedCommitment : Digest) : ℕ :=
  ofLe ((sha256 (aggregateJob.val ++ leBytes 4 branchIndex ++ runSeedCommitment.val)).val.take 8)

/-- What the inputs of a run's branches share. -/
structure RunShape where
  outputKind : OutputKind
  parameters : Json
  outputSchemaHash : String
  parentManifestCid : String
  aggregateJob : Digest
  runSeedCommitment : Digest
  personasHash : Option String

/-- `branch_input`. -/
def branchInput [CharData] (o : OpenOptions) (r : RunShape) (branchIndex : ℕ) : BranchInput where
  schemaVersion := 1
  parentJob := keyText r.aggregateJob
  branchIndex := branchIndex
  seed := o.question
  parameters := [
    ("combiner",.str o.combiner),
    ("combiner_parameters",r.parameters),
    ("forecast_horizon",.str o.forecastHorizon),
    ("labels",.arr ((parsedLabels o.labels).map .str)),
    ("output_schema_hash",.str r.outputSchemaHash),
    ("parent_manifest_cid",.str r.parentManifestCid),
    ("context",optText (o.contextFile.map Prod.snd)),
    ("context_sha256",optText (o.contextFile.map (fun f => hex (sha256 (encode f.2))))),
    ("num_ctx",optNumber o.numCtx),
    ("persona",personaOf ((o.personasFile.map Prod.snd).getD []) branchIndex),
    ("persona_library_sha256",optText r.personasHash)]
  personaSetCid := o.personaSet
  rngSeed := branchRngSeed r.aggregateJob branchIndex r.runSeedCommitment
  targetOutputKind := r.outputKind
  scalarGridBps := if r.outputKind ∈ scalarOutputKinds then some 1 else none

/-- Pin a branch's input and plan its job. -/
def planBranch [CharData] (h : OpenHost) (o : OpenOptions) (r : RunShape) (item : ℕ × ℕ) :
    Except OpenError BranchJob := do
  let inputBytes ← canonicalJsonBytes .notFinite (branchInput o r item.2).modelDump
  let inputCid ← (h.addBytes ("branch-" ++ toString item.2 ++ "-input.json")
    inputBytes).mapError .ipfs
  pure {
    inputCid
    branchIndex := item.2
    nonce := item.1
    job := keyText (h.jobPda h.customer item.1)
    inputBundleHash := sha256 inputBytes }

/-- The record of a job in the plan. -/
def planRecord (b : BranchJob) : Json := .obj [
  ("branch_index",.int b.branchIndex),
  ("job",.str b.job),
  ("nonce",.int b.nonce),
  ("input_cid",.str b.inputCid)]

/-- The reducer image a run commits to, and how its input is framed. -/
def bonsolRecord (h : OpenHost) : Json := .obj [
  ("image_id",.str (hex h.imageId)),
  ("public_input",.str publicInputRule),
  ("framing",.str framingRule)]

/-- `aggregate_plan`. -/
def aggregatePlan (h : OpenHost) (o : OpenOptions) (r : RunShape) (branchJobs : List BranchJob) :
    Json := .obj [
  ("schema_version",.int 3),
  ("parent_run",.str (keyText r.aggregateJob)),
  ("parent_manifest_cid",.str r.parentManifestCid),
  ("branch_jobs",.arr (branchJobs.map planRecord)),
  ("combiner",.str o.combiner),
  ("combiner_parameters",r.parameters),
  ("output_schema_hash",.str r.outputSchemaHash),
  ("bonsol",bonsolRecord h)]

/-- `_read_optional_personas`. -/
def readOptionalPersonas (o : OpenOptions) : Except OpenError (Option String) :=
  match o.personasFile with
  | none => pure none
  | some (_,personas) => do
    failIf (personas = []) .emptyPersonas
    let encoded ← canonicalJsonBytes OpenError.notFinite (.arr personas)
    pure (some (hex (sha256 encoded)))

/-- `predict open` up to the run manifest: every artifact is pinned and every job planned. -/
def predictOpen [CharData] (h : OpenHost) (o : OpenOptions) :
    Except OpenError (Run × RunShape) := do
  failIf (o.branches < 1 ∨ maxBranches < o.branches) (.branchCount o.branches)
  failIf (o.numCtx.any (fun n => decide (n < 1)) = true) (.contextWindow (o.numCtx.getD 0))
  let outputKind ← validateOutputKind o.outputKind
  let parameters ← combinerParameters o.combiner outputKind o.trimBps
  let (branchNonces,aggregateNonce) ← plannedNonces h.baseNonce o.branches
  let aggregateJob := h.jobPda h.customer aggregateNonce
  let outputSchema ← predictionOutputSchema outputKind o.labels o.forecastHorizon
  let schemaBytes ← canonicalJsonBytes OpenError.notFinite outputSchema
  let outputSchemaHash := hex (sha256 schemaBytes)
  let personasHash ← readOptionalPersonas o
  let manifest := parentManifest h o parameters outputSchema outputSchemaHash aggregateJob
    personasHash
  let manifestBytes ← canonicalJsonBytes OpenError.notFinite manifest
  let parentManifestCid ← (h.addBytes "parent-manifest.json" manifestBytes).mapError .ipfs
  let commitmentBytes ← canonicalJsonBytes OpenError.notFinite (.obj [
    ("question",.str o.question),
    ("parent_manifest_cid",.str parentManifestCid),
    ("aggregate_job",.str (keyText aggregateJob))])
  let r : RunShape := {
    outputKind,parameters,outputSchemaHash,parentManifestCid,aggregateJob,personasHash
    runSeedCommitment := sha256 commitmentBytes }
  let branchJobs ← branchNonces.zipIdx.mapM (planBranch h o r)
  let plan := aggregatePlan h o r branchJobs
  let planBytes ← canonicalJsonBytes OpenError.notFinite plan
  let planCid ← (h.addBytes "aggregate-plan.json" planBytes).mapError .ipfs
  pure ({
    parentManifestCid,branchJobs
    parentRun := keyText aggregateJob
    parentManifest := manifest
    aggregatePlanCid := some planCid
    aggregatePlan := plan
    combiner := o.combiner
    combinerParameters := parameters },r)

end Opening

section Binding

/-- The fields of a job account that binding reads. -/
structure JobAccount where
  status : ℕ
  submittedResultHash : Digest
  outputCid : String
  resultBytes : Bytes
  verifierAttestationHash : Option Digest

def jobStatusCompleted : ℕ := 4
def jobStatusSettled : ℕ := 5

/-- What `predict bind-aggregate` takes from outside: the chain, IPFS, the reducer image, and how a
value that is no text is printed. -/
structure BindHost where
  fetchJob : Digest → Option JobAccount
  catBytes : String → Except String Bytes
  imageId : Digest
  str : Json → String

structure Branch where
  branchIndex : ℕ
  job : String
  outputCid : String
  resultBytes : String
  weight : ℕ

/-- `json.loads(payload.decode("utf-8"))`. -/
def loadsBytes (payload : Bytes) : Option Json := (decodeUtf8 payload).bind Json.loads

/-- Settled, or attested where that is allowed. -/
def JobAccount.ready (job : JobAccount) (allowCompleted : Bool) : Bool :=
  decide (job.status = jobStatusSettled) ||
    (allowCompleted && decide (job.status = jobStatusCompleted) &&
      job.verifierAttestationHash.isSome)

/-- One turn of `_collect_branch_receipts`. -/
def collectBranch (h : BindHost) (allowCompleted : Bool) (item : BranchJob) :
    Except BindError Branch := do
  let jobKey ← require (readKey item.job) (.badKey item.job)
  let job ← require (h.fetchJob jobKey) (.missingJob item.branchIndex)
  failIf (job.ready allowCompleted = false) (.notReady item.branchIndex)
  failIf (job.resultBytes = []) (.noReceipt item.branchIndex)
  failIf (sha256 job.resultBytes ≠ job.submittedResultHash) (.hashMismatch item.branchIndex)
  pure {
    branchIndex := item.branchIndex
    job := keyText jobKey
    outputCid := job.outputCid
    resultBytes := Reducer.encodeHex job.resultBytes
    weight := 1 }

def collectBranchReceipts (h : BindHost) (run : Run) (allowCompleted : Bool) :
    Except BindError (List Branch) := run.branchJobs.mapM (collectBranch h allowCompleted)

/-- `str(item["job"])` of every record; none where a record has no job. -/
def jobTexts (str : Json → String) (items : List Json) : Option (List String) :=
  items.mapM (fun item => (item.get "job").map (Json.textOf str))

/-- The jobs of `plan.get("branch_jobs") or []`. -/
def plannedJobs (str : Json → String) (plan : Json) : Option (List String) :=
  match (plan.get "branch_jobs").getD .null with
  | .arr items => jobTexts str items
  | other => if other.truthy then none else some []

/-- `_check_against_aggregate_plan`: the CID of the pinned plan this binding keeps to. -/
def checkAgainstAggregatePlan (h : BindHost) (run : Run) (branches : List Branch) :
    Except BindError (Option String) :=
  match run.aggregatePlanCid with
  | none => pure none
  | some planCid =>
    if planCid.isEmpty then pure none
    else do
      let bytes ← (h.catBytes planCid).mapError (fun _ => .planUnreadable planCid)
      let plan ← require (loadsBytes bytes) (.planUnreadable planCid)
      failIf (plan.isObj = false) .planMalformed
      let parameters ← require (plan.dictMember "combiner_parameters") .planMalformed
      let bonsol ← require (plan.dictMember "bonsol") .planMalformed
      let planned ← require (plannedJobs h.str plan) .planMalformed
      let bound := branches.map Branch.job
      let image := Json.textOf h.str ((bonsol.get "image_id").getD (.str ""))
      let differences :=
        (if ((plan.get "combiner").getD .null).equal (.str run.combiner) = false
          then ["combiner"] else []) ++
        (if parameters.equal run.combinerParameters = false then ["combiner_parameters"] else []) ++
        (if image ≠ "" ∧ image ≠ hex h.imageId then ["reducer image"] else []) ++
        (if planned ≠ [] ∧ planned ≠ bound then ["branch set"] else [])
      failIf (differences ≠ []) (.departs planCid differences)
      pure (some planCid)

/-- `manifest.get("output_schema", {}).get("category_dictionary")`. -/
def categoryDictionary (manifest : Json) : Option Json :=
  ((manifest.get "output_schema").getD (.obj [])).get "category_dictionary"

/-- The members of a dictionary. -/
def membersOf : Json → Option (List (String × Json))
  | .obj fs => some fs
  | _ => none

/-- The parameters the artifact carries: a vote also carries the size of its dictionary. -/
def bindParameters (run : Run) : Except BindError Json := do
  let parameters ← require (membersOf run.combinerParameters) .manifestMalformed
  if run.combiner = "majority-vote" then do
    let dictionary ← require (listOf (categoryDictionary run.parentManifest)) .noDictionary
    failIf (dictionary = []) .noDictionary
    pure (.obj (Json.setKey parameters "category_dictionary_size" (.int dictionary.length)))
  else pure (.obj parameters)

/-- The record of a branch in the artifact. -/
def artifactEntry (branch : Branch) : Except BindError Json := do
  let resultBytes ← require (fromhex branch.resultBytes.toList) .notHex
  pure (.obj [
    ("branch_index",.int branch.branchIndex),
    ("job",.str branch.job),
    ("output_cid",.str branch.outputCid),
    ("result_bytes",.str (Reducer.encodeHex resultBytes)),
    ("result_hash",.str (hex (sha256 resultBytes))),
    ("weight",.int branch.weight)])

/-- `artifact`. -/
def artifactDocument (run : Run) (outputSchemaHash : Json) (combinerId : ℕ) (parameters : Json)
    (entries : List Json) (aggregatePlanCid : Option String) : Json :=
  .obj ([
    ("schema",.str aggregateSchema),
    ("schema_version",.int aggregateSchemaVersion),
    ("parent_run",.str run.parentRun),
    ("parent_manifest_cid",.str run.parentManifestCid),
    ("output_schema_hash",outputSchemaHash),
    ("combiner",.str run.combiner),
    ("combiner_id",.int combinerId),
    ("combiner_parameters",parameters),
    ("branches",.arr entries)] ++
    match aggregatePlanCid with
    | some cid => [("aggregate_plan_cid",.str cid)]
    | none => [])

def branchLe (a b : Branch) : Prop := a.branchIndex ≤ b.branchIndex

instance : DecidableRel branchLe :=
  fun a b => inferInstanceAs (Decidable (a.branchIndex ≤ b.branchIndex))

/-- `build_aggregate_artifact`: canonical `MFA3` bytes. -/
def buildAggregateArtifact (run : Run) (outputSchemaHash parameters : Json)
    (branches : List Branch) (aggregatePlanCid : Option String) : Except BindError Bytes := do
  let combinerId ← require (combinerIds.lookup run.combiner)
    (.rejected (.unknownCombiner run.combiner))
  let entries ← (branches.insertionSort branchLe).mapM artifactEntry
  canonicalJsonBytes .notFinite
    (artifactDocument run outputSchemaHash combinerId parameters entries aggregatePlanCid)

/-- The artifact `predict bind-aggregate` builds from collected branches, and its journal. -/
def bindBranches (run : Run) (branches : List Branch) (planCid : Option String) :
    Except BindError (Bytes × AggregateJournal) := do
  let parameters ← bindParameters run
  let outputSchemaHash ← require (run.parentManifest.get "output_schema_hash") .manifestMalformed
  let artifact ← buildAggregateArtifact run outputSchemaHash parameters branches planCid
  let journal ← (aggregateJournal loadsBytes artifact).mapError .rejected
  pure (artifact,journal)

/-- `predict bind-aggregate`: the artifact the aggregate job is opened against. -/
def predictBindAggregate (h : BindHost) (run : Run) (allowCompleted : Bool) :
    Except BindError (Bytes × AggregateJournal) := do
  let branches ← collectBranchReceipts h run allowCompleted
  let planCid ← checkAgainstAggregatePlan h run branches
  bindBranches run branches planCid

end Binding

end Kswarm.Cli
