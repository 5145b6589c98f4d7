import Kswarm.Planner.Identity

/-! The manifests of a swarm run (`swarm.mjs`). A receipt manifest records what one child job read
and produced; the aggregate manifest lists the receipts. Each ends in a hash of its own canonical
text, so the aggregate hash commits to every member of every receipt. -/
namespace Kswarm.Planner
open JsValue

/-- The members of an object, without numbers and without a `__proto__`. -/
abbrev Members := List (String × JsValue)

/-- `{ ...members, [key]: value }`. -/
def spread (members : Members) (key : String) (value : JsValue) : Members :=
  if key ∈ members.map Prod.fst then
    members.map (fun p => if p.1 = key then (key,value) else p)
  else members ++ [(key,value)]

/-- A proof with the lane it is for. -/
def buildProofDescriptor (kind : CodeUnits) (proof : Option Members) : JsValue :=
  match proof with
  | some members => .obj (spread members "system" (.text kind))
  | none => .null

/-- What a receipt repeats of a child job. -/
structure JobFields where
  branchKey : CodeUnits
  childJobId : CodeUnits
  kind : CodeUnits
  parentRequestId : CodeUnits
  verificationMode : CodeUnits

def ExecutionJob.fields (job : ExecutionJob) : JobFields where
  branchKey := job.branchKey
  childJobId := job.childJobId
  kind := js "execute"
  parentRequestId := job.parentRequestId
  verificationMode := job.verificationMode

/-- A receipt before its hash. -/
structure Receipt where
  branchKey : CodeUnits
  childJobId : CodeUnits
  executorIdentity : CodeUnits
  inputCid : CodeUnits
  inputHash : CodeUnits
  outputCid : CodeUnits
  outputHash : CodeUnits
  parentRequestId : CodeUnits
  /-- `proofBundle.zkvm`. -/
  zkvm : JsValue
  role : CodeUnits
  verificationMode : CodeUnits

def Receipt.value (r : Receipt) : JsValue := .obj [
  ("branchKey",.text r.branchKey),
  ("childJobId",.text r.childJobId),
  ("executorIdentity",.text r.executorIdentity),
  ("inputCid",.text r.inputCid),
  ("inputHash",.text r.inputHash),
  ("outputCid",.text r.outputCid),
  ("outputHash",.text r.outputHash),
  ("parentRequestId",.text r.parentRequestId),
  ("proofBundle",.obj [("zkvm",r.zkvm)]),
  ("role",.text r.role),
  ("verificationMode",.text r.verificationMode)]

/-- What is hashed of a value. -/
def manifestBytes (value : JsValue) : Bytes := utf8 value.canonicalJson

def sha256Hex (bytes : Bytes) : CodeUnits := utf16 ((sha256 bytes).val.flatMap Reducer.hexPair)

structure ReceiptManifest extends Receipt where
  manifestHash : CodeUnits

/-- `{ ...manifest, manifestHash }`. -/
def Receipt.manifest (r : Receipt) : ReceiptManifest :=
  { r with manifestHash := sha256Hex (manifestBytes r.value) }

/-- What the aggregate repeats of a receipt. -/
structure ChildReceipt where
  branchKey : CodeUnits
  childJobId : CodeUnits
  manifestHash : CodeUnits
  outputCid : CodeUnits
  outputHash : CodeUnits

def ChildReceipt.value (c : ChildReceipt) : JsValue := .obj [
  ("branchKey",.text c.branchKey),
  ("childJobId",.text c.childJobId),
  ("manifestHash",.text c.manifestHash),
  ("outputCid",.text c.outputCid),
  ("outputHash",.text c.outputHash)]

/-- An aggregate before its hash. -/
structure Aggregate where
  branchPlanHash : CodeUnits
  childReceipts : List ChildReceipt
  inputCid : CodeUnits
  inputHash : CodeUnits
  parentRequestId : CodeUnits
  verificationPolicy : CodeUnits

def Aggregate.value (a : Aggregate) : JsValue := .obj [
  ("branchPlanHash",.text a.branchPlanHash),
  ("childReceipts",.arr (a.childReceipts.map ChildReceipt.value)),
  ("inputCid",.text a.inputCid),
  ("inputHash",.text a.inputHash),
  ("parentRequestId",.text a.parentRequestId),
  ("verificationPolicy",.text a.verificationPolicy)]

structure AggregateManifest extends Aggregate where
  aggregateHash : CodeUnits

/-- `{ ...aggregate, aggregateHash }`. -/
def Aggregate.manifest (a : Aggregate) : AggregateManifest :=
  { a with aggregateHash := sha256Hex (manifestBytes a.value) }

section Sorted

lemma sortFields_keys (fs : Members) : (sortFields fs).map Prod.fst = fs.map Prod.fst := by
  induction fs with
  | nil => rfl
  | cons p fs ih => simp [sortFields,ih]

end Sorted

/-- The same receipt, up to the order of the keys in its proof. -/
def Receipt.Same (r s : Receipt) : Prop :=
  { r with zkvm := r.zkvm.sortKeys } = { s with zkvm := s.zkvm.sortKeys }

/-- A receipt whose hash is its own. -/
def ReceiptManifest.Hashed (r : ReceiptManifest) : Prop :=
  r.manifestHash = sha256Hex (manifestBytes r.value)

/-- What a worker answers for a job. -/
structure Execution where
  executorIdentity : CodeUnits
  inputCid : CodeUnits
  inputHash : CodeUnits
  outputCid : CodeUnits
  outputHash : CodeUnits
  zkvmReceipt : Option Members
  named : executorIdentity ≠ []
  committed : inputCid ≠ [] ∧ inputHash ≠ [] ∧ outputCid ≠ [] ∧ outputHash ≠ []

def Execution.receipt (e : Execution) (job : ExecutionJob) : Receipt where
  branchKey := job.branchKey
  childJobId := job.childJobId
  executorIdentity := e.executorIdentity
  inputCid := e.inputCid
  inputHash := e.inputHash
  outputCid := e.outputCid
  outputHash := e.outputHash
  parentRequestId := job.parentRequestId
  zkvm := buildProofDescriptor (js "zkvm") e.zkvmReceipt
  role := js "execute"
  verificationMode := job.verificationMode

/-- The receipts of a run over the plan of a request. -/
def receiptsOf (parent : ParentRequest) (run : ExecutionJob → Execution) : List ReceiptManifest :=
  (parent.branches.map (buildExecutionChildJob parent)).map
    (fun job => ((run job).receipt job).manifest)

end Kswarm.Planner
