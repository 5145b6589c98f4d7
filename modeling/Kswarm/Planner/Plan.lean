import Kswarm.Lib.JsJson
import Kswarm.Lib.Outcome
import Kswarm.Lib.Number
import Kswarm.Reducer.Encoding

/-! The swarm planner (`swarm.mjs`): a parent request is normalized into branches and expanded into
child jobs. The hash of the branch plan, which no id and no share depends on, is left out. -/
namespace Kswarm.Planner

def js (s : String) : CodeUnits := utf16 s.toList

/-- A string that is there and not empty. -/
def truthy : Option CodeUnits → Option CodeUnits
  | some (u::us) => some (u::us)
  | _ => none

/-- `s || d`. -/
def textOr (s : Option CodeUnits) (d : CodeUnits) : CodeUnits := (truthy s).getD d

/-- A branch template; any field may be missing. -/
structure Template where
  branchKey : Option CodeUnits
  deterministicReducer : Option Bool
  highValue : Option Bool
  requiredStakeMultiplier : Option IntegerNumber
  scenarioLabel : Option CodeUnits
  verificationMode : Option CodeUnits
  zkvmProgramDigest : Option CodeUnits

structure Branch where
  branchKey : CodeUnits
  deterministicReducer : Bool
  highValue : Bool
  requiredStakeMultiplier : IntegerNumber
  scenarioLabel : CodeUnits
  verificationMode : CodeUnits
  zkvmProgramDigest : Option CodeUnits

def normalizeBranchTemplate (branch : Template) (index : ℕ) : Branch :=
  let branchKey := textOr branch.branchKey (js "branch-" ++ utf16 (decimal (index+1)))
  { branchKey
    deterministicReducer := branch.deterministicReducer.getD true
    highValue := branch.highValue.getD false
    requiredStakeMultiplier := .orElse branch.requiredStakeMultiplier .one
    scenarioLabel := textOr branch.scenarioLabel branchKey
    verificationMode := textOr branch.verificationMode (js "proof-only")
    zkvmProgramDigest := truthy branch.zkvmProgramDigest }

/-- The argument of `buildParentSwarmRequest`. Templates that are not an array are none; an array
has fewer than `2^32` elements. -/
structure Request where
  aggregateZkvmProgramDigest : Option CodeUnits
  branchPlanName : CodeUnits
  branchTemplates : Option (List Template)
  inputCid : Option CodeUnits
  inputHash : Option CodeUnits
  parentRequestId : Option CodeUnits
  rewardBudget : IntegerNumber
  simulationObjective : Option CodeUnits
  verificationPolicy : CodeUnits
  sized : ∀ templates ∈ branchTemplates, templates.length < 2^32

structure ParentRequest where
  aggregateZkvmProgramDigest : Option CodeUnits
  branchPlanName : CodeUnits
  branches : List Branch
  inputCid : CodeUnits
  inputHash : CodeUnits
  parentRequestId : CodeUnits
  rewardBudget : IntegerNumber
  simulationObjective : Option CodeUnits
  verificationPolicy : CodeUnits

def buildParentSwarmRequest (r : Request) : Except String ParentRequest := do
  let parentRequestId ← require (truthy r.parentRequestId) "parentRequestId is required"
  let inputCid ← require (truthy r.inputCid) "inputCid is required"
  let inputHash ← require (truthy r.inputHash) "inputHash is required"
  let templates ← require r.branchTemplates "branchTemplates must contain at least one branch"
  failIf (templates.length = 0) "branchTemplates must contain at least one branch"
  pure {
    aggregateZkvmProgramDigest := r.aggregateZkvmProgramDigest
    branchPlanName := r.branchPlanName
    branches := templates.mapIdx (fun index branch => normalizeBranchTemplate branch index)
    inputCid, inputHash, parentRequestId
    rewardBudget := r.rewardBudget
    simulationObjective := r.simulationObjective
    verificationPolicy := r.verificationPolicy }

/-- The canonical text of a document under its digest. -/
def digestText (text : List Char) : CodeUnits :=
  utf16 (((sha256 (utf8 text)).val.flatMap Reducer.hexPair).take 32)

def digestFor (value : JsValue) : CodeUnits := digestText value.canonicalJson

/-- The program digest the zkVM lane requires, if it is on. -/
def buildProofRequirements (branch : Branch) : Option CodeUnits :=
  if branch.deterministicReducer then
    some (textOr branch.zkvmProgramDigest (js "deterministic-reducer-v1"))
  else none

/-- `proofRequirements` as a value. -/
def requirementsValue (zkvm : Option CodeUnits) : JsValue :=
  .obj [("zkvm",match zkvm with
    | some programDigest => .obj [("programDigest",.text programDigest),("required",.bool true)]
    | none => .null)]

def computeRewardShare (parent : ParentRequest) (branch : Branch) (verificationWeight : ℚ) : ℕ∞ :=
  let budget := parent.rewardBudget.value
  let multiplier := (IntegerNumber.orElse (some branch.requiredStakeMultiplier) .one).value
  if 0 < budget then
    Number.atLeastOne (Number.floor (Number.dividedBy
      (Number.times (Number.times (some budget) multiplier) verificationWeight)
      parent.branches.length))
  else 0

structure ExecutionJob where
  branchKey : CodeUnits
  childJobId : CodeUnits
  deterministicReducer : Bool
  parentRequestId : CodeUnits
  proofRequirements : Option CodeUnits
  rewardShare : ℕ∞
  scenarioLabel : CodeUnits
  verificationMode : CodeUnits

structure VerificationJob where
  branchKey : CodeUnits
  childJobId : CodeUnits
  parentRequestId : CodeUnits
  rewardShare : ℕ∞
  scenarioLabel : CodeUnits
  targetChildJobId : CodeUnits
  verificationMode : CodeUnits

structure AggregateJob where
  branchKey : CodeUnits
  childJobId : CodeUnits
  inputChildren : List CodeUnits
  parentRequestId : CodeUnits
  programDigest : Option CodeUnits
  rewardShare : ℕ∞
  scenarioLabel : CodeUnits
  verificationMode : CodeUnits

inductive ChildJob where
  | execute (job : ExecutionJob)
  | verify (job : VerificationJob)

def ChildJob.childJobId : ChildJob → CodeUnits
  | .execute job => job.childJobId
  | .verify job => job.childJobId

def ChildJob.rewardShare : ChildJob → ℕ∞
  | .execute job => job.rewardShare
  | .verify job => job.rewardShare

def ChildJob.execution : ChildJob → Option ExecutionJob
  | .execute job => some job
  | .verify _ => none

/-- What the id of an execution job is a digest of. -/
def executionValue (parentRequestId : CodeUnits) (branch : Branch) : JsValue := .obj [
  ("branchKey",.text branch.branchKey),
  ("kind",.text (js "execute")),
  ("parentRequestId",.text parentRequestId),
  ("proofRequirements",requirementsValue (buildProofRequirements branch)),
  ("scenarioLabel",.text branch.scenarioLabel)]

def buildExecutionChildJob (parent : ParentRequest) (branch : Branch) : ExecutionJob where
  branchKey := branch.branchKey
  childJobId := digestFor (executionValue parent.parentRequestId branch)
  deterministicReducer := branch.deterministicReducer
  parentRequestId := parent.parentRequestId
  proofRequirements := buildProofRequirements branch
  rewardShare := computeRewardShare parent branch 1
  scenarioLabel := branch.scenarioLabel
  verificationMode := branch.verificationMode

def verificationValue (parentRequestId branchKey targetChildJobId : CodeUnits) : JsValue := .obj [
  ("branchKey",.text branchKey),
  ("kind",.text (js "verify")),
  ("parentRequestId",.text parentRequestId),
  ("targetChildJobId",.text targetChildJobId)]

def buildVerificationChildJob (parent : ParentRequest) (executionChild : ExecutionJob)
    (branch : Branch) : VerificationJob where
  branchKey := branch.branchKey
  childJobId := digestFor (verificationValue parent.parentRequestId branch.branchKey
    executionChild.childJobId)
  parentRequestId := parent.parentRequestId
  rewardShare := computeRewardShare parent branch (1/2)
  scenarioLabel := branch.scenarioLabel ++ js "-verification"
  targetChildJobId := executionChild.childJobId
  verificationMode := js "replicated-rerun"

/-- The keys in the order they are written. -/
def aggregateValue (parentRequestId : CodeUnits) (childJobIds : List CodeUnits) : JsValue := .obj [
  ("kind",.text (js "aggregate")),
  ("parentRequestId",.text parentRequestId),
  ("childJobIds",.arr (childJobIds.map .text))]

def buildAggregateChildJob (parent : ParentRequest) (childJobs : List ChildJob) : AggregateJob where
  branchKey := js "aggregate"
  childJobId := digestFor (aggregateValue parent.parentRequestId
    (childJobs.map ChildJob.childJobId))
  inputChildren := (childJobs.filterMap ChildJob.execution).map ExecutionJob.childJobId
  parentRequestId := parent.parentRequestId
  programDigest := (truthy parent.aggregateZkvmProgramDigest).or
    ((childJobs.findSome? ChildJob.execution).bind ExecutionJob.proofRequirements)
  rewardShare := 0
  scenarioLabel := js "aggregate"
  verificationMode := js "proof-only"

/-- The jobs of one branch. -/
def branchJobs (parent : ParentRequest) (branch : Branch) : List ChildJob :=
  let executionChild := buildExecutionChildJob parent branch
  .execute executionChild ::
    if branch.verificationMode = js "replicated-rerun" then
      [.verify (buildVerificationChildJob parent executionChild branch)]
    else []

structure SwarmPlan where
  aggregateChildJob : AggregateJob
  childJobs : List ChildJob

def expandParentIntoChildJobs (parent : ParentRequest) : Except String SwarmPlan := do
  failIf (parent.branches.length = 0) "parentRequest.branches is required"
  let childJobs := parent.branches.flatMap (branchJobs parent)
  pure { aggregateChildJob := buildAggregateChildJob parent childJobs, childJobs }

/-- An accepted request has branches, no more than an array holds. -/
lemma branches_of_build {r : Request} {parent : ParentRequest}
    (h : buildParentSwarmRequest r = .ok parent) :
    parent.branches ≠ [] ∧ parent.branches.length < 2^32 := by
  simp only [buildParentSwarmRequest,bind_eq_ok,require_eq_ok,failIf_eq_ok,pure_eq_ok,
    exists_and_left,exists_const] at h
  obtain ⟨-,-,-,-,-,-,templates,htemplates,hne,rfl⟩ := h
  constructor
  · intro hnil
    exact hne (by simpa using congrArg List.length hnil)
  · simpa using r.sized templates htemplates

/-- The plan of an accepted request. -/
lemma expand_of_build {r : Request} {parent : ParentRequest}
    (h : buildParentSwarmRequest r = .ok parent) :
    expandParentIntoChildJobs parent = .ok {
      aggregateChildJob := buildAggregateChildJob parent (parent.branches.flatMap (branchJobs parent))
      childJobs := parent.branches.flatMap (branchJobs parent) } := by
  have hne : ¬parent.branches.length = 0 :=
    fun h0 => (branches_of_build h).1 (List.length_eq_zero_iff.mp h0)
  rw [expandParentIntoChildJobs,failIf_of_not hne]
  rfl

end Kswarm.Planner
