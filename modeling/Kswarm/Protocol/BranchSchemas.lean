import Kswarm.Lib.CharData
import Kswarm.Lib.JsonSame
import Kswarm.Reducer.Mfb2

/-! The documents a branch worker reads and writes (`branch_schemas.py`). A validated output is a
record of fields together with the checks its model makes, so an invalid one cannot be built. -/
namespace Kswarm.Protocol

/-- The fields of `BranchInput`. -/
structure BranchInput where
  schemaVersion : ℤ
  parentJob : String
  branchIndex : ℕ
  seed : String
  parameters : List (String × Json)
  personaSetCid : Option String
  rngSeed : ℕ
  targetOutputKind : OutputKind
  scalarGridBps : Option ℕ

/-- The fields of `BranchOutput`. -/
structure OutputFields where
  schemaVersion : ℤ
  parentJob : String
  branchIndex : ℕ
  outputKind : OutputKind
  scalarValueBps : Option ℕ
  scalarConfidenceLowerBps : Option ℕ
  scalarConfidenceUpperBps : Option ℕ
  categoricalLabelIndex : Option ℕ
  narrativeText : Option String
  narrativeScores : Option (List (String × ℕ))
  rngSeed : ℕ
  llmModel : String
  llmVersionHash : String
  completedAtUnix : ℕ
  transcriptCid : String
  zkvmReceiptCid : Option String
  deriving DecidableEq

def optInt : Option ℕ → Json
  | some n => .int n
  | none => .null

def optStr : Option String → Json
  | some s => .str s
  | none => .null

/-- A dictionary of integers. -/
def intDict (scores : List (String × ℕ)) : Json := .obj (scores.map (fun p => (p.1,.int p.2)))

def optDict : Option (List (String × ℕ)) → Json
  | some s => intDict s
  | none => .null

/-- `BranchInput.model_dump(mode="json", exclude_none=False)`. -/
def BranchInput.modelDump (i : BranchInput) : Json := .obj [
  ("schema_version",.int i.schemaVersion),
  ("parent_job",.str i.parentJob),
  ("branch_index",.int i.branchIndex),
  ("seed",.str i.seed),
  ("parameters",.obj i.parameters),
  ("persona_set_cid",optStr i.personaSetCid),
  ("rng_seed",.int i.rngSeed),
  ("target_output_kind",.str i.targetOutputKind.name),
  ("scalar_grid_bps",optInt i.scalarGridBps)]

namespace OutputFields

/-- A score key: not empty, and alphanumeric once its underscores are gone. -/
def validKey [CharData] (key : String) : Bool :=
  !key.isEmpty && isalnum (key.toList.filter (· ≠ '_'))

def inRange (max : ℕ) (v : Option ℕ) : Bool := v.all (fun n => decide (n ≤ max))

/-- The field constraints of the model. -/
def ranges (f : OutputFields) : Bool :=
  inRange 10000 f.scalarValueBps && inRange 10000 f.scalarConfidenceLowerBps &&
    inRange 10000 f.scalarConfidenceUpperBps && inRange 255 f.categoricalLabelIndex

/-- The fields a kind requires. -/
def kindShape (f : OutputFields) : Bool :=
  match f.outputKind with
  | .scalar => f.scalarValueBps.isSome
  | .categorical => f.categoricalLabelIndex.isSome
  | .narrativeWithScalar =>
    f.narrativeText.any (fun t => !t.isEmpty) && f.narrativeScores.any (fun s => !s.isEmpty)

def boundsOrdered (f : OutputFields) : Bool :=
  match f.scalarConfidenceLowerBps,f.scalarConfidenceUpperBps with
  | some lower,some upper => decide (lower ≤ upper)
  | _,_ => true

/-- Every key is well formed and every score a basis-point value. -/
def scoresValid [CharData] (f : OutputFields) : Bool :=
  f.narrativeScores.all (fun s => s.all (fun p => validKey p.1 && decide (p.2 ≤ 10000)))

/-- A dictionary has each key once. -/
def keysDistinct (f : OutputFields) : Prop := ∀ s ∈ f.narrativeScores, (s.map Prod.fst).Nodup

instance (f : OutputFields) : Decidable f.keysDistinct :=
  match h : f.narrativeScores with
  | none => isTrue (by simp [keysDistinct,h])
  | some s => decidable_of_iff ((s.map Prod.fst).Nodup) (by simp [keysDistinct,h])

/-- `BranchOutput` accepts the fields. -/
def Valid [CharData] (f : OutputFields) : Prop :=
  f.ranges = true ∧ f.kindShape = true ∧ f.boundsOrdered = true ∧ f.scoresValid = true ∧
    f.keysDistinct

instance [CharData] (f : OutputFields) : Decidable f.Valid := inferInstanceAs (Decidable (_ ∧ _))

/-- `BranchOutput.model_dump(mode="json", exclude_none=False)`. -/
def modelDump (f : OutputFields) : Json := .obj [
  ("schema_version",.int f.schemaVersion),
  ("parent_job",.str f.parentJob),
  ("branch_index",.int f.branchIndex),
  ("output_kind",.str f.outputKind.name),
  ("scalar_value_bps",optInt f.scalarValueBps),
  ("scalar_confidence_lower_bps",optInt f.scalarConfidenceLowerBps),
  ("scalar_confidence_upper_bps",optInt f.scalarConfidenceUpperBps),
  ("categorical_label_index",optInt f.categoricalLabelIndex),
  ("narrative_text",optStr f.narrativeText),
  ("narrative_scores",optDict f.narrativeScores),
  ("rng_seed",.int f.rngSeed),
  ("llm_model",.str f.llmModel),
  ("llm_version_hash",.str f.llmVersionHash),
  ("completed_at_unix",.int f.completedAtUnix),
  ("transcript_cid",.str f.transcriptCid),
  ("zkvm_receipt_cid",optStr f.zkvmReceiptCid)]

/-- The stable fields that verifier and worker must match. -/
def canonicalHashPreimage (f : OutputFields) : Json :=
  f.modelDump.without ["narrative_text","completed_at_unix","zkvm_receipt_cid"]

end OutputFields

/-- A validated output. -/
structure BranchOutput [CharData] extends OutputFields where
  valid : toOutputFields.Valid

namespace BranchOutput
variable [CharData]

/-- The constructor of the model, which refuses what does not validate. -/
def ofFields (f : OutputFields) : Option BranchOutput :=
  if h : f.Valid then some ⟨f,h⟩ else none

/-- `model_copy` of the fields the model does not constrain. -/
def copy (o : BranchOutput) (transcriptCid : String) (completedAtUnix : ℕ) : BranchOutput :=
  ⟨{ o.toOutputFields with transcriptCid,completedAtUnix },o.valid⟩

def withReceipt (o : BranchOutput) (cid : Option String) : BranchOutput :=
  ⟨{ o.toOutputFields with zkvmReceiptCid := cid },o.valid⟩

end BranchOutput

section Facts
variable (f : OutputFields)

lemma plain_optInt (v : Option ℕ) : (optInt v).Plain := by cases v <;> trivial

lemma plain_optStr (v : Option String) : (optStr v).Plain := by cases v <;> trivial

lemma plain_optDict {v : Option (List (String × ℕ))} (h : ∀ s ∈ v, (s.map Prod.fst).Nodup) :
    (optDict v).Plain := by
  cases v with
  | none => trivial
  | some s =>
    refine ⟨?_,?_⟩
    · rw [List.map_map]
      exact h s rfl
    · rw [Json.plainFields_iff]
      intro p hp
      obtain ⟨q,-,rfl⟩ := List.mem_map.mp hp
      trivial

/-- A dumped output repeats no key and holds no binary64 number. -/
theorem plain_modelDump (h : f.keysDistinct) : f.modelDump.Plain := by
  refine ⟨?_,?_⟩
  · simp only [List.map_cons,List.map_nil]
    decide
  rw [Json.plainFields_iff]
  simp only [List.forall_mem_cons]
  exact ⟨trivial,trivial,trivial,trivial,plain_optInt _,plain_optInt _,plain_optInt _,
    plain_optInt _,plain_optStr _,plain_optDict h,trivial,trivial,trivial,trivial,trivial,
    plain_optStr _,by simp⟩

theorem plain_preimage (h : f.keysDistinct) : f.canonicalHashPreimage.Plain :=
  (plain_modelDump f h).without _

end Facts

end Kswarm.Protocol
