import Kswarm.Reducer.Encoding
import Kswarm.Reducer.Mfb2
import Kswarm.Reducer.Merkle

/-! The aggregate artifact and the journal the aggregate guest commits (`aggregate.rs`). The guest
reads `combiner_id`, `combiner_parameters` and `branches`, hashes every branch receipt itself,
decodes the branch values out of the receipt bytes and commits what the combiner makes of them. -/
namespace Kswarm.Reducer

def aggregateSchema : String := "MFA3"
def aggregateSchemaVersion : ℕ := 3
def maxBranches : ℕ := 128

inductive AggregateError where
  | notJson
  | notAnObject
  | missingField (field : String)
  | wrongType (field : String)
  | unknownSchema (schema : String)
  | unknownSchemaVersion (version : ℕ)
  | combinerIdMismatch
  | branchesEmpty
  | tooManyBranches (count : ℕ)
  | branchIndexNotIncreasing (position : ℕ)
  | branchIndexMismatch (declared encoded : ℕ)
  | resultHashMismatch (branchIndex : ℕ)
  | zeroWeight (branchIndex : ℕ)
  | nonUniformWeightForTrimmedMean (branchIndex : ℕ)
  | badHex (field : String)
  | badReceipt (branchIndex : ℕ) (error : Mfb2Error)
  | missingScalar (branchIndex : ℕ)
  | missingLabel (branchIndex : ℕ)
  | labelOutsideDictionary (branchIndex : ℕ) (label : UInt8)
  | dictionarySizeMissing
  | combiner (error : CombinerError)
  deriving DecidableEq

/-- `Value::as_str`. -/
def asStr : Json → Option String
  | .str s => some s
  | _ => none

/-- `Value::as_u64`: an integer outside `u64` is not one of the integers a `Value` holds. -/
def asU64 : Json → Option ℕ
  | .int n => if 0 ≤ n ∧ n < 2^64 then some n.toNat else none
  | _ => none

/-- `Value::as_array`. -/
def asArray : Json → Option (List Json)
  | .arr xs => some xs
  | _ => none

def stringField (value : Json) (field : String) : Except AggregateError String := do
  let found ← require (value.get field) (.missingField field)
  require (asStr found) (.wrongType field)

def u64Field (value : Json) (field : String) : Except AggregateError ℕ := do
  let found ← require (value.get field) (.missingField field)
  require (asU64 found) (.wrongType field)

/-- `u32::try_from`. -/
def tryU32 (raw : ℕ) : Option ℕ := if raw < 2^32 then some raw else none

def u32Field (value : Json) (field : String) : Except AggregateError ℕ := do
  let raw ← u64Field value field
  require (tryU32 raw) (.wrongType field)

def optionalU32 (value : Json) (field : String) : Except AggregateError (Option ℕ) :=
  match value.get field with
  | none => pure none
  | some .null => pure none
  | some found => do
    let raw ← require (asU64 found) (.wrongType field)
    let narrow ← require (tryU32 raw) (.wrongType field)
    pure (some narrow)

def combinerNameId (name : String) : Option ℕ :=
  if name = "weighted-mean" then some combinerWeightedMean
  else if name = "trimmed-mean" then some combinerTrimmedMean
  else if name = "majority-vote" then some combinerMajorityVote
  else none

/-- Everything the guest derived from the artifact, before it is framed as a journal. -/
structure AggregateReduction where
  combinerId : ℕ
  params : CombinerParams
  paramsDigest : Digest
  resultValue : ℕ
  branchCount : ℕ
  branchHashes : List Digest
  merkleRoot : Digest
  deriving DecidableEq

/-- `combiner_id || params_digest || result_value || branch_count || merkle_root`. -/
def aggregateCommittedOutputs (reduction : AggregateReduction) : Bytes :=
  [UInt8.ofNat reduction.combinerId] ++ reduction.paramsDigest.val ++
    leBytes 4 reduction.resultValue ++ leBytes 4 reduction.branchCount ++ reduction.merkleRoot.val

structure AggregateJournal where
  inputDigest : Digest
  reduction : AggregateReduction
  deriving DecidableEq

def AggregateJournal.committedOutputs (j : AggregateJournal) : Bytes :=
  aggregateCommittedOutputs j.reduction

def AggregateJournal.outputDigest (j : AggregateJournal) : Digest := sha256 j.committedOutputs

def AggregateJournal.journalHash (j : AggregateJournal) : Digest :=
  Reducer.journalHash j.inputDigest j.committedOutputs

/-- The vectors the branch loop fills, and the index it compares the next branch against. -/
structure LoopState where
  branchHashes : List Digest
  scalars : List WeightedValue
  scalarValues : List ℤ
  votes : List CategoricalVote
  previousIndex : Option ℕ

def LoopState.start : LoopState := ⟨[],[],[],[],none⟩

/-- One turn of the loop over `branches`. -/
def branchStep (combinerId : ℕ) (params : CombinerParams) (st : LoopState)
    (item : Json × ℕ) : Except AggregateError LoopState := do
  let branch := item.1
  failIf (branch.isObj = false) (.wrongType "branches[]")
  let declaredIndex ← u32Field branch "branch_index"
  failIf (st.previousIndex.any (fun previous => decide (declaredIndex ≤ previous)) = true)
    (.branchIndexNotIncreasing item.2)
  let receiptHex ← stringField branch "result_bytes"
  let receipt ← require (decodeHex receiptHex) (.badHex "result_bytes")
  let parsed ← (parseBranchResultBytes receipt).mapError (.badReceipt declaredIndex)
  failIf (parsed.branchIndex ≠ declaredIndex)
    (.branchIndexMismatch declaredIndex parsed.branchIndex)
  let hashHex ← stringField branch "result_hash"
  let declaredHash ← require (decodeHexArray hashHex) (.badHex "result_hash")
  failIf (declaredHash ≠ parsed.resultHash) (.resultHashMismatch declaredIndex)
  let weight ← u64Field branch "weight"
  failIf (weight = 0) (.zeroWeight declaredIndex)
  failIf (combinerId = combinerTrimmedMean ∧ weight ≠ 1)
    (.nonUniformWeightForTrimmedMean declaredIndex)
  if combinerId = combinerMajorityVote then do
    let label ← require parsed.categoricalLabelIndex (.missingLabel declaredIndex)
    failIf (params.categoryDictionarySize = 0) .dictionarySizeMissing
    failIf (params.categoryDictionarySize ≤ label.toNat)
      (.labelOutsideDictionary declaredIndex label)
    pure { st with
      branchHashes := st.branchHashes ++ [parsed.resultHash]
      votes := st.votes ++ [⟨label.toNat,weight⟩]
      previousIndex := some declaredIndex }
  else do
    failIf (parsed.outputKind.carriesScalar = false) (.missingScalar declaredIndex)
    let scalar ← require parsed.scalarValueBps (.missingScalar declaredIndex)
    pure { st with
      branchHashes := st.branchHashes ++ [parsed.resultHash]
      scalars := st.scalars ++ [⟨scalar,weight⟩]
      scalarValues := st.scalarValues ++ [(scalar : ℤ)]
      previousIndex := some declaredIndex }

/-- `match combiner_id` over the filled vectors. -/
def combine (combinerId : ℕ) (params : CombinerParams) (st : LoopState) :
    Except CombinerError ℕ :=
  if combinerId = combinerWeightedMean then weightedMeanBps st.scalars
  else if combinerId = combinerTrimmedMean then do
    let outlierCount ← trimCountFromBps st.scalarValues.length params.trimBps
    trimmedMeanBps st.scalarValues outlierCount
  else if combinerId = combinerMajorityVote then majorityVote st.votes
  else .error .unknownCombiner

/-- The reduction once the header is read: the branch loop, the combiner and the root. -/
def reduceBranches (combinerId : ℕ) (params : CombinerParams) (branches : List Json) :
    Except AggregateError AggregateReduction := do
  failIf (branches = []) .branchesEmpty
  failIf (maxBranches < branches.length) (.tooManyBranches branches.length)
  let st ← branches.zipIdx.foldlM (branchStep combinerId params) .start
  let resultValue ← (combine combinerId params st).mapError .combiner
  let merkleRoot ← (sortedBranchesMerkleRoot st.branchHashes).mapError .combiner
  pure {
    combinerId,params,resultValue,merkleRoot
    paramsDigest := combinerParamsDigest combinerId params
    branchCount := st.branchHashes.length
    branchHashes := st.branchHashes }

/-- The reduction of a parsed artifact. -/
def reduceValue (value : Json) : Except AggregateError AggregateReduction := do
  failIf (value.isObj = false) .notAnObject
  let schema ← stringField value "schema"
  failIf (schema ≠ aggregateSchema) (.unknownSchema schema)
  let schemaVersion ← u64Field value "schema_version"
  failIf (schemaVersion ≠ aggregateSchemaVersion) (.unknownSchemaVersion schemaVersion)
  let combinerId ← u64Field value "combiner_id"
  failIf (255 < combinerId) (.wrongType "combiner_id")
  (validateCombinerId combinerId).mapError .combiner
  -- The name and the id must agree, so no reader can be looking at two different combiners.
  let combinerName ← stringField value "combiner"
  failIf (combinerNameId combinerName ≠ some combinerId) .combinerIdMismatch
  let parameters ← require (value.get "combiner_parameters") (.missingField "combiner_parameters")
  failIf (parameters.isObj = false) (.wrongType "combiner_parameters")
  let trimBps ← optionalU32 parameters "trim_bps"
  let categoryDictionarySize ← optionalU32 parameters "category_dictionary_size"
  let found ← require (value.get "branches") (.missingField "branches")
  let branches ← require (asArray found) (.wrongType "branches")
  reduceBranches combinerId ⟨trimBps.getD 0,categoryDictionarySize.getD 0⟩ branches

/-- `serde_json::from_slice`, which is outside this crate, is the parameter `fromSlice`. -/
def reduceAggregateArtifact (fromSlice : Bytes → Option Json) (artifact : Bytes) :
    Except AggregateError AggregateReduction := do
  let value ← require (fromSlice artifact) .notJson
  reduceValue value

/-- Reduce a framed artifact into its journal. This is the whole guest. -/
def aggregateJournal (fromSlice : Bytes → Option Json) (artifact : Bytes) :
    Except AggregateError AggregateJournal := do
  let reduction ← reduceAggregateArtifact fromSlice artifact
  pure ⟨framedInputDigest artifact,reduction⟩

/-- The receipts an artifact carries, decoded. -/
def receiptsOf (value : Json) : List Bytes :=
  (((value.get "branches").bind asArray).getD []).filterMap (fun branch =>
    ((branch.get "result_bytes").bind asStr).bind decodeHex)

/-- Every string an accepting reduction hashes: the parameter line, each receipt and the strings
of the Merkle tree. -/
def reductionHashed (value : Json) (reduction : AggregateReduction) : List Bytes :=
  combinerParamsCanonicalBytes reduction.combinerId reduction.params ::
    (receiptsOf value ++ merkleHashed reduction.branchHashes)

end Kswarm.Reducer
