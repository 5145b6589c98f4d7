import Kswarm.Reducer.Mfb2
import Kswarm.Lib.JsonText
import Kswarm.Lib.ByteOrder

/-! The Python half of the aggregate reducer (`cli/kswarm_cli/aggregate.py`): the reduction the
command line predicts a journal with, over unbounded integers. Integers a check has already found
non-negative are naturals. -/
namespace Kswarm.Cli

def aggregateSchema : String := "MFA3"
def aggregateSchemaVersion : ℕ := 3
def aggregateCommittedOutputsLen : ℕ := 1+32+4+4+32
def maxBranches : ℕ := 128
def combinerWeightedMean : ℕ := 1
def combinerTrimmedMean : ℕ := 2
def combinerMajorityVote : ℕ := 3
def bpsScale : ℤ := 10000
def combinerParamsDomain : String := "kswarm-combiner-params-v1"
def mfb2Magic : Bytes := [77,70,66,50]
def mfb2SchemaVersion : UInt8 := 2
def flagScalar : UInt8 := 1
def flagLower : UInt8 := 2
def flagUpper : UInt8 := 4
def flagCategory : UInt8 := 8
def flagScores : UInt8 := 16
def flagKnown : UInt8 := flagScalar ||| flagLower ||| flagUpper ||| flagCategory ||| flagScores
def maxNarrativeScores : ℕ := 32

/-- `COMBINER_IDS`. -/
def combinerIds : List (String × ℕ) :=
  [("weighted-mean",combinerWeightedMean),("trimmed-mean",combinerTrimmedMean),
    ("majority-vote",combinerMajorityVote)]

/-- `COMBINER_NAMES`. -/
def combinerNames : List (ℕ × String) := combinerIds.map (fun p => (p.2,p.1))

/-- The raise sites of `AggregateError`, each with the values its message shows. -/
inductive AggregateError where
  | unknownCombiner (name : String)
  | merkleOverNoBranches
  | receiptTooShort
  | receiptMagic
  | receiptVersion (version : UInt8)
  | receiptKind (id : UInt8)
  | receiptFlags (flags : UInt8)
  | receiptScoreCount (count : UInt8)
  | receiptTrailingBytes
  | receiptBps (value : ℕ)
  | trimBpsOutOfRange (trimBps : ℤ)
  | weightTotalZero
  | valueNegative
  | valueOutsideRange (value : ℤ)
  | weightedMeanOverNoBranches
  | trimmedMeanOverNoBranches
  | outlierCountNegative
  | trimLeavesNothing (outlierCount : ℤ) (count : ℕ)
  | majorityVoteOverNoBranches
  | everyWeightZero
  | branchValueOutsideRange (value : ℤ)
  | notJson
  | notAnObject
  | unknownSchema (schema : String)
  | unknownSchemaVersion (version : ℕ)
  | unknownCombinerId (id : ℕ)
  | combinerNameDisagrees
  | parametersNotAnObject
  | branchesNotAnArray
  | noBranches
  | tooManyBranches (count : ℕ)
  | branchNotAnObject (position : ℕ)
  | branchIndexNotIncreasing (position : ℕ)
  | branchIndexNotCarried (declared carried : ℕ)
  | resultHashMismatch (branchIndex : ℕ)
  | zeroWeight (branchIndex : ℕ)
  | ignoredWeight (branchIndex : ℕ)
  | noLabel (branchIndex : ℕ)
  | dictionarySizeMissing
  | labelOutsideDictionary (branchIndex label : ℕ)
  | noScalar (branchIndex : ℕ)
  | mustBeString (field : String)
  | mustBeUnsigned (field : String)
  | mustBeHex (field : String)
  deriving DecidableEq

/-- The fields of an `MFB2` branch receipt an aggregate reduction reads. -/
structure BranchReceipt where
  branchIndex : ℕ
  outputKind : OutputKind
  scalarValueBps : Option ℕ
  categoricalLabelIndex : Option ℕ
  canonicalHash : Bytes
  resultHash : Digest
  deriving DecidableEq

/-- `str.encode("utf-8")`. -/
def encode (s : String) : Bytes := utf8 s.toList

/-- `f"{n}"` of a non-negative integer. -/
def decimalText (n : ℕ) : Bytes := utf8 (decimal n)

/-- One line naming every parameter of the registry. -/
def combinerParamsCanonicalBytes (combinerId trimBps categoryDictionarySize : ℕ) : Bytes :=
  encode combinerParamsDomain ++ encode "|combiner_id=" ++ decimalText combinerId ++
    encode "|trim_bps=" ++ decimalText trimBps ++
    encode "|category_dictionary_size=" ++ decimalText categoryDictionarySize

def combinerParamsDigest (combinerId trimBps categoryDictionarySize : ℕ) : Digest :=
  sha256 (combinerParamsCanonicalBytes combinerId trimBps categoryDictionarySize)

def merkleLeafHash (leaf : Digest) : Digest := sha256 (0 :: leaf.val)
def merkleNodeHash (left right : Digest) : Digest := sha256 (1 :: (left.val ++ right.val))

/-- `level[index]`; the loops below stay inside the level. -/
def levelAt (level : List Digest) (index : ℕ) : Digest :=
  level.getD index ⟨List.replicate 32 0,by simp⟩

/-- The comprehension over `range(0, len(level), 2)`. -/
def nextLevel (level : List Digest) : List Digest :=
  (List.range ((level.length+1)/2)).map (fun i =>
    if 2*i+1 < level.length then merkleNodeHash (levelAt level (2*i)) (levelAt level (2*i+1))
    else levelAt level (2*i))

/-- `while len(level) > 1`, for at most `n` passes. -/
def merkleLoop : ℕ → List Digest → List Digest
  | 0,level => level
  | n+1,level => if 1 < level.length then merkleLoop n (nextLevel level) else level

def sortedBranchesMerkleRoot (branchHashes : List Digest) : Except AggregateError Digest := do
  failIf (branchHashes = []) .merkleOverNoBranches
  let level := (branchHashes.insertionSort digestLe).map merkleLeafHash
  pure (levelAt (merkleLoop level.length level) 0)

/-- The strings one pass over a level hashes. -/
def levelHashed (level : List Digest) : List Bytes :=
  (List.range (level.length/2)).map (fun i =>
    1 :: ((levelAt level (2*i)).val ++ (levelAt level (2*i+1)).val))

def loopHashed : ℕ → List Digest → List Bytes
  | 0,_ => []
  | n+1,level =>
    if 1 < level.length then levelHashed level ++ loopHashed n (nextLevel level) else []

/-- Every string hashed by `sortedBranchesMerkleRoot`. -/
def merkleHashed (branchHashes : List Digest) : List Bytes :=
  let sorted := branchHashes.insertionSort digestLe
  let level := sorted.map merkleLeafHash
  sorted.map (fun leaf => 0 :: leaf.val) ++ loopHashed level.length level

def readU8 (data : Bytes) (offset : ℕ) : Except AggregateError (UInt8 × ℕ) := do
  failIf (data.length < offset+1) .receiptTooShort
  pure (data.getD offset 0,offset+1)

def readBps (data : Bytes) (offset : ℕ) : Except AggregateError (ℕ × ℕ) := do
  failIf (data.length < offset+2) .receiptTooShort
  let value := ofLe ((data.drop offset).take 2)
  failIf (bpsScale < value) (.receiptBps value)
  pure (value,offset+2)

def skipScores (data : Bytes) : ℕ → ℕ → Except AggregateError ℕ
  | 0,offset => pure offset
  | n+1,offset => do
    failIf (data.length < offset+4) .receiptTooShort
    let (_,offset) ← readBps data (offset+4)
    skipScores data n offset

def readScores (data : Bytes) (offset : ℕ) : Except AggregateError (Unit × ℕ) := do
  let (count,offset) ← readU8 data offset
  failIf (count = 0 ∨ maxNarrativeScores < count.toNat) (.receiptScoreCount count)
  let offset ← skipScores data count.toNat offset
  pure ((),offset)

/-- The guest's `MFB2` parser, in Python. Strict on every field. -/
def parseBranchResultBytes (data : Bytes) : Except AggregateError BranchReceipt := do
  failIf (data.length < 4+1+1+4+1+32) .receiptTooShort
  failIf (data.take 4 ≠ mfb2Magic) .receiptMagic
  let version := data.getD 4 0
  failIf (version ≠ mfb2SchemaVersion) (.receiptVersion version)
  let kindId := data.getD 5 0
  let outputKind ← require (OutputKind.fromId kindId) (.receiptKind kindId)
  let branchIndex := ofLe ((data.drop 6).take 4)
  let flags := data.getD 10 0
  failIf (flags &&& ~~~flagKnown ≠ 0) (.receiptFlags flags)
  let (scalarValueBps,offset) ← readIf (flags &&& flagScalar ≠ 0) (readBps data) 11
  let (_,offset) ← readIf (flags &&& flagLower ≠ 0) (readBps data) offset
  let (_,offset) ← readIf (flags &&& flagUpper ≠ 0) (readBps data) offset
  let (label,offset) ← readIf (flags &&& flagCategory ≠ 0) (readU8 data) offset
  let (_,offset) ← readIf (flags &&& flagScores ≠ 0) (readScores data) offset
  failIf (data.length < offset+32) .receiptTooShort
  failIf (offset+32 ≠ data.length) .receiptTrailingBytes
  pure {
    branchIndex,outputKind,scalarValueBps
    categoricalLabelIndex := label.map UInt8.toNat
    canonicalHash := (data.drop offset).take 32
    resultHash := sha256 data }

/-- `floor(branch_count * trim_bps / 10000)`. -/
def trimCountFromBps (branchCount trimBps : ℤ) : Except AggregateError ℤ := do
  failIf (trimBps < 0 ∨ bpsScale ≤ trimBps) (.trimBpsOutOfRange trimBps)
  pure (Int.fdiv (branchCount*trimBps) bpsScale)

/-- Exact integer round-half-up on a non-negative quotient. -/
def roundHalfUp (numerator denominator : ℤ) : Except AggregateError ℤ := do
  failIf (denominator ≤ 0) .weightTotalZero
  failIf (numerator < 0) .valueNegative
  let value := Int.fdiv (numerator*2 + denominator) (denominator*2)
  failIf (value < 0 ∨ bpsScale < value) (.valueOutsideRange value)
  pure value

def checkBps (value : ℤ) : Except AggregateError Unit :=
  failIf (value < 0 ∨ bpsScale < value) (.branchValueOutsideRange value)

def weightedMeanStep (acc : ℤ × ℤ) (item : ℤ × ℤ) : Except AggregateError (ℤ × ℤ) := do
  checkBps item.1
  pure (acc.1 + item.2,acc.2 + item.1*item.2)

/-- Weighted mean of `(value_bps, weight)` pairs, rounded half up. -/
def weightedMeanBps (values : List (ℤ × ℤ)) : Except AggregateError ℤ := do
  failIf (values = []) .weightedMeanOverNoBranches
  let (totalWeight,weightedSum) ← values.foldlM weightedMeanStep (0,0)
  roundHalfUp weightedSum totalWeight

def valueLe (a b : ℕ × ℤ) : Prop := a.2 ≤ b.2

instance : DecidableRel valueLe := fun a b => inferInstanceAs (Decidable (a.2 ≤ b.2))

/-- Tuple order of the key `(-abs(value - median), value, index)`. -/
def rejectionLe (median : ℤ) (a b : ℕ × ℤ) : Prop :=
  -|a.2 - median| < -|b.2 - median| ∨ (-|a.2 - median| = -|b.2 - median| ∧
    (a.2 < b.2 ∨ (a.2 = b.2 ∧ a.1 ≤ b.1)))

instance (median : ℤ) : DecidableRel (rejectionLe median) :=
  fun _ _ => inferInstanceAs (Decidable (_ ∨ _))

/-- `enumerate(values)`. -/
def enumerate (values : List ℤ) : List (ℕ × ℤ) := values.zipIdx.map (fun p => (p.2,p.1))

/-- Drop the `outlier_count` values farthest from the element at index `len/2` of the sorted
values; the retained ones keep their order. -/
def retainedValues (values : List ℤ) (outlierCount : ℤ) : Except AggregateError (List ℤ) := do
  failIf (values = []) .trimmedMeanOverNoBranches
  failIf (outlierCount < 0) .outlierCountNegative
  failIf ((values.length : ℤ) ≤ outlierCount) (.trimLeavesNothing outlierCount values.length)
  let indexed := (enumerate values).insertionSort valueLe
  let median := (indexed.getD (indexed.length/2) (0,0)).2
  let byRejection := indexed.insertionSort (rejectionLe median)
  let rejected := (byRejection.take outlierCount.toNat).map Prod.fst
  pure ((enumerate values).filterMap (fun p => if p.1 ∈ rejected then none else some p.2))

/-- Mean of the retained values, rounded half up. -/
def trimmedMeanBps (values : List ℤ) (outlierCount : ℤ) : Except AggregateError ℤ := do
  let retained ← retainedValues values outlierCount
  retained.forM checkBps
  roundHalfUp retained.sum retained.length

/-- `totals[category] = total` on an insertion-ordered dictionary. -/
def dictSet (category total : ℤ) : List (ℤ × ℤ) → List (ℤ × ℤ)
  | [] => [(category,total)]
  | (c,t)::rest => if c = category then (c,total)::rest else (c,t) :: dictSet category total rest

def tally (votes : List (ℤ × ℤ)) : List (ℤ × ℤ) :=
  votes.foldl (fun totals vote =>
    if vote.2 = 0 then totals
    else dictSet vote.1 ((totals.lookup vote.1).getD 0 + vote.2) totals) []

/-- Tuple order of the key `(-weight, category)`. -/
def voteLe (a b : ℤ × ℤ) : Prop := -a.2 < -b.2 ∨ (-a.2 = -b.2 ∧ a.1 ≤ b.1)

instance : DecidableRel voteLe := fun _ _ => inferInstanceAs (Decidable (_ ∨ _))

/-- Highest accumulated weight wins; the lowest category breaks a tie. -/
def majorityVote (votes : List (ℤ × ℤ)) : Except AggregateError ℤ := do
  failIf (votes = []) .majorityVoteOverNoBranches
  match (tally votes).insertionSort voteLe with
  | [] => .error .everyWeightZero
  | winner::_ => pure winner.1

/-- `_string`. -/
def string (value : Json) (field : String) : Except AggregateError String :=
  match value.get field with
  | some (.str s) => pure s
  | _ => .error (.mustBeString field)

/-- `_unsigned`. A boolean is not an integer here. -/
def unsigned (value : Json) (field : String) : Except AggregateError ℕ :=
  match value.get field with
  | some (.int n) => if n < 0 then .error (.mustBeUnsigned field) else pure n.toNat
  | _ => .error (.mustBeUnsigned field)

/-- `_optional_unsigned`. -/
def optionalUnsigned (value : Json) (field : String) : Except AggregateError (Option ℕ) :=
  match value.get field with
  | none => pure none
  | some .null => pure none
  | some _ => some <$> unsigned value field

/-- Characters of `_HEX_DIGITS`. -/
def hexDigits : List Char := "0123456789abcdef".toList

def isAsciiSpace (c : Char) : Bool := c.toNat == 32 || (decide (9 ≤ c.toNat) && decide (c.toNat ≤ 13))

/-- `bytes.fromhex`: two digits of either case a byte, whitespace between bytes skipped. -/
def fromhex : List Char → Option Bytes
  | [] => some []
  | [c] => if isAsciiSpace c then some [] else none
  | c::d::rest =>
    if isAsciiSpace c then fromhex (d::rest)
    else do
      let hi ← Json.hexValue c
      let lo ← Json.hexValue d
      let out ← fromhex rest
      some (UInt8.ofNat (16*hi + lo) :: out)

/-- `_hex_bytes`. -/
def hexBytes (value : Json) (field : String) : Except AggregateError Bytes := do
  let text ← string value field
  failIf (text.toList.length % 2 ≠ 0 ∨ (text.toList.any (fun c => decide (c ∉ hexDigits)) = true))
    (.mustBeHex field)
  require (fromhex text.toList) (.mustBeHex field)

structure AggregateReduction where
  combinerId : ℕ
  trimBps : ℕ
  categoryDictionarySize : ℕ
  paramsDigest : Digest
  resultValue : ℤ
  branchCount : ℕ
  branchHashes : List Digest
  merkleRoot : Digest
  deriving DecidableEq

structure LoopState where
  branchHashes : List Digest
  scalars : List (ℤ × ℤ)
  scalarValues : List ℤ
  votes : List (ℤ × ℤ)
  previousIndex : Option ℕ

def LoopState.start : LoopState := ⟨[],[],[],[],none⟩

/-- One turn of the loop over `branches`. -/
def branchStep (combinerId dictionarySize : ℕ) (st : LoopState) (item : Json × ℕ) :
    Except AggregateError LoopState := do
  let branch := item.1
  failIf (branch.isObj = false) (.branchNotAnObject item.2)
  let declaredIndex ← unsigned branch "branch_index"
  failIf (st.previousIndex.any (fun previous => decide (declaredIndex ≤ previous)) = true)
    (.branchIndexNotIncreasing item.2)
  let receiptBytes ← hexBytes branch "result_bytes"
  let receipt ← parseBranchResultBytes receiptBytes
  failIf (receipt.branchIndex ≠ declaredIndex)
    (.branchIndexNotCarried declaredIndex receipt.branchIndex)
  let declaredHash ← hexBytes branch "result_hash"
  failIf (declaredHash ≠ receipt.resultHash.val) (.resultHashMismatch declaredIndex)
  let weight ← unsigned branch "weight"
  failIf (weight = 0) (.zeroWeight declaredIndex)
  failIf (combinerId = combinerTrimmedMean ∧ weight ≠ 1) (.ignoredWeight declaredIndex)
  if combinerId = combinerMajorityVote then do
    let label ← require receipt.categoricalLabelIndex (.noLabel declaredIndex)
    failIf (dictionarySize = 0) .dictionarySizeMissing
    failIf (dictionarySize ≤ label) (.labelOutsideDictionary declaredIndex label)
    pure { st with
      branchHashes := st.branchHashes ++ [receipt.resultHash]
      votes := st.votes ++ [((label : ℤ),(weight : ℤ))]
      previousIndex := some declaredIndex }
  else do
    failIf (receipt.outputKind.carriesScalar = false) (.noScalar declaredIndex)
    let scalar ← require receipt.scalarValueBps (.noScalar declaredIndex)
    pure { st with
      branchHashes := st.branchHashes ++ [receipt.resultHash]
      scalars := st.scalars ++ [((scalar : ℤ),(weight : ℤ))]
      scalarValues := st.scalarValues ++ [(scalar : ℤ)]
      previousIndex := some declaredIndex }

/-- The combiner stage over the filled lists. -/
def combine (combinerId trimBps : ℕ) (st : LoopState) : Except AggregateError ℤ :=
  if combinerId = combinerWeightedMean then weightedMeanBps st.scalars
  else if combinerId = combinerTrimmedMean then do
    let outlierCount ← trimCountFromBps st.scalarValues.length trimBps
    trimmedMeanBps st.scalarValues outlierCount
  else majorityVote st.votes

/-- The reduction once the header is read: the branch loop, the combiner and the root. -/
def reduceBranches (combinerId trimBps dictionarySize : ℕ) (branches : List Json) :
    Except AggregateError AggregateReduction := do
  failIf (branches = []) .noBranches
  failIf (maxBranches < branches.length) (.tooManyBranches branches.length)
  let st ← branches.zipIdx.foldlM (branchStep combinerId dictionarySize) .start
  let resultValue ← combine combinerId trimBps st
  let merkleRoot ← sortedBranchesMerkleRoot st.branchHashes
  pure {
    combinerId,trimBps,resultValue,merkleRoot
    categoryDictionarySize := dictionarySize
    paramsDigest := combinerParamsDigest combinerId trimBps dictionarySize
    branchCount := st.branchHashes.length
    branchHashes := st.branchHashes }

/-- The members of `value` if it is a list. -/
def listOf : Option Json → Option (List Json)
  | some (.arr xs) => some xs
  | _ => none

/-- The reduction of a parsed artifact. -/
def reduceValue (value : Json) : Except AggregateError AggregateReduction := do
  failIf (value.isObj = false) .notAnObject
  let schema ← string value "schema"
  failIf (schema ≠ aggregateSchema) (.unknownSchema schema)
  let schemaVersion ← unsigned value "schema_version"
  failIf (schemaVersion ≠ aggregateSchemaVersion) (.unknownSchemaVersion schemaVersion)
  let combinerId ← unsigned value "combiner_id"
  let expectedName ← require (combinerNames.lookup combinerId) (.unknownCombinerId combinerId)
  let name ← string value "combiner"
  failIf (expectedName ≠ name) .combinerNameDisagrees
  let parameters ← require ((value.get "combiner_parameters").filter Json.isObj)
    .parametersNotAnObject
  let trimBps ← optionalUnsigned parameters "trim_bps"
  let dictionarySize ← optionalUnsigned parameters "category_dictionary_size"
  let branches ← require (listOf (value.get "branches")) .branchesNotAnArray
  reduceBranches combinerId (trimBps.getD 0) (dictionarySize.getD 0) branches

/-- `json.loads(artifact.decode("utf-8"))` is the parameter `loads`. -/
def reduceAggregateArtifact (loads : Bytes → Option Json) (artifact : Bytes) :
    Except AggregateError AggregateReduction := do
  let value ← require (loads artifact) .notJson
  reduceValue value

/-- `struct.pack("<I", value)`, which refuses what does not fit. -/
def packU32 (value : ℤ) : Option Bytes :=
  if 0 ≤ value ∧ value < 2^32 then some (leBytes 4 value.toNat) else none

/-- The 73 committed bytes. None stands for the packing and length errors. -/
def aggregateCommittedOutputs (reduction : AggregateReduction) : Option Bytes := do
  let id ← if reduction.combinerId < 256 then some [UInt8.ofNat reduction.combinerId] else none
  let value ← packU32 reduction.resultValue
  let count ← packU32 reduction.branchCount
  let out := id ++ reduction.paramsDigest.val ++ value ++ count ++ reduction.merkleRoot.val
  if out.length ≠ aggregateCommittedOutputsLen then none else some out

/-- `framed_input` of `bonsol.py`. -/
def framedInput (payload : Bytes) : Bytes := leBytes 8 payload.length ++ payload

def framedInputDigest (payload : Bytes) : Digest := sha256 (framedInput payload)

def journalHash (inputDigest : Digest) (committedOutputs : Bytes) : Digest :=
  sha256 (inputDigest.val ++ committedOutputs)

structure AggregateJournal where
  inputDigest : Digest
  reduction : AggregateReduction
  deriving DecidableEq

def AggregateJournal.committedOutputs (j : AggregateJournal) : Option Bytes :=
  aggregateCommittedOutputs j.reduction

def AggregateJournal.outputDigest (j : AggregateJournal) : Option Digest :=
  j.committedOutputs.map sha256

def AggregateJournal.journalHash (j : AggregateJournal) : Option Digest :=
  j.committedOutputs.map (Cli.journalHash j.inputDigest)

/-- Everything `open_job` needs so that the reducer's callback can settle the job. -/
def aggregateJournal (loads : Bytes → Option Json) (artifact : Bytes) :
    Except AggregateError AggregateJournal := do
  let reduction ← reduceAggregateArtifact loads artifact
  pure ⟨framedInputDigest artifact,reduction⟩

end Kswarm.Cli
