import Kswarm.Lib.Outcome
import Kswarm.Lib.Utf8
import Kswarm.Lib.Decimal
import Mathlib.Data.List.Sort

/-! The three combiners of the registry (`combiner.rs`), in the exact integer arithmetic whose
result a guest commits. The 128-bit additions that are checked refuse; the others wrap. -/
namespace Kswarm.Reducer

def combinerWeightedMean : ℕ := 1
def combinerTrimmedMean : ℕ := 2
def combinerMajorityVote : ℕ := 3

/-- Basis-point scale. A probability of 1 is 10000 bps. -/
def bpsScale : ℤ := 10000

inductive CombinerError where
  | emptyBranches
  | zeroWeight
  | trimCountTooLarge
  | unknownCombiner
  | valueOutOfRange
  | resultOutOfRange
  | overflow
  deriving DecidableEq

structure WeightedValue where
  value : ℤ
  weight : ℕ
  deriving DecidableEq

structure CategoricalVote where
  category : ℕ
  weight : ℕ
  deriving DecidableEq

/-- The combiner parameters that reach the journal. -/
structure CombinerParams where
  trimBps : ℕ
  categoryDictionarySize : ℕ
  deriving DecidableEq

def combinerParamsDomain : String := "kswarm-combiner-params-v1"

/-- The digit loop of `push_u64`, least significant digit first, into a buffer of `slots`. -/
def digitLoop : ℕ → ℕ → Bytes
  | 0,_ => []
  | slots+1,value =>
    if 0 < value then UInt8.ofNat (48 + value%10) :: digitLoop slots (value/10) else []

def pushU64 (out : Bytes) (value : ℕ) : Bytes :=
  if value = 0 then out ++ [48] else out ++ (digitLoop 20 value).reverse

def asBytes (s : String) : Bytes := utf8 s.toList

/-- A single line naming every parameter of the registry. Absent parameters are written as `0`. -/
def combinerParamsCanonicalBytes (combinerId : ℕ) (params : CombinerParams) : Bytes :=
  let out := asBytes combinerParamsDomain ++ asBytes "|combiner_id="
  let out := pushU64 out combinerId ++ asBytes "|trim_bps="
  let out := pushU64 out params.trimBps ++ asBytes "|category_dictionary_size="
  pushU64 out params.categoryDictionarySize

def combinerParamsDigest (combinerId : ℕ) (params : CombinerParams) : Digest :=
  sha256 (combinerParamsCanonicalBytes combinerId params)

def validateCombinerId (combinerId : ℕ) : Except CombinerError Unit :=
  failIf (combinerId ≠ combinerWeightedMean ∧ combinerId ≠ combinerTrimmedMean ∧
    combinerId ≠ combinerMajorityVote) .unknownCombiner

/-- `floor(branch_count * trim_bps / 10000)`. -/
def trimCountFromBps (branchCount trimBps : ℕ) : Except CombinerError ℕ := do
  failIf (10000 ≤ trimBps) .valueOutOfRange
  pure (branchCount*trimBps / 10000)

def checkedU128 (n : ℕ) : Option ℕ := if n < 2^128 then some n else none
def checkedI128 (n : ℤ) : Option ℤ := if -2^127 ≤ n ∧ n < 2^127 then some n else none
def wrapI128 (n : ℤ) : ℤ := Int.bmod n (2^128)

def checkBps (value : ℤ) : Except CombinerError Unit :=
  failIf (¬(0 ≤ value ∧ value ≤ bpsScale)) .valueOutOfRange

def roundHalfUp (numerator denominator : ℤ) : Except CombinerError ℕ := do
  failIf (denominator ≤ 0) .zeroWeight
  failIf (numerator < 0) .valueOutOfRange
  let rounded := Int.tdiv (wrapI128 (wrapI128 (numerator*2) + denominator))
    (wrapI128 (denominator*2))
  failIf (rounded < 0 ∨ bpsScale < rounded) .resultOutOfRange
  pure rounded.toNat

/-- One turn of the accumulation loop over total weight and weighted sum. -/
def weightedMeanStep (acc : ℕ × ℤ) (branch : WeightedValue) : Except CombinerError (ℕ × ℤ) := do
  checkBps branch.value
  let totalWeight ← require (checkedU128 (acc.1 + branch.weight)) .overflow
  let weightedSum ← require (checkedI128 (acc.2 + wrapI128 (branch.value*branch.weight))) .overflow
  pure (totalWeight,weightedSum)

/-- Weighted mean, rounded half up, in basis points. -/
def weightedMeanBps (branches : List WeightedValue) : Except CombinerError ℕ := do
  failIf (branches = []) .emptyBranches
  let (totalWeight,weightedSum) ← branches.foldlM weightedMeanStep (0,0)
  failIf (totalWeight = 0) .zeroWeight
  roundHalfUp weightedSum (wrapI128 totalWeight)

/-- `sort_by_key(|(_, value)| *value)`. -/
def valueLe (a b : ℕ × ℤ) : Prop := a.2 ≤ b.2

instance : DecidableRel valueLe := fun a b => inferInstanceAs (Decidable (a.2 ≤ b.2))

/-- Rejection order: distance from the median descending, then value, then original index. -/
def rejectionOrder (median : ℤ) (left right : ℕ × ℤ) : Ordering :=
  (compare |right.2 - median| |left.2 - median|).then
    ((compare left.2 right.2).then (compare left.1 right.1))

def rejectionLe (median : ℤ) (left right : ℕ × ℤ) : Prop := rejectionOrder median left right ≠ .gt

instance (median : ℤ) : DecidableRel (rejectionLe median) :=
  fun a b => inferInstanceAs (Decidable (rejectionOrder median a b ≠ .gt))

/-- `values.iter().copied().enumerate()`. -/
def enumerate (values : List ℤ) : List (ℕ × ℤ) := values.zipIdx.map (fun p => (p.2,p.1))

/-- `keep[*idx] = false` over the rejected pairs. -/
def dropFlags (rejected : List (ℕ × ℤ)) (keep : List Bool) : List Bool :=
  rejected.foldl (fun keep p => keep.set p.1 false) keep

/-- Drop the `outlierCount` values farthest from the element at index `len/2` of the sorted
values; the retained ones keep their order. -/
def retainedValues (values : List ℤ) (outlierCount : ℕ) : Except CombinerError (List ℤ) := do
  failIf (values = []) .emptyBranches
  failIf (values.length ≤ outlierCount) .trimCountTooLarge
  let indexed := (enumerate values).insertionSort valueLe
  let median := (indexed.getD (indexed.length/2) (0,0)).2
  let indexed := indexed.insertionSort (rejectionLe median)
  let keep := dropFlags (indexed.take outlierCount) (List.replicate values.length true)
  pure ((enumerate values).filterMap (fun p => if keep.getD p.1 false then some p.2 else none))

/-- Trimmed mean, rounded half up, in basis points. -/
def trimmedMeanBps (values : List ℤ) (outlierCount : ℕ) : Except CombinerError ℕ := do
  let retained ← retainedValues values outlierCount
  let sum ← retained.foldlM (fun sum value => do
    checkBps value
    pure (wrapI128 (sum + value))) 0
  roundHalfUp sum retained.length

/-- Add a vote to its category's total, or open a new total at the end. -/
def addVote (category weight : ℕ) : List (ℕ × ℕ) → List (ℕ × ℕ)
  | [] => [(category,weight)]
  | (c,total)::rest =>
    if c = category then (c,(total + weight) % 2^128)::rest
    else (c,total) :: addVote category weight rest

def tally (votes : List CategoricalVote) : List (ℕ × ℕ) :=
  votes.foldl (fun totals vote =>
    if vote.weight = 0 then totals else addVote vote.category vote.weight totals) []

/-- Weight descending, then category ascending. -/
def voteOrder (left right : ℕ × ℕ) : Ordering :=
  (compare right.2 left.2).then (compare left.1 right.1)

def voteLe (left right : ℕ × ℕ) : Prop := voteOrder left right ≠ .gt

instance : DecidableRel voteLe := fun a b => inferInstanceAs (Decidable (voteOrder a b ≠ .gt))

/-- Highest accumulated weight wins; the lowest category breaks a tie. -/
def majorityVote (votes : List CategoricalVote) : Except CombinerError ℕ := do
  failIf (votes = []) .emptyBranches
  match (tally votes).insertionSort voteLe with
  | [] => .error .zeroWeight
  | winner::_ => pure winner.1

end Kswarm.Reducer
