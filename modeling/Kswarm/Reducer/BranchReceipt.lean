import Kswarm.Lib.JsonSame
import Kswarm.Reducer.Encoding
import Kswarm.Reducer.Mfb2

/-! The branch canonicalization guest (`branch_receipt.rs`, `canonical_json.rs`). It is shown a
branch output document and derives the `MFB2` receipt from it. An object is a `BTreeMap`, so its
members are met in byte order of their keys. -/
namespace Kswarm.Reducer

inductive CanonicalJsonError where
  | floatNotCanonical
  | serialize
  deriving DecidableEq

/-- `Number::is_f64`: an integer outside `i64` and `u64` is held as a binary64 number. -/
def isF64 : Json → Bool
  | .float _ => true
  | .int n => decide (¬(-2^63 ≤ n ∧ n < 2^64))
  | _ => false

mutual
def rejectFloats : Json → Except CanonicalJsonError Unit
  | .arr items => rejectElems items
  | .obj entries => rejectEntries entries
  | v => failIf (isF64 v = true) .floatNotCanonical
def rejectElems : List Json → Except CanonicalJsonError Unit
  | [] => pure ()
  | x::xs => do
    rejectFloats x
    rejectElems xs
def rejectEntries : List (String × Json) → Except CanonicalJsonError Unit
  | [] => pure ()
  | (_,x)::fs => do
    rejectFloats x
    rejectEntries fs
end

/-- Canonical JSON bytes of a document without floats. -/
def canonicalJsonBytes (value : Json) : Except CanonicalJsonError Bytes := do
  rejectFloats value
  pure (utf8 (Json.render (value.sortBy Json.byteLe)))

namespace BranchReceipt

def branchReceiptSchema : String := "MFBR1"
def branchReceiptSchemaVersion : ℕ := 1
def maxResultBytes : ℕ := 512

/-- The narrative text, the completion timestamp and the receipt locator. -/
def preimageExcluded : List String := ["narrative_text","completed_at_unix","zkvm_receipt_cid"]

inductive BranchReceiptError where
  | notJson
  | notAnObject
  | missingField (field : String)
  | wrongType (field : String)
  | unknownSchema (schema : String)
  | unknownSchemaVersion (version : ℕ)
  | unknownOutputKind (kind : String)
  | valueOutOfRange (field : String)
  | shapeMismatch (field : String)
  | tooManyNarrativeScores (count : ℕ)
  | resultTooLong (length : ℕ)
  | outputTooLong (length : ℕ)
  | canonicalJson (error : CanonicalJsonError)
  | selfCheck (error : Mfb2Error)
  deriving DecidableEq

structure BranchReceiptJournal where
  inputDigest : Digest
  resultHash : Digest
  outputLen : ℕ
  resultBytes : Bytes
  canonicalHash : Digest
  deriving DecidableEq

def asStr : Json → Option String
  | .str s => some s
  | _ => none

def asU64 : Json → Option ℕ
  | .int n => if 0 ≤ n ∧ n < 2^64 then some n.toNat else none
  | _ => none

def stringField (value : Json) (field : String) : Except BranchReceiptError String := do
  let found ← require (value.get field) (.missingField field)
  require (asStr found) (.wrongType field)

def u64Field (value : Json) (field : String) : Except BranchReceiptError ℕ := do
  let found ← require (value.get field) (.missingField field)
  require (asU64 found) (.wrongType field)

def optionalU64 (value : Json) (field : String) : Except BranchReceiptError (Option ℕ) :=
  match value.get field with
  | none => pure none
  | some .null => pure none
  | some found => some <$> require (asU64 found) (.wrongType field)

def optionalBps (value : Json) (field : String) : Except BranchReceiptError (Option ℕ) := do
  let raw ← optionalU64 value field
  failIf (raw.any (fun v => decide (bpsMax < v)) = true) (.valueOutOfRange field)
  pure raw

/-- `for (key, value) in raw`. -/
def scorePairs : List (String × Json) → Except BranchReceiptError (List (String × ℕ))
  | [] => pure []
  | (key,value)::rest => do
    let bps ← require (asU64 value) (.wrongType "narrative_scores")
    failIf (bpsMax < bps) (.valueOutOfRange "narrative_scores")
    let pairs ← scorePairs rest
    pure ((key,bps)::pairs)

/-- The members of an object in `BTreeMap` order. -/
def btree (entries : List (String × Json)) : List (String × Json) :=
  entries.insertionSort (fun a b => Json.byteLe a.1 b.1)

def narrativeScores (output : Json) : Except BranchReceiptError (List (String × ℕ)) :=
  match output.get "narrative_scores" with
  | none => pure []
  | some .null => pure []
  | some (.obj entries) => scorePairs (btree entries)
  | some _ => .error (.wrongType "narrative_scores")

def kindOf (name : String) : Option OutputKind :=
  if name = "scalar" then some .scalar
  else if name = "categorical" then some .categorical
  else if name = "narrative_with_scalar" then some .narrativeWithScalar
  else none

/-- `BranchOutput.canonical_hash_preimage()` on the document. -/
def hashPreimage (output : Json) : Json := output.without preimageExcluded

def bpsBytes (value : Option ℕ) : Bytes :=
  match value with
  | some v => leBytes 2 v
  | none => []

/-- The key's hash prefix, then its value, for every score. -/
def scoreBytes (scores : List (String × ℕ)) : Bytes :=
  scores.flatMap (fun p => (sha256 (utf8 p.1.toList)).val.take 4 ++ leBytes 2 p.2)

def labelBytes (category : Option ℕ) : Bytes :=
  match category with
  | some label => [UInt8.ofNat label]
  | none => []

def resultFlags (scalar lower upper category : Option ℕ) (scores : List (String × ℕ)) : UInt8 :=
  setFlag scalar.isSome flagScalar ||| setFlag lower.isSome flagLower |||
    setFlag upper.isSome flagUpper ||| setFlag category.isSome flagCategory |||
    setFlag (!scores.isEmpty) flagScores

/-- The bytes written once every check has passed. -/
def layout (kind : OutputKind) (branchIndex : ℕ) (scalar lower upper category : Option ℕ)
    (scores : List (String × ℕ)) (canonicalHash : Digest) : Bytes :=
  mfb2Magic ++ [mfb2SchemaVersion,kind.id] ++ leBytes 4 branchIndex ++
    [resultFlags scalar lower upper category scores] ++ bpsBytes scalar ++ bpsBytes lower ++
    bpsBytes upper ++ labelBytes category ++
    (if scores = [] then [] else UInt8.ofNat scores.length :: scoreBytes scores) ++
    canonicalHash.val

/-- The encoder behind the readers of the fields. -/
def encodeFields (kind : OutputKind) (branchIndex : ℕ) (scalar lower upper category : Option ℕ)
    (scores : List (String × ℕ)) (canonicalHash : Digest) :
    Except BranchReceiptError Bytes := do
  failIf (kind = .scalar ∧ scalar = none) (.shapeMismatch "scalar_value_bps")
  failIf (kind = .categorical ∧ category = none) (.shapeMismatch "categorical_label_index")
  failIf (kind = .narrativeWithScalar ∧ scores = []) (.shapeMismatch "narrative_scores")
  failIf (lower.any (fun low => upper.any (fun high => decide (high < low))) = true)
    (.valueOutOfRange "scalar_confidence_lower_bps")
  failIf (maxNarrativeScores < scores.length) (.tooManyNarrativeScores scores.length)
  let out := layout kind branchIndex scalar lower upper category scores canonicalHash
  failIf (maxResultBytes < out.length) (.resultTooLong out.length)
  pure out

/-- `branch_output_result_bytes`, on the document the guest is shown. -/
def encodeBranchResultBytes (output : Json) (canonicalHash : Digest) :
    Except BranchReceiptError Bytes := do
  let kindName ← stringField output "output_kind"
  let kind ← require (kindOf kindName) (.unknownOutputKind kindName)
  let branchIndex ← u64Field output "branch_index"
  failIf (2^32 ≤ branchIndex) (.valueOutOfRange "branch_index")
  let scalar ← optionalBps output "scalar_value_bps"
  let lower ← optionalBps output "scalar_confidence_lower_bps"
  let upper ← optionalBps output "scalar_confidence_upper_bps"
  let category ← optionalU64 output "categorical_label_index"
  failIf (category.any (fun v => decide (255 < v)) = true)
    (.valueOutOfRange "categorical_label_index")
  let scores ← narrativeScores output
  encodeFields kind branchIndex scalar lower upper category scores canonicalHash

/-- The reduction of the document inside a frame. -/
def recomputeOutput (output : Json) (inputDigest : Digest) :
    Except BranchReceiptError BranchReceiptJournal := do
  let outputBytes ← (canonicalJsonBytes output).mapError .canonicalJson
  failIf (2^32 ≤ outputBytes.length) (.outputTooLong outputBytes.length)
  let preimage ← (canonicalJsonBytes (hashPreimage output)).mapError .canonicalJson
  let canonicalHash := sha256 preimage
  let resultBytes ← encodeBranchResultBytes output canonicalHash
  -- The parser and the encoder must be inverse.
  let _ ← (parseBranchResultBytes resultBytes).mapError .selfCheck
  pure {
    inputDigest,resultBytes,canonicalHash
    resultHash := sha256 resultBytes
    outputLen := outputBytes.length }

/-- Recompute a branch receipt from a guest payload. `serde_json::from_slice`, which is outside
this crate, is the parameter `fromSlice`. -/
def branchReceiptJournal (fromSlice : Bytes → Option Json) (payload : Bytes) :
    Except BranchReceiptError BranchReceiptJournal := do
  let value ← require (fromSlice payload) .notJson
  failIf (value.isObj = false) .notAnObject
  let schema ← stringField value "schema"
  failIf (schema ≠ branchReceiptSchema) (.unknownSchema schema)
  let schemaVersion ← u64Field value "schema_version"
  failIf (schemaVersion ≠ branchReceiptSchemaVersion) (.unknownSchemaVersion schemaVersion)
  -- Read only to reject a frame that omits it.
  let _ ← stringField value "branch_input_sha256"
  let output ← require (value.get "branch_output") (.missingField "branch_output")
  failIf (output.isObj = false) (.wrongType "branch_output")
  recomputeOutput output (framedInputDigest payload)

end BranchReceipt
end Kswarm.Reducer
