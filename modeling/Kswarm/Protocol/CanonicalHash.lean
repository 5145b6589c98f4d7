import Kswarm.Protocol.BranchSchemas
import Kswarm.Reducer.Encoding

/-! Canonical JSON and the compact `MFB2` branch result (`canonical_hash.py`). -/
namespace Kswarm
namespace Json

mutual
/-- No binary64 number of the tree is infinite or not a number. -/
def finite : Json → Bool
  | .float f => f.isFinite
  | .arr xs => finiteElems xs
  | .obj fs => finiteFields fs
  | _ => true
def finiteElems : List Json → Bool
  | [] => true
  | x::xs => finite x && finiteElems xs
def finiteFields : List (String × Json) → Bool
  | [] => true
  | (_,x)::fs => finite x && finiteFields fs
end

mutual
theorem Plain.finite : (v : Json) → v.Plain → v.finite = true
  | .null,_ | .bool _,_ | .int _,_ | .str _,_ => rfl
  | .float _,h => h.elim
  | .arr xs,h => PlainElems.finite xs h
  | .obj fs,h => PlainFields.finite fs h.2
theorem PlainElems.finite : (xs : List Json) → PlainElems xs → finiteElems xs = true
  | [],_ => rfl
  | x::xs,h => by simp [finiteElems,Plain.finite x h.1,PlainElems.finite xs h.2]
theorem PlainFields.finite : (fs : List (String × Json)) → PlainFields fs → finiteFields fs = true
  | [],_ => rfl
  | (_,x)::fs,h => by simp [finiteFields,Plain.finite x h.1,PlainFields.finite fs h.2]
end

lemma finiteFields_iff {fs : List (String × Json)} :
    finiteFields fs = true ↔ ∀ p ∈ fs, p.2.finite = true := by
  induction fs with
  | nil => simp [finiteFields]
  | cons p fs ih => simp [finiteFields,ih]

lemma finiteElems_iff {xs : List Json} :
    finiteElems xs = true ↔ ∀ x ∈ xs, x.finite = true := by
  induction xs with
  | nil => simp [finiteElems]
  | cons x xs ih => simp [finiteElems,ih]

end Json

namespace Protocol

/-- The `MFB2` encoder's failures: the canonicalizer's, `struct.error`, and the `ValueError`s. -/
inductive ResultError where
  | notFinite
  | indexTooWide (index : ℕ)
  | outsideRange (field : String)
  | tooManyScores (count : ℕ)
  | tooLong (length : ℕ)
  deriving DecidableEq

/-- Sorted keys, no whitespace, UTF-8. -/
def canonicalJsonBytes (v : Json) : Except ResultError Bytes := do
  failIf (v.finite = false) .notFinite
  pure (utf8 (Json.render v.sortKeys))

/-- `CanonicalHash.of`. -/
def canonicalHash (f : OutputFields) : Except ResultError Digest :=
  sha256 <$> canonicalJsonBytes f.canonicalHashPreimage

def resultMagic : Bytes := [77,70,66,50]
def resultSchemaVersion : UInt8 := 2
def flagScalar : UInt8 := 1
def flagLower : UInt8 := 2
def flagUpper : UInt8 := 4
def flagCategory : UInt8 := 8
def flagScores : UInt8 := 16

/-- `_u16_bps`. -/
def u16Bps (value : ℕ) (field : String) : Except ResultError Bytes := do
  failIf (10000 < value) (.outsideRange field)
  pure (leBytes 2 value)

def optBps (value : Option ℕ) (field : String) : Except ResultError Bytes :=
  match value with
  | some v => u16Bps v field
  | none => pure []

/-- `for key in sorted(scores)`: the key's hash prefix, then its value. -/
def scoreEntries : List (String × ℕ) → Except ResultError Bytes
  | [] => pure []
  | (key,value)::rest => do
    let bps ← u16Bps value key
    let out ← scoreEntries rest
    pure ((sha256 (utf8 key.toList)).val.take 4 ++ bps ++ out)

def sortScores (scores : List (String × ℕ)) : List (String × ℕ) :=
  scores.insertionSort (fun a b => Json.codePointLe a.1 b.1)

def scoreBytes (scores : List (String × ℕ)) : Except ResultError Bytes :=
  if scores = [] then pure []
  else do
    failIf (32 < scores.length) (.tooManyScores scores.length)
    let entries ← scoreEntries (sortScores scores)
    pure (UInt8.ofNat scores.length :: entries)

/-- `output.narrative_scores or {}`. -/
def scores (f : OutputFields) : List (String × ℕ) := f.narrativeScores.getD []

/-- A label is a byte by validation. -/
def categoryBytes : Option ℕ → Bytes
  | some label => [UInt8.ofNat label]
  | none => []

def resultFlags (f : OutputFields) : UInt8 :=
  setFlag f.scalarValueBps.isSome flagScalar |||
    setFlag f.scalarConfidenceLowerBps.isSome flagLower |||
    setFlag f.scalarConfidenceUpperBps.isSome flagUpper |||
    setFlag f.categoricalLabelIndex.isSome flagCategory |||
    setFlag (!(scores f).isEmpty) flagScores

/-- The compact result submitted to `submit_receipt`. -/
def branchOutputResultBytes (f : OutputFields) : Except ResultError Bytes := do
  let canonicalDigest ← canonicalHash f
  failIf (2^32 ≤ f.branchIndex) (.indexTooWide f.branchIndex)
  let header := resultMagic ++ [resultSchemaVersion,f.outputKind.id] ++
    leBytes 4 f.branchIndex ++ [resultFlags f]
  let scalar ← optBps f.scalarValueBps "scalar_value_bps"
  let lower ← optBps f.scalarConfidenceLowerBps "scalar_confidence_lower_bps"
  let upper ← optBps f.scalarConfidenceUpperBps "scalar_confidence_upper_bps"
  let entries ← scoreBytes (scores f)
  let out := header ++ scalar ++ lower ++ upper ++ categoryBytes f.categoricalLabelIndex ++
    entries ++ canonicalDigest.val
  failIf (512 < out.length) (.tooLong out.length)
  pure out

/-- The hash the program stores for the result bytes. -/
def branchResultHash (f : OutputFields) : Except ResultError Digest :=
  sha256 <$> branchOutputResultBytes f

/-- The decoder's failures: its `ValueError`s, and `IndexError` at `data[offset]`. -/
inductive DecodeError where
  | tooShort
  | badMagic
  | unsupportedVersion (version : UInt8)
  | unsupportedKind (id : UInt8)
  | truncatedU16
  | indexOutOfRange
  | trailingBytes
  deriving DecidableEq

/-- The decoded dictionary; a key that is not set is `none`. -/
structure DecodedResult where
  schema : Bytes
  schemaVersion : UInt8
  outputKind : OutputKind
  branchIndex : ℕ
  scalarValueBps : Option ℕ
  scalarConfidenceLowerBps : Option ℕ
  scalarConfidenceUpperBps : Option ℕ
  categoricalLabelIndex : Option UInt8
  narrativeScoreHashes : Option (List (String × ℕ))
  canonicalHash : String
  deriving DecidableEq

/-- `_read_u16`. -/
def readU16 (data : Bytes) (offset : ℕ) : Except DecodeError (ℕ × ℕ) := do
  failIf (data.length < offset+2) .truncatedU16
  pure (ofLe ((data.drop offset).take 2),offset+2)

/-- `data[offset]`, and the step past it. -/
def readByte (data : Bytes) (offset : ℕ) : Except DecodeError (UInt8 × ℕ) := do
  let value ← require data[offset]? .indexOutOfRange
  pure (value,offset+1)

/-- `for _ in range(count)`: a slice, which may be short, then the value. -/
def readScoreHashes (data : Bytes) : ℕ → ℕ → Except DecodeError (List (String × ℕ) × ℕ)
  | 0,offset => pure ([],offset)
  | n+1,offset => do
    let keyHash := Reducer.encodeHex ((data.drop offset).take 4)
    let (value,offset) ← readU16 data (offset+4)
    let (rest,offset) ← readScoreHashes data n offset
    pure ((keyHash,value)::rest,offset)

def readNarrativeScores (data : Bytes) (offset : ℕ) :
    Except DecodeError (List (String × ℕ) × ℕ) := do
  let (count,offset) ← readByte data offset
  readScoreHashes data count.toNat offset

/-- Decode the compact result for report and aggregator runners. -/
def parseBranchOutputResultBytes (data : Bytes) : Except DecodeError DecodedResult := do
  failIf (data.length < 4+1+1+4+1+32) .tooShort
  failIf (data.take 4 ≠ resultMagic) .badMagic
  let version := data.getD 4 0
  let kindId := data.getD 5 0
  let branchIndex := ofLe ((data.drop 6).take 4)
  let flags := data.getD 10 0
  failIf (version ≠ resultSchemaVersion) (.unsupportedVersion version)
  let outputKind ← require (OutputKind.fromId kindId) (.unsupportedKind kindId)
  let (scalarValueBps,offset) ← readIf (flags &&& flagScalar ≠ 0) (readU16 data) 11
  let (scalarConfidenceLowerBps,offset) ← readIf (flags &&& flagLower ≠ 0) (readU16 data) offset
  let (scalarConfidenceUpperBps,offset) ← readIf (flags &&& flagUpper ≠ 0) (readU16 data) offset
  let (categoricalLabelIndex,offset) ← readIf (flags &&& flagCategory ≠ 0) (readByte data) offset
  let (narrativeScoreHashes,offset) ←
    readIf (flags &&& flagScores ≠ 0) (readNarrativeScores data) offset
  let canonicalHash := Reducer.encodeHex ((data.drop offset).take 32)
  failIf (offset+32 ≠ data.length) .trailingBytes
  pure {
    schema := resultMagic,schemaVersion := version,outputKind,branchIndex,scalarValueBps
    scalarConfidenceLowerBps,scalarConfidenceUpperBps,categoricalLabelIndex
    narrativeScoreHashes,canonicalHash }

theorem canonicalJsonBytes_plain {v : Json} (h : v.Plain) :
    canonicalJsonBytes v = .ok (utf8 (Json.render v.sortKeys)) := by
  simp only [canonicalJsonBytes,bind_eq_ok,failIf_eq_ok,pure_eq_ok]
  exact ⟨(),by simp [h.finite],trivial⟩

/-- The hash of a validated output always exists. -/
theorem canonicalHash_eq {f : OutputFields} (h : f.keysDistinct) :
    canonicalHash f = .ok (sha256 (utf8 (Json.render f.canonicalHashPreimage.sortKeys))) := by
  rw [canonicalHash,canonicalJsonBytes_plain (plain_preimage f h)]
  rfl

end Protocol
end Kswarm
