import Kswarm.Lib.Outcome
import Kswarm.Lib.LittleEndian

/-! The `MFB2` branch receipt encoding (`mfb2.rs`). Parsing is strict: an unknown magic, version,
kind or flag bit, a basis-point value above 10000 and any trailing byte are all refused. -/
namespace Kswarm

inductive OutputKind where
  | scalar
  | categorical
  | narrativeWithScalar
  deriving DecidableEq

namespace OutputKind

def id : OutputKind → UInt8
  | scalar => 1
  | categorical => 2
  | narrativeWithScalar => 3

def fromId (id : UInt8) : Option OutputKind :=
  if id = 1 then some scalar
  else if id = 2 then some categorical
  else if id = 3 then some narrativeWithScalar
  else none

/-- The spelling of the kind in documents and command lines. -/
def name : OutputKind → String
  | scalar => "scalar"
  | categorical => "categorical"
  | narrativeWithScalar => "narrative_with_scalar"

/-- Whether a scalar combiner may take a value from this kind. -/
def carriesScalar : OutputKind → Bool
  | scalar => true
  | categorical => false
  | narrativeWithScalar => true

@[simp] theorem fromId_id (k : OutputKind) : fromId k.id = some k := by cases k <;> rfl

theorem name_injective : Function.Injective name := by
  intro a b h
  cases a <;> cases b <;> first | rfl | (exact absurd h (by decide))

end OutputKind

namespace Reducer

inductive Mfb2Error where
  | tooShort
  | badMagic
  | unsupportedVersion (version : UInt8)
  | unknownOutputKind (id : UInt8)
  | unknownFlagBits (flags : UInt8)
  | valueOutOfRange
  | tooManyNarrativeScores (count : UInt8)
  | trailingBytes
  deriving DecidableEq

/-- `b"MFB2"`. -/
def mfb2Magic : Bytes := [77,70,66,50]
def mfb2SchemaVersion : UInt8 := 2
def bpsMax : ℕ := 10000
def maxNarrativeScores : ℕ := 32

def flagScalar : UInt8 := 1
def flagLower : UInt8 := 2
def flagUpper : UInt8 := 4
def flagCategory : UInt8 := 8
def flagScores : UInt8 := 16
def flagKnown : UInt8 := flagScalar ||| flagLower ||| flagUpper ||| flagCategory ||| flagScores

/-- The fields of a branch receipt an aggregate reduction reads. -/
structure BranchResult where
  branchIndex : ℕ
  outputKind : OutputKind
  scalarValueBps : Option ℕ
  categoricalLabelIndex : Option UInt8
  canonicalHash : Bytes
  /-- `sha256(result_bytes)`: the `submitted_result_hash` the program stores. -/
  resultHash : Digest
  deriving DecidableEq

def readU8 (data : Bytes) (offset : ℕ) : Except Mfb2Error (UInt8 × ℕ) := do
  let value ← require data[offset]? .tooShort
  pure (value,offset+1)

def readBps (data : Bytes) (offset : ℕ) : Except Mfb2Error (ℕ × ℕ) := do
  failIf (data.length < offset+2) .tooShort
  let value := ofLe ((data.drop offset).take 2)
  failIf (bpsMax < value) .valueOutOfRange
  pure (value,offset+2)

/-- `for _ in 0..count`: a 4-byte key hash, then the basis-point value. -/
def skipScores (data : Bytes) : ℕ → ℕ → Except Mfb2Error ℕ
  | 0,offset => pure offset
  | n+1,offset => do
    failIf (data.length < offset+4) .tooShort
    let (_,offset) ← readBps data (offset+4)
    skipScores data n offset

def readScores (data : Bytes) (offset : ℕ) : Except Mfb2Error (Unit × ℕ) := do
  let (count,offset) ← readU8 data offset
  failIf (count = 0 ∨ maxNarrativeScores < count.toNat) (.tooManyNarrativeScores count)
  let offset ← skipScores data count.toNat offset
  pure ((),offset)

end Reducer

/-- `if present { flags |= flag }`. -/
def setFlag (present : Bool) (flag : UInt8) : UInt8 := if present then flag else 0

/-- An optional field: read at `offset` when its flag is set, skipped otherwise. -/
def readIf {ε α : Type} (present : Prop) [Decidable present]
    (read : ℕ → Except ε (α × ℕ)) (offset : ℕ) : Except ε (Option α × ℕ) :=
  if present then do
    let (value,offset) ← read offset
    pure (some value,offset)
  else pure (none,offset)

namespace Reducer

def parseBranchResultBytes (data : Bytes) : Except Mfb2Error BranchResult := do
  failIf (data.length < 4+1+1+4+1+32) .tooShort
  failIf (data.take 4 ≠ mfb2Magic) .badMagic
  let version := data.getD 4 0
  failIf (version ≠ mfb2SchemaVersion) (.unsupportedVersion version)
  let outputKind ← require (OutputKind.fromId (data.getD 5 0)) (.unknownOutputKind (data.getD 5 0))
  let branchIndex := ofLe ((data.drop 6).take 4)
  let flags := data.getD 10 0
  failIf (flags &&& ~~~flagKnown ≠ 0) (.unknownFlagBits flags)
  let (scalarValueBps,offset) ← readIf (flags &&& flagScalar ≠ 0) (readBps data) 11
  let (_,offset) ← readIf (flags &&& flagLower ≠ 0) (readBps data) offset
  let (_,offset) ← readIf (flags &&& flagUpper ≠ 0) (readBps data) offset
  let (categoricalLabelIndex,offset) ← readIf (flags &&& flagCategory ≠ 0) (readU8 data) offset
  let (_,offset) ← readIf (flags &&& flagScores ≠ 0) (readScores data) offset
  failIf (offset+32 ≠ data.length)
    (if data.length < offset+32 then .tooShort else .trailingBytes)
  pure {
    branchIndex,outputKind,scalarValueBps,categoricalLabelIndex
    canonicalHash := (data.drop offset).take 32
    resultHash := sha256 data }

theorem readBps_eq_ok {data : Bytes} {offset value offset' : ℕ} :
    readBps data offset = .ok (value,offset') ↔
      offset+2 ≤ data.length ∧ value = ofLe ((data.drop offset).take 2) ∧ value ≤ bpsMax ∧
        offset' = offset+2 := by
  simp only [readBps,bind_eq_ok,failIf_eq_ok,pure_eq_ok,Prod.mk.injEq,exists_and_left,
    exists_const,not_lt]
  constructor
  · rintro ⟨h,h',rfl,rfl⟩
    exact ⟨h,rfl,h',rfl⟩
  · rintro ⟨h,rfl,h',rfl⟩
    exact ⟨h,h',rfl,rfl⟩

/-- Every parsed basis-point value is in range, and the hash is over the bytes that were read. -/
theorem parseBranchResultBytes_facts {data : Bytes} {r : BranchResult}
    (h : parseBranchResultBytes data = .ok r) :
    r.branchIndex < 2^32 ∧ (∀ s, r.scalarValueBps = some s → s ≤ bpsMax) ∧
      r.resultHash = sha256 data := by
  simp only [parseBranchResultBytes,bind_eq_ok,failIf_eq_ok,require_eq_ok,pure_eq_ok] at h
  obtain ⟨-,hlen,-,-,-,-,k,-,-,-,⟨sv,o1⟩,hsv,-,-,-,-,-,-,-,-,-,-,rfl⟩ := h
  refine ⟨?_,?_,rfl⟩
  · have := ofLe_lt ((data.drop 6).take 4)
    have hl : ((data.drop 6).take 4).length = 4 := by simp; omega
    rw [hl] at this
    simpa using this
  · rintro s rfl
    simp only [readIf,ite_eq_ok,bind_eq_ok,pure_eq_ok,Prod.mk.injEq,Option.some.injEq,
      reduceCtorEq,false_and,and_false,or_false,Prod.exists] at hsv
    obtain ⟨-,v,o,hv,rfl,-⟩ := hsv
    exact (readBps_eq_ok.mp hv).2.2.1

end Reducer
end Kswarm
