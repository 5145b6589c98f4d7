import Kswarm.Lib.LittleEndian
import Kswarm.Lib.JsonText

/-! The rules every guest shares (`lib.rs`): the length frame, the journal hash, and lowercase
hex with one spelling. -/
namespace Kswarm.Reducer

/-- The Bonsol public-input frame: a little-endian `u64` byte length, then the bytes. -/
def framedInput (payload : Bytes) : Bytes := leBytes 8 payload.length ++ payload

/-- `input_digest` for a Bonsol execution. -/
def framedInputDigest (payload : Bytes) : Digest := sha256 (framedInput payload)

/-- `journal_hash = sha256(input_digest || committed_outputs)`. -/
def journalHash (inputDigest : Digest) (committedOutputs : Bytes) : Digest :=
  sha256 (inputDigest.val ++ committedOutputs)

def hexNibble (byte : UInt8) : Option UInt8 :=
  if 48 ≤ byte ∧ byte ≤ 57 then some (byte - 48)
  else if 97 ≤ byte ∧ byte ≤ 102 then some (byte - 97 + 10)
  else none

/-- `for pair in digits.chunks(2)`. -/
def decodePairs : Bytes → Option Bytes
  | a::b::rest => do
    let hi ← hexNibble a
    let lo ← hexNibble b
    let out ← decodePairs rest
    some (((hi <<< 4) ||| lo) :: out)
  | _ => some []

/-- Decode lowercase hex. An odd digit count or any non-hex byte is `None`. -/
def decodeHex (text : String) : Option Bytes :=
  let digits := utf8 text.toList
  if digits.length % 2 ≠ 0 then none else decodePairs digits

/-- Decode lowercase hex into an array of 32 bytes. -/
def decodeHexArray (text : String) : Option Digest := do
  let bytes ← decodeHex text
  if h : bytes.length = 32 then some ⟨bytes,h⟩ else none

def hexPair (byte : UInt8) : List Char :=
  [Json.hexChar (byte.toNat/16),Json.hexChar (byte.toNat%16)]

/-- Lowercase hex, the spelling every artifact uses. -/
def encodeHex (bytes : Bytes) : String := String.ofList (bytes.flatMap hexPair)

lemma hexNibble_hexChar {n : ℕ} (h : n < 16) :
    hexNibble (UInt8.ofNat (Json.hexChar n).toNat) = some (UInt8.ofNat n) := by
  interval_cases n <;> decide

lemma utf8_hexPair (byte : UInt8) : utf8 (hexPair byte) =
    [UInt8.ofNat (Json.hexChar (byte.toNat/16)).toNat,
      UInt8.ofNat (Json.hexChar (byte.toNat%16)).toNat] := by
  have hlt := byte.toNat_lt
  rw [hexPair,utf8_cons,utf8_cons,utf8_ascii (Json.hexChar_ascii (by omega)),
    utf8_ascii (Json.hexChar_ascii (by omega))]
  rfl

lemma nibbles_join (byte : UInt8) :
    (UInt8.ofNat (byte.toNat/16) <<< 4) ||| UInt8.ofNat (byte.toNat%16) = byte := by
  have h : ∀ n : Fin 256, (UInt8.ofNat (n.val/16) <<< 4) ||| UInt8.ofNat (n.val%16) =
      UInt8.ofNat n.val := by decide +kernel
  simpa using h ⟨byte.toNat,byte.toNat_lt⟩

lemma decodePairs_hexPairs (bytes : Bytes) :
    decodePairs (utf8 (bytes.flatMap hexPair)) = some bytes := by
  induction bytes with
  | nil => rfl
  | cons b bs ih =>
    have hlt := b.toNat_lt
    have hhi := hexNibble_hexChar (n := b.toNat/16) (by omega)
    have hlo := hexNibble_hexChar (n := b.toNat%16) (by omega)
    rw [List.flatMap_cons,utf8_append,utf8_hexPair]
    simp only [List.cons_append,List.nil_append,decodePairs,hhi,hlo,ih,Option.bind_eq_bind,
      Option.bind_some,nibbles_join]

lemma utf8_hexPairs_length (bytes : Bytes) :
    (utf8 (bytes.flatMap hexPair)).length = 2*bytes.length := by
  induction bytes with
  | nil => rfl
  | cons b bs ih =>
    rw [List.flatMap_cons,utf8_append,utf8_hexPair,List.length_append,ih]
    simp only [List.length_cons,List.length_nil]
    omega

lemma hexPairs_length (bytes : Bytes) : (bytes.flatMap hexPair).length = 2*bytes.length := by
  induction bytes with
  | nil => rfl
  | cons b bs ih =>
    rw [List.flatMap_cons,List.length_append,ih,hexPair,List.length_cons,List.length_cons]
    simp only [List.length_nil,List.length_cons]
    omega

lemma encodeHex_length (bytes : Bytes) : (encodeHex bytes).length = 2*bytes.length := by
  rw [← String.length_toList,encodeHex,String.toList_ofList,hexPairs_length]

lemma hexPairs_injective : Function.Injective (fun bytes : Bytes => bytes.flatMap hexPair) := by
  intro a b h
  have ha := decodePairs_hexPairs a
  rw [show a.flatMap hexPair = b.flatMap hexPair from h,decodePairs_hexPairs] at ha
  exact (Option.some.inj ha).symm

/-- The first characters of the spelling spell the first bytes. -/
lemma take_hexPairs (n : ℕ) (bytes : Bytes) :
    (bytes.flatMap hexPair).take (2*n) = (bytes.take n).flatMap hexPair := by
  induction n generalizing bytes with
  | zero => rfl
  | succ n ih =>
    cases bytes with
    | nil => rfl
    | cons b bytes =>
      rw [List.flatMap_cons,List.take_succ_cons,List.flatMap_cons,← ih bytes]
      rfl

/-- The spelling the artifacts use is always accepted. -/
@[simp] theorem decodeHex_encodeHex (bytes : Bytes) : decodeHex (encodeHex bytes) = some bytes := by
  have hl := utf8_hexPairs_length bytes
  simp only [decodeHex,encodeHex,String.toList_ofList,hl,Nat.mul_mod_right,ne_eq,
    not_true_eq_false,if_false,decodePairs_hexPairs]

end Kswarm.Reducer
