import Kswarm.Lib.Utf16
import Kswarm.Lib.ByteCompare
import Kswarm.Mirror.Encoding

/-! The score of the legacy journal, an element of the BN254 scalar field as text. Three programs
decode it: the guest (`bonsol-branch-reducer/src/lib.rs`), the command line (`bonsol.py`) and the
binding checks (`proof-binding.mjs`). Each keeps the modulus in a form of its own. -/
namespace Kswarm.Legacy

def scoreFeltLen : ℕ := 32

/-- The BN254 scalar field modulus `r`. -/
def bn254ScalarModulus : ℕ :=
  0x30644E72E131A029B85045B68181585D2833E84879B9709143E1F593F0000001

def digitValue (c : Char) : ℕ := (Json.hexValue c).getD 0

/-- The bytes that pairs of hex digits spell. -/
def pairBytes : List Char → Bytes
  | hi::lo::rest => UInt8.ofNat (16*digitValue hi + digitValue lo) :: pairBytes rest
  | _ => []

/-- What `score_hex` has to be: 64 lowercase hex digits, the least significant pair first, of a
number below the modulus. -/
structure IsScore (digits : List Char) : Prop where
  length : digits.length = 2*scoreFeltLen
  lower : ∀ c ∈ digits, c ∈ Cli.hexDigits
  reduced : ofLe (pairBytes digits) < bn254ScalarModulus

namespace Guest

inductive ScoreHexError where
  /-- A byte that is not a lowercase ASCII hex digit. -/
  | invalidHexDigit
  /-- The digit count is not 64. -/
  | wrongLength (digits : ℕ)
  /-- The value is not less than the field modulus. -/
  | notReduced
  deriving DecidableEq

/-- `{error:?}`, which is also how the error displays. -/
def ScoreHexError.debug : ScoreHexError → String
  | .invalidHexDigit => "InvalidHexDigit"
  | .wrongLength digits => "WrongLength \x7b digits: " ++ String.ofList (decimal digits) ++ " \x7d"
  | .notReduced => "NotReduced"

def bn254ScalarModulusBe : Bytes := [
  0x30, 0x64, 0x4e, 0x72, 0xe1, 0x31, 0xa0, 0x29, 0xb8, 0x50, 0x45, 0xb6, 0x81, 0x81, 0x58, 0x5d,
  0x28, 0x33, 0xe8, 0x48, 0x79, 0xb9, 0x70, 0x91, 0x43, 0xe1, 0xf5, 0x93, 0xf0, 0x00, 0x00, 0x01]

def hexNibble (byte : UInt8) : Except ScoreHexError UInt8 :=
  require (Reducer.hexNibble byte) .invalidHexDigit

/-- True when the little-endian value is strictly less than the field modulus. -/
def isReducedLe (valueLe : Bytes) : Bool :=
  belowFrom (fun index => valueLe.getD index 0)
    (fun index => bn254ScalarModulusBe.getD (scoreFeltLen - 1 - index) 0) scoreFeltLen

/-- `for (index, pair) in nibbles.chunks(2).enumerate()`. -/
def joinPairs : Bytes → Bytes
  | hi::lo::rest => ((hi <<< 4) ||| lo) :: joinPairs rest
  | _ => []

/-- Decode `score_hex` into the 32 bytes the guest commits, in string order. -/
def decodeScoreFelt (scoreHex : String) : Except ScoreHexError Bytes := do
  let nibbles ← (utf8 scoreHex.toList).mapM hexNibble
  failIf (nibbles.length ≠ scoreFeltLen*2) (.wrongLength nibbles.length)
  failIf (isReducedLe (joinPairs nibbles) = false) .notReduced
  pure (joinPairs nibbles)

end Guest

namespace Python

/-- What the functions raise; the report of the parser is not shown. -/
inductive Raised where
  | notJson
  | fromhex
  | assertion
  | message (text : String)
  deriving DecidableEq

/-- `_HEX_DIGIT_BYTES`. -/
def hexDigitBytes : Bytes := utf8 "0123456789abcdef".toList

/-- The byte of a character, one that is not ASCII as the question mark. -/
def asciiByte : CodePoint → UInt8
  | .scalar c => if c.toNat < 128 then UInt8.ofNat c.toNat else 63
  | .surrogate _ => 63

/-- `str.encode("ascii", errors="replace")`. -/
def encodeAscii (text : List CodePoint) : Bytes := text.map asciiByte

def scalar? : CodePoint → Option Char
  | .scalar c => some c
  | .surrogate _ => none

/-- `bytes.fromhex`, which takes no surrogate either. -/
def fromhex (text : List CodePoint) : Option Bytes := (text.mapM scalar?).bind Cli.fromhex

/-- `for byte in digits`. -/
def checkDigits (digits : Bytes) : Except Raised Unit :=
  digits.forM (fun byte =>
    failIf (byte ∉ hexDigitBytes) (.message "score_hex rejected: InvalidHexDigit"))

/-- The checks run in the order of the guest. -/
def decodeScoreFelt (scoreHex : List CodePoint) : Except Raised Bytes := do
  let digits := encodeAscii scoreHex
  checkDigits digits
  failIf (digits.length ≠ scoreFeltLen*2) (.message ("score_hex rejected: WrongLength \x7b digits: "
    ++ String.ofList (decimal digits.length) ++ " \x7d"))
  let score ← require (fromhex scoreHex) .fromhex
  failIf (bn254ScalarModulus ≤ ofLe score) (.message "score_hex rejected: NotReduced")
  pure score

end Python

namespace Node

structure ProofBindingError where
  message : String
  deriving DecidableEq

/-- What the checks tell apart in a field of their argument. -/
inductive Value where
  | text (s : CodeUnits)
  | number (x : Binary64)
  | other
  deriving DecidableEq

def requireString (value : Value) (label : String) : Except ProofBindingError CodeUnits :=
  match value with
  | .text s => .ok s
  | _ => .error ⟨label ++ " must be a string"⟩

/-- `[0-9a-f]`. -/
def isHexUnit (u : UInt16) : Bool :=
  (decide (48 ≤ u) && decide (u ≤ 57)) || (decide (97 ≤ u) && decide (u ≤ 102))

/-- `/^[0-9a-f]{64}$/`. -/
def feltHexPattern (text : CodeUnits) : Bool := text.length == 64 && text.all isHexUnit

def requireHex64 (value : Value) (label : String) (pattern : CodeUnits → Bool) :
    Except ProofBindingError CodeUnits := do
  let text ← requireString value label
  failIf (pattern text = false) ⟨label ++ " must be 64 lowercase hex characters"⟩
  pure text

def unitHexValue (u : UInt16) : Option ℕ := Json.hexValue (Char.ofNat u.toNat)

/-- `Buffer.from(text, "hex")`, which stops at the first pair that is not hex. -/
def bufferFromHex : CodeUnits → Bytes
  | a::b::rest =>
    match unitHexValue a,unitHexValue b with
    | some hi,some lo => UInt8.ofNat (16*hi + lo) :: bufferFromHex rest
    | _,_ => []
  | _ => []

def bn254ScalarModulusLe : Bytes :=
  bufferFromHex (utf16 "010000f093f5e1439170b97948e833285d588181b64550b829a031e1724e6430".toList)

def isReducedLittleEndian (bytes : Bytes) : Bool :=
  belowFrom (fun index => bytes.getD index 0) (fun index => bn254ScalarModulusLe.getD index 0)
    scoreFeltLen

/-- Decode a `score_hex` into the 32 bytes the Bonsol guest commits. -/
def decodeScoreFelt (scoreHex : Value) (label : String) : Except ProofBindingError Bytes := do
  let text ← requireHex64 scoreHex label feltHexPattern
  failIf (isReducedLittleEndian (bufferFromHex text) = false)
    ⟨label ++ " is not reduced modulo the BN254 scalar field"⟩
  pure (bufferFromHex text)

end Node

/-- `digits` is the text of the reduced score `bytes`. -/
def Spells (digits : List Char) (bytes : Bytes) : Prop :=
  digits = bytes.flatMap Reducer.hexPair ∧ bytes.length = scoreFeltLen ∧
    ofLe bytes < bn254ScalarModulus

lemma pairBytes_hexPairs (bytes : Bytes) : pairBytes (bytes.flatMap Reducer.hexPair) = bytes := by
  induction bytes with
  | nil => rfl
  | cons b bs ih =>
    have hlt := b.toNat_lt
    have hhi := (Mirror.hexChar_facts (n := b.toNat/16) (by omega)).2
    have hlo := (Mirror.hexChar_facts (n := b.toNat%16) (by omega)).2
    have hbyte : 16*(b.toNat/16) + b.toNat%16 = b.toNat := by omega
    rw [List.flatMap_cons,Reducer.hexPair,List.cons_append,List.cons_append,List.nil_append,
      pairBytes,ih,digitValue,digitValue,hhi,hlo,Option.getD_some,Option.getD_some,hbyte,
      UInt8.ofNat_toNat]

/-- The text determines the bytes, and the bytes the text. -/
theorem spells_iff {digits : List Char} {bytes : Bytes} :
    Spells digits bytes ↔ IsScore digits ∧ bytes = pairBytes digits := by
  constructor
  · rintro ⟨rfl,hlen,hred⟩
    have hl := Reducer.hexPairs_length bytes
    refine ⟨⟨by omega,(Mirror.hexPairs_facts bytes).2,?_⟩,(pairBytes_hexPairs bytes).symm⟩
    rwa [pairBytes_hexPairs]
  · rintro ⟨hscore,rfl⟩
    have hlen := hscore.length
    obtain ⟨bytes,-,htext⟩ := Mirror.fromhex_digits digits (by omega) hscore.lower
    have hl := Reducer.hexPairs_length bytes
    have hred := hscore.reduced
    rw [htext,pairBytes_hexPairs] at hred ⊢
    rw [htext] at hlen
    exact ⟨rfl,by omega,hred⟩

namespace Guest

lemma isReducedLe_iff {bytes : Bytes} (h : bytes.length = scoreFeltLen) :
    isReducedLe bytes = true ↔ ofLe bytes < bn254ScalarModulus := by
  have hmod : numberOf (fun index => bn254ScalarModulusBe.getD (scoreFeltLen - 1 - index) 0)
      scoreFeltLen = bn254ScalarModulus := by decide +kernel
  rw [isReducedLe,belowFrom_iff,hmod,← h,numberOf_getD]

/-- Checking every digit before joining them reads what checking pair by pair reads. -/
lemma decodePairs_of_nibbles {ds nibbles : Bytes} (h : ds.mapM hexNibble = .ok nibbles) :
    Reducer.decodePairs ds = some (joinPairs nibbles) := by
  fun_induction Reducer.decodePairs ds generalizing nibbles with
  | case1 a b rest ih =>
    simp only [List.mapM_cons,bind_eq_ok,pure_eq_ok,hexNibble,require_eq_ok] at h
    obtain ⟨hi,hhi,_,⟨lo,hlo,out,hout,rfl⟩,rfl⟩ := h
    simp only [hhi,hlo,ih hout,Option.bind_eq_bind,Option.bind_some,joinPairs]
  | case2 ds hds =>
    rcases ds with _ | ⟨a,_ | ⟨b,r⟩⟩
    · obtain rfl := pure_eq_ok.mp h
      rfl
    · simp only [List.mapM_cons,List.mapM_nil,bind_eq_ok,pure_eq_ok,exists_eq_left'] at h
      obtain ⟨x,-,rfl⟩ := h
      rfl
    · exact absurd rfl (hds a b r)

lemma nibbles_of_decodePairs {ds bytes : Bytes} (heven : ds.length % 2 = 0)
    (h : Reducer.decodePairs ds = some bytes) :
    ∃ nibbles, ds.mapM hexNibble = .ok nibbles ∧ joinPairs nibbles = bytes := by
  fun_induction Reducer.decodePairs ds generalizing bytes with
  | case1 a b rest ih =>
    simp only [Option.bind_eq_bind,Option.bind_eq_some_iff,Option.some.injEq] at h
    obtain ⟨hi,hhi,lo,hlo,out,hout,rfl⟩ := h
    simp only [List.length_cons] at heven
    obtain ⟨nibbles,hn,rfl⟩ := ih (by omega) hout
    refine ⟨hi::lo::nibbles,?_,rfl⟩
    simp only [List.mapM_cons,hexNibble,hhi,hlo,require,ok_bind]
    rw [show rest.mapM hexNibble = .ok nibbles from hn]
    rfl
  | case2 ds hds =>
    obtain rfl := Option.some.inj h
    rcases ds with _ | ⟨a,_ | ⟨b,r⟩⟩
    · exact ⟨[],rfl,rfl⟩
    · simp at heven
    · exact absurd rfl (hds a b r)

lemma mapM_length {ds nibbles : Bytes} (h : ds.mapM hexNibble = .ok nibbles) :
    nibbles.length = ds.length := ((mapM_eq_ok.mp h).length_eq).symm

/-- The guest accepts the texts of the reduced scores. -/
theorem decodeScoreFelt_eq_ok {scoreHex : String} {bytes : Bytes} :
    decodeScoreFelt scoreHex = .ok bytes ↔ Spells scoreHex.toList bytes := by
  simp only [decodeScoreFelt,bind_eq_ok,failIf_eq_ok,pure_eq_ok,exists_and_left,exists_const,
    ne_eq,not_not,Bool.not_eq_false]
  constructor
  · rintro ⟨nibbles,hn,hlen,hred,rfl⟩
    have hdec := decodePairs_of_nibbles hn
    rw [mapM_length hn] at hlen
    have htext := utf8_injective (Mirror.decodePairs_sound _ _ (by rw [hlen]; rfl) hdec)
    have hjoin : (joinPairs nibbles).length = scoreFeltLen := by
      have := Reducer.hexPairs_length (joinPairs nibbles)
      rw [htext,Reducer.utf8_hexPairs_length] at hlen
      omega
    exact ⟨htext,hjoin,(isReducedLe_iff hjoin).mp hred⟩
  · rintro ⟨htext,hlen,hred⟩
    have hl := Reducer.utf8_hexPairs_length bytes
    have hdec := Reducer.decodePairs_hexPairs bytes
    rw [← htext] at hdec hl
    obtain ⟨nibbles,hn,rfl⟩ := nibbles_of_decodePairs (by omega) hdec
    refine ⟨nibbles,hn,?_,(isReducedLe_iff hlen).mpr hred,rfl⟩
    rw [mapM_length hn]
    omega

lemma mapM_error {ds : Bytes} {e : ScoreHexError} (h : ds.mapM hexNibble = .error e) :
    e = .invalidHexDigit := by
  induction ds with
  | nil => cases h
  | cons d ds ih =>
    rw [List.mapM_cons] at h
    cases hd : Reducer.hexNibble d with
    | none =>
      rw [hexNibble,hd] at h
      exact (Except.error.inj h).symm
    | some x =>
      rw [hexNibble,hd,require,ok_bind] at h
      cases hds : ds.mapM hexNibble with
      | error e' =>
        rw [hds] at h
        obtain rfl := Except.error.inj h
        exact ih hds
      | ok out =>
        rw [hds] at h
        cases h

/-- The digits of the text pass when its bytes do. -/
lemma nibbles_iff (digits : List Char) :
    (∃ nibbles, (utf8 digits).mapM hexNibble = .ok nibbles) ↔ ∀ c ∈ digits, c ∈ Cli.hexDigits := by
  constructor
  · rintro ⟨nibbles,hn⟩ c hc
    -- The text twice over has an even number of bytes.
    have htwice : (utf8 (digits ++ digits)).mapM hexNibble = .ok (nibbles ++ nibbles) := by
      rw [utf8_append,mapM_eq_ok]
      exact List.rel_append (mapM_eq_ok.mp hn) (mapM_eq_ok.mp hn)
    have hlen : (utf8 (digits ++ digits)).length % 2 = 0 := by
      rw [utf8_append,List.length_append]
      omega
    have htext := utf8_injective
      (Mirror.decodePairs_sound _ _ hlen (decodePairs_of_nibbles htwice))
    exact (Mirror.hexPairs_facts _).2 c (htext ▸ List.mem_append_left _ hc)
  · intro h
    induction digits with
    | nil => exact ⟨[],rfl⟩
    | cons c digits ih =>
      rw [List.forall_mem_cons] at h
      obtain ⟨n,hn,rfl⟩ := Mirror.mem_hexDigits.mp h.1
      obtain ⟨nibbles,hnibbles⟩ := ih h.2
      refine ⟨UInt8.ofNat n :: nibbles,?_⟩
      rw [utf8_cons,utf8_ascii (Json.hexChar_ascii hn),List.singleton_append,List.mapM_cons,
        hexNibble,Reducer.hexNibble_hexChar hn,require,ok_bind,hnibbles]
      rfl

end Guest

lemma hexDigit_ascii {c : Char} (h : c ∈ Cli.hexDigits) : c.toNat < 128 := by
  obtain ⟨n,hn,rfl⟩ := Mirror.mem_hexDigits.mp h
  exact Json.hexChar_ascii hn

lemma utf8_hexDigits_length {digits : List Char} (h : ∀ c ∈ digits, c ∈ Cli.hexDigits) :
    (utf8 digits).length = digits.length := by
  induction digits with
  | nil => rfl
  | cons c digits ih =>
    rw [List.forall_mem_cons] at h
    rw [utf8_cons,utf8_ascii (hexDigit_ascii h.1),List.singleton_append,List.length_cons,ih h.2,
      List.length_cons]

namespace Python

lemma mem_hexDigitBytes (c : Char) :
    asciiByte (.scalar c) ∈ hexDigitBytes ↔ c ∈ Cli.hexDigits := by
  have hall : ∀ n : Fin 128, UInt8.ofNat n.val ∈ hexDigitBytes ↔
      Char.ofNat n.val ∈ Cli.hexDigits := by decide +kernel
  rw [asciiByte]
  split_ifs with h
  · simpa using hall ⟨c.toNat,h⟩
  · exact iff_of_false (by decide) (fun hc => h (hexDigit_ascii hc))

lemma checkDigits_eq_ok {digits : Bytes} {u : Unit} :
    checkDigits digits = .ok u ↔ ∀ byte ∈ digits, byte ∈ hexDigitBytes := by
  rw [checkDigits,show Except.ok u = (Except.ok () : Except Raised Unit) from rfl,forM_eq_ok]
  simp only [failIf_eq_ok,not_not]

/-- The digit check passes the scalar texts of lowercase digits. -/
lemma digitBytes_iff (text : List CodePoint) :
    (∀ byte ∈ encodeAscii text, byte ∈ hexDigitBytes) ↔
      ∃ digits, text = codePointsOf digits ∧ ∀ c ∈ digits, c ∈ Cli.hexDigits := by
  rw [encodeAscii,List.forall_mem_map]
  induction text with
  | nil => exact iff_of_true (by simp) ⟨[],rfl,by simp⟩
  | cons p text ih =>
    rw [List.forall_mem_cons,ih]
    constructor
    · rintro ⟨hp,digits,rfl,hdigits⟩
      cases p with
      | surrogate u =>
        have hmark : (63 : UInt8) ∉ hexDigitBytes := by decide
        exact absurd hp hmark
      | scalar c =>
        exact ⟨c::digits,rfl,List.forall_mem_cons.mpr ⟨(mem_hexDigitBytes c).mp hp,hdigits⟩⟩
    · rintro ⟨digits,htext,hdigits⟩
      cases digits with
      | nil => cases htext
      | cons c digits =>
        obtain ⟨rfl,rfl⟩ := List.cons.inj htext
        rw [List.forall_mem_cons] at hdigits
        exact ⟨(mem_hexDigitBytes c).mpr hdigits.1,digits,rfl,hdigits.2⟩

lemma fromhex_codePointsOf (digits : List Char) :
    fromhex (codePointsOf digits) = Cli.fromhex digits := by
  have hscalars : (codePointsOf digits).mapM scalar? = some digits := by
    induction digits with
    | nil => rfl
    | cons c digits ih =>
      rw [codePointsOf,List.map_cons,List.mapM_cons]
      change (some c >>= fun c => (codePointsOf digits).mapM scalar? >>= fun cs => pure (c::cs)) = _
      rw [ih]
      rfl
  rw [fromhex,hscalars]
  rfl

/-- The command line accepts the texts of the reduced scores. -/
theorem decodeScoreFelt_eq_ok {scoreHex : List CodePoint} {bytes : Bytes} :
    decodeScoreFelt scoreHex = .ok bytes ↔
      ∃ digits, scoreHex = codePointsOf digits ∧ Spells digits bytes := by
  simp only [decodeScoreFelt,bind_eq_ok,failIf_eq_ok,pure_eq_ok,exists_and_left,exists_const,
    ne_eq,not_not,checkDigits_eq_ok,digitBytes_iff,require_eq_ok,not_le]
  constructor
  · rintro ⟨⟨digits,rfl,hdigits⟩,hlen,bytes,hfrom,hred,rfl⟩
    rw [encodeAscii,List.length_map,codePointsOf,List.length_map] at hlen
    rw [fromhex_codePointsOf] at hfrom
    obtain ⟨bytes',hfrom',htext⟩ := Mirror.fromhex_digits digits (by rw [hlen]; rfl) hdigits
    obtain rfl := Option.some.inj (hfrom.symm.trans hfrom')
    have hl := Reducer.hexPairs_length bytes
    rw [← htext,hlen] at hl
    exact ⟨digits,rfl,htext,by omega,hred⟩
  · rintro ⟨digits,rfl,rfl,hlen,hred⟩
    have hl := Reducer.hexPairs_length bytes
    refine ⟨⟨_,rfl,(Mirror.hexPairs_facts bytes).2⟩,?_,bytes,?_,hred,rfl⟩
    · rw [encodeAscii,List.length_map,codePointsOf,List.length_map,hl,hlen]
      rfl
    · rw [fromhex_codePointsOf]
      simpa only [Reducer.encodeHex,String.toList_ofList] using Mirror.fromhex_encodeHex bytes

lemma checkDigits_error {digits : Bytes} {e : Raised} (h : checkDigits digits = .error e) :
    e = .message "score_hex rejected: InvalidHexDigit" := by
  induction digits with
  | nil => cases h
  | cons b digits ih =>
    change (failIf (b ∉ hexDigitBytes) _ >>= fun _ => checkDigits digits) = _ at h
    by_cases hb : b ∉ hexDigitBytes
    · rw [failIf,if_pos hb] at h
      exact (Except.error.inj h).symm
    · rw [failIf_of_not hb] at h
      exact ih h

/-- The message of the guest's error, as the harness prints it. -/
def report (e : Guest.ScoreHexError) : Raised := .message ("score_hex rejected: " ++ e.debug)

/-- Both ways to read sixty-four digits give the same bytes. -/
lemma fromhex_nibbles {digits : List Char} {nibbles : Bytes}
    (hdigits : ∀ c ∈ digits, c ∈ Cli.hexDigits)
    (hn : (utf8 digits).mapM Guest.hexNibble = .ok nibbles) (h64 : nibbles.length = scoreFeltLen*2) :
    Cli.fromhex digits = some (Guest.joinPairs nibbles) ∧
      (Guest.joinPairs nibbles).length = scoreFeltLen := by
  have hlen : digits.length = scoreFeltLen*2 := by
    rw [← utf8_hexDigits_length hdigits,← Guest.mapM_length hn,h64]
  obtain ⟨bytes,hfrom,htext⟩ := Mirror.fromhex_digits digits (by rw [hlen]; rfl) hdigits
  have hjoin : Guest.joinPairs nibbles = bytes := by
    have hdec := Guest.decodePairs_of_nibbles hn
    rw [htext,Reducer.decodePairs_hexPairs] at hdec
    exact (Option.some.inj hdec).symm
  have hl := Reducer.hexPairs_length bytes
  rw [← htext,hlen] at hl
  rw [hjoin]
  exact ⟨hfrom,by omega⟩

/-- The command line reports the reason the guest would. -/
theorem decodeScoreFelt_report (scoreHex : String) :
    decodeScoreFelt (codePointsOf scoreHex.toList) =
      Except.mapError report (Guest.decodeScoreFelt scoreHex) := by
  have hcheck := digitBytes_iff (codePointsOf scoreHex.toList)
  have hnib := Guest.nibbles_iff scoreHex.toList
  by_cases hdigits : ∀ c ∈ scoreHex.toList, c ∈ Cli.hexDigits
  · obtain ⟨nibbles,hn⟩ := hnib.mpr hdigits
    have hpass : checkDigits (encodeAscii (codePointsOf scoreHex.toList)) = .ok () :=
      checkDigits_eq_ok.mpr (hcheck.mpr ⟨_,rfl,hdigits⟩)
    have hlen : (encodeAscii (codePointsOf scoreHex.toList)).length = nibbles.length := by
      rw [Guest.mapM_length hn,utf8_hexDigits_length hdigits,encodeAscii,codePointsOf,
        List.length_map,List.length_map]
    rw [decodeScoreFelt,Guest.decodeScoreFelt,hpass,hn,hlen]
    by_cases h64 : nibbles.length = scoreFeltLen*2
    · obtain ⟨hfrom,hbytes⟩ := fromhex_nibbles hdigits hn h64
      generalize hjoin : Guest.joinPairs nibbles = bytes at hfrom hbytes
      have hfrom' : fromhex (codePointsOf scoreHex.toList) = some bytes := by
        rw [fromhex_codePointsOf,hfrom]
      rw [hfrom']
      simp only [ok_bind,failIf_of_not (not_not.mpr h64),require,hjoin]
      by_cases hred : ofLe bytes < bn254ScalarModulus
      · rw [failIf_of_not (not_le.mpr hred),
          failIf_of_not (by rw [(Guest.isReducedLe_iff hbytes).mpr hred]; decide)]
        rfl
      · have hno : Guest.isReducedLe bytes = false := by
          rw [← Bool.not_eq_true,Guest.isReducedLe_iff hbytes]
          exact hred
        rw [failIf,if_pos (not_lt.mp hred),failIf,if_pos hno]
        rfl
    · simp only [ok_bind,failIf,if_pos h64]
      rfl
  · cases hn : (utf8 scoreHex.toList).mapM Guest.hexNibble with
    | ok nibbles => exact absurd (hnib.mp ⟨_,hn⟩) hdigits
    | error e =>
      obtain rfl := Guest.mapM_error hn
      cases hc : checkDigits (encodeAscii (codePointsOf scoreHex.toList)) with
      | ok u =>
        obtain ⟨digits,htext,hall⟩ := hcheck.mp (checkDigits_eq_ok.mp hc)
        rw [codePointsOf_injective htext] at hdigits
        exact absurd hall hdigits
      | error e =>
        obtain rfl := checkDigits_error hc
        rw [decodeScoreFelt,Guest.decodeScoreFelt,hn,hc]
        rfl

end Python

namespace Node

lemma charUnits_hexDigit {c : Char} (h : c ∈ Cli.hexDigits) :
    charUnits c = [UInt16.ofNat c.toNat] := by
  have := hexDigit_ascii h
  rw [charUnits,if_pos (by omega)]

lemma utf16_hexDigits {digits : List Char} (h : ∀ c ∈ digits, c ∈ Cli.hexDigits) :
    utf16 digits = digits.map (fun c => UInt16.ofNat c.toNat) := by
  induction digits with
  | nil => rfl
  | cons c digits ih =>
    rw [List.forall_mem_cons] at h
    rw [utf16_cons,charUnits_hexDigit h.1,ih h.2]
    rfl

lemma isHexUnit_iff (u : UInt16) :
    isHexUnit u = true ↔ ∃ c ∈ Cli.hexDigits, u = UInt16.ofNat c.toNat := by
  constructor
  · intro h
    have hall : ∀ n : Fin 128, isHexUnit (UInt16.ofNat n.val) = true →
        Char.ofNat n.val ∈ Cli.hexDigits ∧ (Char.ofNat n.val).toNat = n.val := by decide +kernel
    have hlt : u.toNat < 128 := by
      simp only [isHexUnit,Bool.or_eq_true,Bool.and_eq_true,decide_eq_true_eq,
        UInt16.le_iff_toNat_le] at h
      rcases h with h | h
      · exact lt_of_le_of_lt h.2 (by decide)
      · exact lt_of_le_of_lt h.2 (by decide)
    obtain ⟨hmem,hval⟩ := hall ⟨u.toNat,hlt⟩ (by simpa using h)
    exact ⟨_,hmem,by rw [hval,UInt16.ofNat_toNat]⟩
  · rintro ⟨c,hc,rfl⟩
    obtain ⟨n,hn,rfl⟩ := Mirror.mem_hexDigits.mp hc
    have hall : ∀ n : Fin 16, isHexUnit (UInt16.ofNat (Json.hexChar n.val).toNat) = true := by
      decide +kernel
    exact hall ⟨n,hn⟩

lemma allHexUnits_iff (text : CodeUnits) : text.all isHexUnit = true ↔
    ∃ digits, text = utf16 digits ∧ digits.length = text.length ∧
      ∀ c ∈ digits, c ∈ Cli.hexDigits := by
  rw [List.all_eq_true]
  constructor
  · intro h
    induction text with
    | nil => exact ⟨[],rfl,rfl,by simp⟩
    | cons u text ih =>
      rw [List.forall_mem_cons] at h
      obtain ⟨c,hc,rfl⟩ := (isHexUnit_iff u).mp h.1
      obtain ⟨digits,rfl,hlen,hdigits⟩ := ih h.2
      refine ⟨c::digits,?_,by simpa using hlen,List.forall_mem_cons.mpr ⟨hc,hdigits⟩⟩
      rw [utf16_cons,charUnits_hexDigit hc]
      rfl
  · rintro ⟨digits,rfl,-,hdigits⟩
    rw [utf16_hexDigits hdigits,List.forall_mem_map]
    exact fun c hc => (isHexUnit_iff _).mpr ⟨c,hdigits c hc,rfl⟩

lemma feltHexPattern_iff (text : CodeUnits) : feltHexPattern text = true ↔
    ∃ digits, text = utf16 digits ∧ digits.length = 64 ∧ ∀ c ∈ digits, c ∈ Cli.hexDigits := by
  rw [feltHexPattern,Bool.and_eq_true,beq_iff_eq,allHexUnits_iff]
  constructor
  · rintro ⟨h64,digits,rfl,hlen,hdigits⟩
    exact ⟨digits,rfl,hlen.trans h64,hdigits⟩
  · rintro ⟨digits,rfl,h64,hdigits⟩
    have hlen : (utf16 digits).length = digits.length := by
      rw [utf16_hexDigits hdigits,List.length_map]
    exact ⟨hlen.trans h64,digits,rfl,hlen.symm,hdigits⟩

lemma unitHexValue_hexChar {n : ℕ} (h : n < 16) :
    unitHexValue (UInt16.ofNat (Json.hexChar n).toNat) = some n := by
  interval_cases n <;> decide

lemma bufferFromHex_hexPairs (bytes : Bytes) :
    bufferFromHex (utf16 (bytes.flatMap Reducer.hexPair)) = bytes := by
  rw [utf16_hexDigits (Mirror.hexPairs_facts bytes).2]
  induction bytes with
  | nil => rfl
  | cons b bs ih =>
    have hlt := b.toNat_lt
    have hhi := unitHexValue_hexChar (n := b.toNat/16) (by omega)
    have hlo := unitHexValue_hexChar (n := b.toNat%16) (by omega)
    have hbyte : 16*(b.toNat/16) + b.toNat%16 = b.toNat := by omega
    rw [List.flatMap_cons,List.map_append,Reducer.hexPair,List.map_cons,List.map_cons,List.map_nil,
      List.cons_append,List.cons_append,List.nil_append,bufferFromHex,hhi,hlo]
    simp only [ih,hbyte,UInt8.ofNat_toNat]

lemma isReducedLittleEndian_iff {bytes : Bytes} (h : bytes.length = scoreFeltLen) :
    isReducedLittleEndian bytes = true ↔ ofLe bytes < bn254ScalarModulus := by
  have hmod : numberOf (fun index => bn254ScalarModulusLe.getD index 0) scoreFeltLen =
      bn254ScalarModulus := by decide +kernel
  rw [isReducedLittleEndian,belowFrom_iff,hmod,← h,numberOf_getD]

lemma requireString_eq_ok {value : Value} {label : String} {text : CodeUnits} :
    requireString value label = .ok text ↔ value = .text text := by
  cases value with
  | text s => simp [requireString]
  | number x => simp [requireString]
  | other => simp [requireString]

/-- The binding checks accept the texts of the reduced scores. -/
theorem decodeScoreFelt_eq_ok {scoreHex : Value} {label : String} {bytes : Bytes} :
    decodeScoreFelt scoreHex label = .ok bytes ↔
      ∃ digits, scoreHex = .text (utf16 digits) ∧ Spells digits bytes := by
  simp only [decodeScoreFelt,requireHex64,bind_eq_ok,failIf_eq_ok,pure_eq_ok,exists_and_left,
    exists_const,Bool.not_eq_false,requireString_eq_ok,feltHexPattern_iff]
  constructor
  · rintro ⟨_,⟨text,rfl,⟨digits,rfl,h64,hdigits⟩,rfl⟩,hred,rfl⟩
    obtain ⟨bytes,-,rfl⟩ := Mirror.fromhex_digits digits (by omega) hdigits
    rw [bufferFromHex_hexPairs] at hred ⊢
    have hl := Reducer.hexPairs_length bytes
    have hlen : bytes.length = scoreFeltLen := by rw [scoreFeltLen]; omega
    exact ⟨_,rfl,rfl,hlen,(isReducedLittleEndian_iff hlen).mp hred⟩
  · rintro ⟨digits,rfl,rfl,hlen,hred⟩
    have hl := Reducer.hexPairs_length bytes
    rw [hlen] at hl
    refine ⟨_,⟨_,rfl,⟨_,rfl,hl,(Mirror.hexPairs_facts bytes).2⟩,rfl⟩,?_,?_⟩
    · rw [bufferFromHex_hexPairs]
      exact (isReducedLittleEndian_iff hlen).mpr hred
    · exact bufferFromHex_hexPairs bytes

end Node

end Kswarm.Legacy
