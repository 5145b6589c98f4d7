import Kswarm.Reducer.Combiner

/-! `push_u64` at the widths of the code (`combiner.rs`): the digits go into a buffer of twenty
bytes, least significant first, and are copied out backwards. An index past the end is a panic,
which is `none`. -/
namespace Kswarm.Reducer.Buffered

/-- `digits[length] = byte`. -/
def store (digits : Bytes) (length : ℕ) (byte : UInt8) : Option Bytes :=
  if length < digits.length then some (digits.set length byte) else none

/-- `while value > 0`. -/
def fillDigits (digits : Bytes) (length : ℕ) (value : UInt64) : Option (Bytes × ℕ) :=
  if _h : value.toNat = 0 then some (digits,length)
  else do
    let digits ← store digits length (48 + (value % 10).toUInt8)
    fillDigits digits (length+1) (value / 10)
termination_by value.toNat
decreasing_by
  rw [UInt64.toNat_div]
  exact Nat.div_lt_self (by omega) (by decide)

/-- `for index in (0..length).rev() { out.push(digits[index]) }`. -/
def copyBack (digits : Bytes) : ℕ → Bytes → Option Bytes
  | 0,out => some out
  | index+1,out => do
    let digit ← digits[index]?
    copyBack digits index (out ++ [digit])

def pushU64 (out : Bytes) (value : UInt64) : Option Bytes :=
  if value = 0 then some (out ++ [48])
  else do
    let filled ← fillDigits (List.replicate 20 0) 0 value
    copyBack filled.1 filled.2 out

/-- The combiner parameters as the guest holds them. -/
structure Params where
  trimBps : UInt32
  categoryDictionarySize : UInt32
  deriving DecidableEq

def combinerParamsCanonicalBytes (combinerId : UInt8) (params : Params) : Option Bytes := do
  let out := asBytes combinerParamsDomain ++ asBytes "|combiner_id="
  let out ← pushU64 out combinerId.toUInt64
  let out ← pushU64 (out ++ asBytes "|trim_bps=") params.trimBps.toUInt64
  pushU64 (out ++ asBytes "|category_dictionary_size=") params.categoryDictionarySize.toUInt64

lemma take_succ_set (digits : Bytes) {length : ℕ} (byte : UInt8) (h : length < digits.length) :
    (digits.set length byte).take (length+1) = digits.take length ++ [byte] := by
  rw [List.take_add_one,List.take_set_of_le le_rfl,List.getElem?_set_self h]
  rfl

lemma digit_byte (value : UInt64) :
    48 + (value % 10).toUInt8 = UInt8.ofNat (48 + value.toNat % 10) := by
  have hlt : value.toNat % 10 < 10 := Nat.mod_lt _ (by decide)
  apply UInt8.toNat_inj.mp
  rw [UInt8.toNat_add,UInt64.toNat_toUInt8,UInt64.toNat_mod,UInt8.toNat_ofNat']
  change (48 + value.toNat % 10 % 2^8) % 2^8 = _
  omega

/-- The loop never leaves the buffer as long as what is left of the number fits in what is left of
the buffer, and it leaves there the digits of the number. -/
lemma fillDigits_eq (slots : ℕ) (digits : Bytes) (length : ℕ) (value : UInt64)
    (hroom : length + slots = digits.length) (hfit : value.toNat < 10^slots) :
    ∃ filled, fillDigits digits length value =
        some (filled,length + (digitLoop slots value.toNat).length) ∧
      filled.take (length + (digitLoop slots value.toNat).length) =
        digits.take length ++ digitLoop slots value.toNat := by
  induction slots generalizing digits length value with
  | zero =>
    have h0 : value.toNat = 0 := by simpa using hfit
    exact ⟨digits,by rw [fillDigits,dif_pos h0]; rfl,by simp [digitLoop]⟩
  | succ slots ih =>
    by_cases h0 : value.toNat = 0
    · exact ⟨digits,by rw [fillDigits,dif_pos h0]; simp [digitLoop,h0],by simp [digitLoop,h0]⟩
    · have hin : length < digits.length := by omega
      have hdiv : (value / 10).toNat = value.toNat/10 := UInt64.toNat_div ..
      obtain ⟨filled,hrun,htake⟩ := ih (digits.set length (48 + (value % 10).toUInt8)) (length+1)
        (value / 10) (by rw [List.length_set]; omega)
        (by rw [hdiv]; rw [pow_succ] at hfit; omega)
      rw [hdiv] at hrun htake
      have hloop : digitLoop (slots+1) value.toNat =
          UInt8.ofNat (48 + value.toNat%10) :: digitLoop slots (value.toNat/10) := by
        rw [digitLoop,if_pos (by omega)]
      have hlen : length + (digitLoop (slots+1) value.toNat).length =
          length + 1 + (digitLoop slots (value.toNat/10)).length := by
        rw [hloop,List.length_cons]
        omega
      refine ⟨filled,?_,?_⟩
      · rw [fillDigits,dif_neg h0,store,if_pos hin,hlen]
        exact hrun
      · rw [hlen,htake,take_succ_set _ _ hin,hloop,digit_byte,List.append_assoc]
        rfl

/-- Copying the filled part backwards reverses it. -/
lemma copyBack_eq (digits : Bytes) (length : ℕ) (out : Bytes) (h : length ≤ digits.length) :
    copyBack digits length out = some (out ++ (digits.take length).reverse) := by
  induction length generalizing out with
  | zero => simp [copyBack]
  | succ index ih =>
    have hin : index < digits.length := by omega
    rw [copyBack,List.getElem?_eq_getElem hin,Option.bind_eq_bind,Option.bind_some,
      ih _ (by omega),List.take_add_one,List.getElem?_eq_getElem hin,List.reverse_append,
      List.append_assoc]
    rfl

lemma fillDigits_length (digits : Bytes) (length : ℕ) (value : UInt64) {filled : Bytes} {n : ℕ}
    (h : fillDigits digits length value = some (filled,n)) : filled.length = digits.length := by
  fun_induction fillDigits digits length value with
  | case1 digits length value h0 =>
    obtain ⟨rfl,-⟩ := Prod.mk.inj (Option.some.inj h)
    rfl
  | case2 digits length value h0 ih =>
    obtain ⟨digits',hstore,hrest⟩ := Option.bind_eq_some_iff.mp h
    rw [ih digits' hrest]
    unfold store at hstore
    split_ifs at hstore
    obtain rfl := Option.some.inj hstore
    exact List.length_set

lemma digitLoop_length_le (slots value : ℕ) : (digitLoop slots value).length ≤ slots := by
  induction slots generalizing value with
  | zero => simp [digitLoop]
  | succ slots ih =>
    rw [digitLoop]
    split_ifs
    · simpa using ih (value/10)
    · simp

/-- Every `u64` fits: the buffered loop never panics. -/
theorem pushU64_eq (out : Bytes) (value : UInt64) :
    pushU64 out value = some (Reducer.pushU64 out value.toNat) := by
  have hlt : value.toNat < 10^20 := lt_trans value.toNat_lt (by norm_num)
  unfold pushU64 Reducer.pushU64
  by_cases h0 : value = 0
  · rw [if_pos h0,if_pos (by rw [h0]; rfl)]
  · have hne : value.toNat ≠ 0 := fun h => h0 (UInt64.toNat_inj.mp h)
    rw [if_neg h0,if_neg hne]
    obtain ⟨filled,hrun,htake⟩ := fillDigits_eq 20 (List.replicate 20 0) 0 value rfl hlt
    have hlen := fillDigits_length _ _ _ hrun
    have hle := digitLoop_length_le 20 value.toNat
    rw [Nat.zero_add] at hrun htake
    rw [List.length_replicate] at hlen
    rw [hrun,Option.bind_eq_bind,Option.bind_some,copyBack_eq _ _ _ (hlen ▸ hle),htake]
    rfl

theorem combinerParamsCanonicalBytes_eq (combinerId : UInt8) (params : Params) :
    combinerParamsCanonicalBytes combinerId params =
      some (Reducer.combinerParamsCanonicalBytes combinerId.toNat
        ⟨params.trimBps.toNat,params.categoryDictionarySize.toNat⟩) := by
  simp only [combinerParamsCanonicalBytes,pushU64_eq,Option.bind_eq_bind,Option.bind_some,
    Reducer.combinerParamsCanonicalBytes]
  rfl

end Kswarm.Reducer.Buffered
