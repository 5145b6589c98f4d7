import Kswarm.Mirror.Encoding
import Kswarm.Reducer.DigitBuffer

/-! One spelling for each byte string and for each number: what a second spelling would change is
a hash the chain settles on. -/
namespace Kswarm.Mirror
open Reducer (encodeHex decodeHex)

/-- Hex has one spelling on both sides. The guest counts bytes and the mirror characters, which
differ on what neither accepts. -/
theorem hex_one_spelling (text : String) :
    ((decodeHex text).isSome ↔ ∃ bytes, text = encodeHex bytes) ∧
    (∀ bytes, decodeHex (encodeHex bytes) = some bytes) ∧
    (∀ bytes ∈ decodeHex text, encodeHex bytes = text) ∧
    ∀ (value : Json) (field : String), value.get field = some (.str text) →
      ∀ bytes, Cli.hexBytes value field = .ok bytes ↔ decodeHex text = some bytes := by
  refine ⟨?_,Reducer.decodeHex_encodeHex,?_,?_⟩
  · rw [Option.isSome_iff_exists]
    exact exists_congr (fun bytes => decodeHex_eq_some)
  · intro bytes h
    exact (decodeHex_eq_some.mp h).symm
  · intro value field hget bytes
    rw [hexBytes_eq_ok,decodeHex_eq_some,hget]
    simp only [Option.some.injEq,Json.str.injEq]

theorem hex_one_spelling_receipt :
    Cli.hexBytes (.obj [("leaf_hash",.str "0aff")]) "leaf_hash" = .ok [10,255] :=
  ((hex_one_spelling "0aff").2.2.2 _ "leaf_hash" rfl _).mpr (by decide)

lemma decimal_head_zero_iff (n : ℕ) : (decimal n).head? = some '0' ↔ n = 0 := by
  constructor
  · intro h
    obtain ⟨cs,hcs⟩ := List.head?_eq_some_iff.mp h
    obtain rfl := decimal_head_zero hcs
    rw [← digitsValue_decimal n,hcs]
    rfl
  · rintro rfl
    rfl

lemma pushU64_decimal (out : Bytes) (value : UInt64) :
    Reducer.Buffered.pushU64 out value = some (out ++ utf8 (decimal value.toNat)) := by
  have hlt : value.toNat < 10^20 := lt_trans value.toNat_lt (by norm_num)
  rw [Reducer.Buffered.pushU64_eq,pushU64_eq out hlt]
  rfl

lemma paramsLine_buffered (combinerId : UInt8) (params : Reducer.Buffered.Params) :
    Reducer.Buffered.combinerParamsCanonicalBytes combinerId params =
      some (Cli.combinerParamsCanonicalBytes combinerId.toNat params.trimBps.toNat
        params.categoryDictionarySize.toNat) := by
  have h8 := combinerId.toNat_lt
  have ht := params.trimBps.toNat_lt
  have hd := params.categoryDictionarySize.toNat_lt
  rw [Reducer.Buffered.combinerParamsCanonicalBytes_eq,paramsLine_agrees]
  · exact lt_trans h8 (by norm_num)
  · exact lt_trans ht (by norm_num)
  · exact lt_trans hd (by norm_num)

/-- The parameter line names one triple, and both sides write it. Its digit loop renders every
`u64` inside its buffer. -/
theorem paramsLine_canonical :
    (∀ (out : Bytes) (value : UInt64), ∃ text : List Char,
      Reducer.Buffered.pushU64 out value = some (out ++ utf8 text) ∧
      (∀ c ∈ text, isDigit c = true) ∧ digitsValue text = value.toNat ∧
      text ≠ [] ∧ (text.head? = some '0' → text = ['0'])) ∧
    (∀ (combinerId : UInt8) (params : Reducer.Buffered.Params),
      Reducer.Buffered.combinerParamsCanonicalBytes combinerId params =
        some (Cli.combinerParamsCanonicalBytes combinerId.toNat params.trimBps.toNat
          params.categoryDictionarySize.toNat)) ∧
    Function.Injective (fun p : UInt8 × Reducer.Buffered.Params =>
      Reducer.Buffered.combinerParamsCanonicalBytes p.1 p.2) := by
  refine ⟨?_,paramsLine_buffered,?_⟩
  · intro out value
    refine ⟨decimal value.toNat,pushU64_decimal out value,fun c => isDigit_of_mem_decimal,
      digitsValue_decimal _,decimal_ne_nil _,?_⟩
    intro h
    rw [(decimal_head_zero_iff _).mp h]
    rfl
  · intro p q h
    simp only [paramsLine_buffered,Option.some.injEq] at h
    obtain ⟨hi,ht,hd⟩ := paramsLine_injective h
    obtain ⟨i,t,d⟩ := p
    obtain ⟨i',t',d'⟩ := q
    obtain rfl := UInt8.toNat_inj.mp hi
    obtain rfl := UInt32.toNat_inj.mp ht
    obtain rfl := UInt32.toNat_inj.mp hd
    rfl

end Kswarm.Mirror
