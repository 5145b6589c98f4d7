import Kswarm.Lib.Sha256
import Kswarm.Lib.LittleEndian
import Mathlib.Data.Nat.Digits.Lemmas

/-! Base 58 text of 32-byte keys: a leading one for every leading zero byte, then the digits of the
big-endian number. Reading accepts exactly the texts of keys. -/
namespace Kswarm

def base58Alphabet : List Char :=
  "123456789ABCDEFGHJKLMNPQRSTUVWXYZabcdefghijkmnopqrstuvwxyz".toList

def base58Char (d : ℕ) : Char := base58Alphabet.getD d '1'

def base58Index (c : Char) : ℕ := base58Alphabet.idxOf c

/-- The key as a big-endian number. -/
def keyNat (k : Digest) : ℕ := ofLe k.val.reverse

/-- The key of a number, modulo `2^256`. -/
def natKey (n : ℕ) : Digest := ⟨(leBytes 32 n).reverse,by simp⟩

/-- `str(key)`. -/
def keyText (k : Digest) : String :=
  String.ofList (List.replicate (k.val.takeWhile (· = 0)).length '1' ++
    (Nat.digits 58 (keyNat k)).reverse.map base58Char)

def base58Value (cs : List Char) : ℕ := Nat.ofDigits 58 (cs.map base58Index).reverse

/-- `Pubkey.from_string`. -/
def readKey (s : String) : Option Digest :=
  let k := natKey (base58Value s.toList)
  if keyText k = s then some k else none

lemma base58Index_char {d : ℕ} (h : d < 58) : base58Index (base58Char d) = d := by
  have hall : ∀ e < 58, base58Index (base58Char e) = e := by decide +kernel
  exact hall d h

lemma natKey_keyNat (k : Digest) : natKey (keyNat k) = k := by
  apply Subtype.ext
  have hlen : k.val.reverse.length = 32 := by rw [List.length_reverse,k.property]
  have h := leBytes_ofLe k.val.reverse
  rw [hlen] at h
  change (leBytes 32 (ofLe k.val.reverse)).reverse = k.val
  rw [h,List.reverse_reverse]

lemma keyNat_inj {a b : Digest} (h : keyNat a = keyNat b) : a = b := by
  rw [← natKey_keyNat a,h,natKey_keyNat]

lemma keyNat_natKey {n : ℕ} (h : n < 256^32) : keyNat (natKey n) = n := by
  rw [keyNat,natKey,List.reverse_reverse,ofLe_leBytes_of_lt h]

lemma keyText_length_le (k : Digest) : (keyText k).length ≤ 76 := by
  have hzeros : (k.val.takeWhile (· = 0)).length ≤ 32 :=
    (List.takeWhile_sublist _).length_le.trans_eq k.property
  have hdigits : (Nat.digits 58 (keyNat k)).length ≤ 44 := by
    have hlt := ofLe_lt k.val.reverse
    rw [List.length_reverse,k.property] at hlt
    rw [Nat.digits_length_le_iff (by decide)]
    exact hlt.trans (by decide)
  rw [← String.length_toList,keyText,String.toList_ofList]
  simp only [List.length_append,List.length_replicate,List.length_map,List.length_reverse]
  omega

/-- The digits of a key spell its number. -/
lemma base58Value_keyText (k : Digest) : base58Value (keyText k).toList = keyNat k := by
  have hdigits : ((Nat.digits 58 (keyNat k)).reverse.map base58Char).map base58Index =
      (Nat.digits 58 (keyNat k)).reverse := by
    rw [List.map_map]
    calc (Nat.digits 58 (keyNat k)).reverse.map (base58Index ∘ base58Char)
        = (Nat.digits 58 (keyNat k)).reverse.map id := by
          apply List.map_congr_left
          intro d hd
          exact base58Index_char (Nat.digits_lt_base (by decide) (List.mem_reverse.mp hd))
      _ = (Nat.digits 58 (keyNat k)).reverse := List.map_id _
  have hone : base58Index '1' = 0 := by decide
  have hzeros : ∀ n, Nat.ofDigits 58 (List.replicate n 0) = 0 := by
    intro n
    induction n with
    | zero => rfl
    | succ n ih => rw [List.replicate_succ,Nat.ofDigits_cons,ih]
  rw [base58Value,keyText,String.toList_ofList,List.map_append,hdigits,List.map_replicate,hone,
    List.reverse_append,List.reverse_reverse,List.reverse_replicate,Nat.ofDigits_append,hzeros,
    Nat.ofDigits_digits]
  simp

/-- A printed key is read back. -/
theorem readKey_keyText (k : Digest) : readKey (keyText k) = some k := by
  rw [readKey,base58Value_keyText,natKey_keyNat]
  exact if_pos rfl

lemma readKey_eq_some {s : String} {k : Digest} : readKey s = some k ↔ s = keyText k := by
  constructor
  · intro h
    simp only [readKey] at h
    split_ifs at h with hk
    rw [← hk,Option.some.inj h]
  · intro h
    rw [h,readKey_keyText]

theorem keyText_injective : Function.Injective keyText := by
  intro a b h
  have hb := readKey_eq_some.mpr h
  rw [readKey_keyText] at hb
  exact Option.some.inj hb

end Kswarm
