import Kswarm.Lib.ByteOrder
import Mathlib.Data.Char
import Mathlib.Order.Monotone.Basic

/-! UTF-8 as an order embedding: byte order on encodings is code point order on texts. A sorted
map of byte strings and a dictionary sorted by code points therefore iterate alike. -/
namespace Kswarm

/-- The UTF-8 bytes of a sequence of characters. -/
def utf8 (cs : List Char) : Bytes := cs.flatMap String.utf8EncodeChar

@[simp] theorem utf8_nil : utf8 [] = [] := rfl

@[simp] theorem utf8_cons (c : Char) (cs : List Char) :
    utf8 (c::cs) = String.utf8EncodeChar c ++ utf8 cs := rfl

@[simp] theorem utf8_append (a b : List Char) : utf8 (a ++ b) = utf8 a ++ utf8 b := by
  simp [utf8]

theorem utf8_ascii {c : Char} (h : c.toNat < 128) :
    String.utf8EncodeChar c = [UInt8.ofNat c.toNat] := by
  have hc : c.val.toNat ≤ 127 := by change c.toNat ≤ 127; omega
  simp only [String.utf8EncodeChar,hc,if_true]
  rfl

lemma utf8_length_ascii {cs : List Char} (h : ∀ c ∈ cs, c.toNat < 128) :
    (utf8 cs).length = cs.length := by
  induction cs with
  | nil => rfl
  | cons c cs ih =>
    rw [List.forall_mem_cons] at h
    rw [utf8_cons,utf8_ascii h.1,List.singleton_append,List.length_cons,ih h.2,List.length_cons]

lemma utf8_char_length (c : Char) : (String.utf8EncodeChar c).length ≤ 4 := by
  simp only [String.utf8EncodeChar]
  split_ifs <;> simp

/-- The first difference between two codes is a smaller byte on the left. -/
def Below (u v : List ℕ) : Prop :=
  ∃ p x y r s, u = p ++ x::r ∧ v = p ++ y::s ∧ x < y

lemma Below.lt {u v : List ℕ} (h : Below u v) (t t' : List ℕ) : u ++ t < v ++ t' := by
  obtain ⟨p,x,y,r,s,rfl,rfl,hxy⟩ := h
  induction p with
  | nil => exact List.Lex.rel hxy
  | cons z p ih => exact List.Lex.cons ih

lemma Below.head {x y : ℕ} (u v : List ℕ) (h : x < y) : Below (x::u) (y::v) :=
  ⟨[],x,y,u,v,rfl,rfl,h⟩

/-- Digit-by-digit comparison: a tie at the head passes the question to the tails. -/
lemma Below.step {x y : ℕ} {u v : List ℕ} (h : x ≤ y) (ht : x = y → Below u v) :
    Below (x::u) (y::v) := by
  rcases h.lt_or_eq with hlt | rfl
  · exact .head u v hlt
  · obtain ⟨p,a,b,r,s,rfl,rfl,hab⟩ := ht rfl
    exact ⟨x::p,a,b,r,s,rfl,rfl,hab⟩

lemma key_ofNat {n : ℕ} (h : n < 256) : (UInt8.ofNat n).toNat = n := by
  simp [Nat.mod_eq_of_lt h]

/-- The scalar values of the four encoding lengths, byte by byte. -/
lemma encodeChar_key (c : Char) : byteKey (String.utf8EncodeChar c) =
    if c.toNat ≤ 127 then [c.toNat]
    else if c.toNat ≤ 2047 then [c.toNat/64 + 192,c.toNat%64 + 128]
    else if c.toNat ≤ 65535 then
      [c.toNat/4096 + 224,c.toNat/64%64 + 128,c.toNat%64 + 128]
    else [c.toNat/262144 + 240,c.toNat/4096%64 + 128,c.toNat/64%64 + 128,c.toNat%64 + 128] := by
  have hmax : c.toNat < 1114112 := by
    rcases c.valid with h | h
    · exact lt_trans h (by decide)
    · exact h.2
  have hv : c.val.toNat = c.toNat := rfl
  simp only [String.utf8EncodeChar,hv,byteKey]
  split_ifs with h1 h2 h3
  · simp only [List.map_cons,List.map_nil]
    rw [key_ofNat (by omega)]
  · simp only [List.map_cons,List.map_nil]
    rw [key_ofNat (by omega),key_ofNat (by omega),Nat.mod_eq_of_lt (by omega : c.toNat/64 < 32)]
  · simp only [List.map_cons,List.map_nil]
    rw [key_ofNat (by omega),key_ofNat (by omega),key_ofNat (by omega),
      Nat.mod_eq_of_lt (by omega : c.toNat/4096 < 16)]
  · simp only [List.map_cons,List.map_nil]
    rw [key_ofNat (by omega),key_ofNat (by omega),key_ofNat (by omega),key_ofNat (by omega),
      Nat.mod_eq_of_lt (by omega : c.toNat/262144 < 8)]

/-- A smaller scalar value has a code that is below at a byte both codes have. -/
lemma encodeChar_below {c d : Char} (h : c.toNat < d.toNat) :
    Below (byteKey (String.utf8EncodeChar c)) (byteKey (String.utf8EncodeChar d)) := by
  rw [encodeChar_key,encodeChar_key]
  generalize c.toNat = m at h ⊢
  generalize d.toNat = n at h ⊢
  -- Codes of different lengths already differ at the leading byte; codes of one length are
  -- compared digit by digit in base 64.
  split_ifs <;> first
    | omega
    | exact .head _ _ (by omega)
    | exact .step (by omega) fun e => .head _ _ (by omega)
    | exact .step (by omega) fun e => .step (by omega) fun e' => .head _ _ (by omega)
    | exact .step (by omega) fun e => .step (by omega) fun e' => .step (by omega) fun e'' =>
        .head _ _ (by omega)

lemma encodeChar_key_ne_nil (c : Char) : byteKey (String.utf8EncodeChar c) ≠ [] := by
  rw [encodeChar_key]
  split_ifs <;> simp

theorem utf8_strictMono : StrictMono (fun cs : List Char => byteKey (utf8 cs)) := by
  intro a b h
  change List.Lex (· < ·) a b at h
  change byteKey (utf8 a) < byteKey (utf8 b)
  induction h with
  | @nil d b =>
    rw [utf8_cons,byteKey_append]
    obtain ⟨x,xs,hx⟩ := List.exists_cons_of_ne_nil (encodeChar_key_ne_nil d)
    rw [hx]
    exact List.Lex.nil
  | @cons c a b h ih =>
    rw [utf8_cons,utf8_cons,byteKey_append,byteKey_append]
    generalize byteKey (String.utf8EncodeChar c) = p
    induction p with
    | nil => exact ih
    | cons x p hp => exact List.Lex.cons hp
  | @rel c a d b h =>
    rw [utf8_cons,utf8_cons,byteKey_append,byteKey_append]
    exact (encodeChar_below h).lt _ _

/-- Sorting by UTF-8 bytes and sorting by code points are the same comparison. -/
theorem utf8_le_iff (a b : List Char) : byteKey (utf8 a) ≤ byteKey (utf8 b) ↔ a ≤ b :=
  utf8_strictMono.le_iff_le

theorem utf8_injective : Function.Injective utf8 := by
  intro a b h
  exact utf8_strictMono.injective (congrArg byteKey h)

lemma length_le_utf8 (cs : List Char) : cs.length ≤ (utf8 cs).length := by
  induction cs with
  | nil => simp
  | cons c cs ih =>
    have hc := List.length_pos_iff.mpr (encodeChar_key_ne_nil c)
    rw [byteKey,List.length_map] at hc
    rw [utf8_cons,List.length_append,List.length_cons]
    omega

/-- The text a byte string encodes, if it encodes one. -/
def decodeUtf8 (b : Bytes) : Option (List Char) := b.toByteArray.utf8Decode?.map Array.toList

theorem decodeUtf8_utf8 (cs : List Char) : decodeUtf8 (utf8 cs) = some cs := by
  have h : (utf8 cs).toByteArray = cs.utf8Encode := rfl
  rw [decodeUtf8,h,List.utf8Decode?_utf8Encode]
  rfl

section Replacing

/-- How many bytes a code with this lead byte has; zero for a byte that leads none. -/
def leadLength (lead : UInt8) : ℕ :=
  if lead.toNat < 128 then 1
  else if 194 ≤ lead.toNat ∧ lead.toNat ≤ 223 then 2
  else if 224 ≤ lead.toNat ∧ lead.toNat ≤ 239 then 3
  else if 240 ≤ lead.toNat ∧ lead.toNat ≤ 244 then 4
  else 0

/-- Whether a second byte can follow the lead byte in a code. -/
def followsLead (lead second : UInt8) : Bool :=
  let low := if lead.toNat = 224 then 160 else if lead.toNat = 240 then 144 else 128
  let high := if lead.toNat = 237 then 159 else if lead.toNat = 244 then 143 else 191
  decide (low ≤ second.toNat ∧ second.toNat ≤ high)

/-- The longest start of a code at the front of bytes that hold no whole one. -/
def malformedLength (b : Bytes) : ℕ :=
  let lead := b.getD 0 0
  if leadLength lead < 3 ∨ b.length < 2 ∨ followsLead lead (b.getD 1 0) = false then 1
  else if leadLength lead = 4 ∧ 2 < b.length ∧ 128 ≤ (b.getD 2 0).toNat ∧ (b.getD 2 0).toNat ≤ 191
    then 3 else 2

/-- The character at the front, if the bytes begin with a whole code. -/
def frontChar (b : Bytes) : Option Char :=
  match decodeUtf8 (b.take (leadLength (b.getD 0 0))) with
  | some [c] => some c
  | _ => none

/-- Decoding that replaces every malformed stretch by U+FFFD, in at most `fuel` steps. -/
def replaceMalformed : ℕ → Bytes → List Char
  | 0,_ => []
  | fuel+1,b =>
    if b = [] then []
    else match frontChar b with
      | some c => c :: replaceMalformed fuel (b.drop (leadLength (b.getD 0 0)))
      | none => Char.ofNat 65533 :: replaceMalformed fuel (b.drop (malformedLength b))

lemma leadLength_encodeChar (c : Char) (rest : Bytes) :
    leadLength ((String.utf8EncodeChar c ++ rest).getD 0 0) = (String.utf8EncodeChar c).length := by
  have hkey := encodeChar_key c
  have hlen : (String.utf8EncodeChar c).length = (byteKey (String.utf8EncodeChar c)).length := by
    rw [byteKey,List.length_map]
  have hmax : c.toNat < 1114112 := by
    rcases c.valid with h | h
    · exact lt_trans h (by decide)
    · exact h.2
  cases hb : String.utf8EncodeChar c with
  | nil =>
    rw [hb] at hkey
    exact absurd (hb ▸ rfl) (encodeChar_key_ne_nil c)
  | cons lead tail =>
    rw [← hb,hlen,hkey]
    rw [hb] at hkey
    have hlead : (lead::tail ++ rest).getD 0 0 = lead := rfl
    rw [hb,hlead]
    simp only [byteKey,List.map_cons] at hkey
    unfold leadLength
    split_ifs at hkey ⊢ <;> simp only [List.cons.injEq] at hkey <;> first | rfl | omega

/-- Text is never replaced. -/
theorem replaceMalformed_utf8 (cs : List Char) {fuel : ℕ} (h : cs.length ≤ fuel) :
    replaceMalformed fuel (utf8 cs) = cs := by
  induction cs generalizing fuel with
  | nil => cases fuel <;> simp [replaceMalformed]
  | cons c cs ih =>
    obtain ⟨n,rfl⟩ : ∃ n, fuel = n+1 := ⟨fuel-1,by simp only [List.length_cons] at h; omega⟩
    have hlead := leadLength_encodeChar c (utf8 cs)
    have hne : String.utf8EncodeChar c ++ utf8 cs ≠ [] := by
      intro he
      exact encodeChar_key_ne_nil c (by simp [(List.append_eq_nil_iff.mp he).1,byteKey])
    have hfront : frontChar (String.utf8EncodeChar c ++ utf8 cs) = some c := by
      have hone : decodeUtf8 (String.utf8EncodeChar c) = some [c] := by
        have := decodeUtf8_utf8 [c]
        rwa [utf8_cons,utf8_nil,List.append_nil] at this
      rw [frontChar,hlead,List.take_left,hone]
    rw [utf8_cons,replaceMalformed,if_neg hne,hfront,hlead]
    simp only [List.drop_left]
    rw [ih (by simp only [List.length_cons] at h; omega)]

/-- A decoder that never fails: malformed bytes become replacement characters. -/
def decodeReplacing (b : Bytes) : List Char := replaceMalformed b.length b

theorem decodeReplacing_utf8 (cs : List Char) : decodeReplacing (utf8 cs) = cs :=
  replaceMalformed_utf8 cs (length_le_utf8 cs)

end Replacing

end Kswarm
