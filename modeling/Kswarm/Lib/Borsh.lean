import Kswarm.Lib.LittleEndian
import Kswarm.Lib.Outcome
import Kswarm.Lib.Utf8

/-! The Borsh encoding of fixed-width integers, byte vectors, strings and options, and readers that
thread an offset through a byte string. A reader is right when it finds a value wherever its code
lies and stops behind it; readers compose field by field. -/
namespace Kswarm
variable {ε α β : Type}

def borshU32 (n : UInt32) : Bytes := leBytes 4 n.toNat
def borshU64 (n : UInt64) : Bytes := leBytes 8 n.toNat

/-- Two's complement. -/
def borshI64 (n : Int64) : Bytes := leBytes 8 n.toUInt64.toNat

def borshBool (b : Bool) : Bytes := [if b then 1 else 0]

/-- A `u32` length, then the bytes. -/
def borshVec (b : Bytes) : Bytes := borshU32 (UInt32.ofNat b.length) ++ b

def borshString (s : String) : Bytes := borshVec (utf8 s.toList)

/-- A tag byte, then the value if there is one. -/
def borshOption (code : α → Bytes) : Option α → Bytes
  | none => [0]
  | some a => 1 :: code a

/-- Read a value at an offset; the offset behind it comes back. -/
abbrev Reader (ε α : Type) : Type := Bytes → ℕ → Except ε (α × ℕ)

/-- Wherever `code` lies in the data, the reader returns `a` and stops behind it. -/
def Reads (read : Reader ε α) (code : Bytes) (a : α) : Prop :=
  ∀ data offset rest, data.drop offset = code ++ rest →
    ∃ offset', read data offset = .ok (a,offset') ∧ data.drop offset' = rest

/-- One field of a record: read it, and go on behind it. -/
lemma Reads.bind {read : Reader ε α} {code : Bytes} {a : α} (h : Reads read code a)
    {data rest : Bytes} {offset : ℕ} {next : α × ℕ → Except ε β} {r : β}
    (hd : data.drop offset = code ++ rest)
    (hnext : ∀ offset', data.drop offset' = rest → next (a,offset') = .ok r) :
    (read data offset >>= next) = .ok r := by
  obtain ⟨offset',hread,hrest⟩ := h data offset rest hd
  exact bind_eq_ok.mpr ⟨(a,offset'),hread,hnext offset' hrest⟩

lemma Reads.map {read : Reader ε α} {code : Bytes} {a : α} (h : Reads read code a) (f : α → β) :
    Reads (fun data offset => do
      let (a,offset) ← read data offset
      pure (f a,offset)) code (f a) := by
  intro data offset rest hd
  obtain ⟨offset',hread,hrest⟩ := h data offset rest hd
  exact ⟨offset',bind_eq_ok.mpr ⟨_,hread,rfl⟩,hrest⟩

section Cut
variable {data code rest : Bytes} {offset : ℕ}

lemma take_of_drop_eq (h : data.drop offset = code ++ rest) :
    (data.drop offset).take code.length = code := by
  rw [h,List.take_left]

lemma drop_of_drop_eq (h : data.drop offset = code ++ rest) :
    data.drop (offset+code.length) = rest := by
  rw [← List.drop_drop,h,List.drop_left]

lemma le_of_drop_eq (h : data.drop offset = code ++ rest) (hpos : 0 < code.length) :
    offset+code.length ≤ data.length := by
  have hlen := congrArg List.length h
  rw [List.length_drop,List.length_append] at hlen
  omega

end Cut

/-- `w` little-endian bytes as a number; refused when the data ends before them. -/
def readLe (w : ℕ) (short : ε) : Reader ε ℕ := fun data offset => do
  failIf (data.length < offset+w) short
  pure (ofLe ((data.drop offset).take w),offset+w)

lemma reads_le {w n : ℕ} (hw : 0 < w) (hn : n < 256^w) (short : ε) :
    Reads (readLe w short) (leBytes w n) n := by
  intro data offset rest hd
  have hle := le_of_drop_eq hd (by simpa using hw)
  have htake := take_of_drop_eq hd
  have hdrop := drop_of_drop_eq hd
  rw [leBytes_length] at hle htake hdrop
  refine ⟨offset+w,?_,hdrop⟩
  rw [readLe,failIf_of_not (by omega),ok_bind,htake,ofLe_leBytes_of_lt hn]
  rfl

def readU16Of (short : ε) : Reader ε UInt16 := fun data offset => do
  let (n,offset) ← readLe 2 short data offset
  pure (UInt16.ofNat n,offset)

def readU32Of (short : ε) : Reader ε UInt32 := fun data offset => do
  let (n,offset) ← readLe 4 short data offset
  pure (UInt32.ofNat n,offset)

def readU64Of (short : ε) : Reader ε UInt64 := fun data offset => do
  let (n,offset) ← readLe 8 short data offset
  pure (UInt64.ofNat n,offset)

def readI64Of (short : ε) : Reader ε Int64 := fun data offset => do
  let (n,offset) ← readLe 8 short data offset
  pure ((UInt64.ofNat n).toInt64,offset)

lemma reads_u32 (n : UInt32) (short : ε) : Reads (readU32Of short) (borshU32 n) n := by
  have h := (reads_le (by decide : 0 < 4) n.toNat_lt short).map UInt32.ofNat
  rwa [UInt32.ofNat_toNat] at h

lemma reads_u64 (n : UInt64) (short : ε) : Reads (readU64Of short) (borshU64 n) n := by
  have h := (reads_le (by decide : 0 < 8) n.toNat_lt short).map UInt64.ofNat
  rwa [UInt64.ofNat_toNat] at h

lemma reads_i64 (n : Int64) (short : ε) : Reads (readI64Of short) (borshI64 n) n := by
  have h := (reads_le (by decide : 0 < 8) n.toUInt64.toNat_lt short).map
    (fun m => (UInt64.ofNat m).toInt64)
  rw [UInt64.ofNat_toNat] at h
  exact h

/-- The byte at the offset; refused past the end. -/
def readByteAt (short : ε) : Reader ε UInt8 := fun data offset => do
  let byte ← require data[offset]? short
  pure (byte,offset+1)

lemma reads_byte (b : UInt8) (short : ε) : Reads (readByteAt short) [b] b := by
  intro data offset rest hd
  refine ⟨offset+1,?_,drop_of_drop_eq hd⟩
  have hget : data[offset]? = some b := by
    have := congrArg (fun l => l[0]?) hd
    simpa using this
  rw [readByteAt,hget]
  rfl

/-- A slice of the data, which is short where the data ends. -/
def readSlice (length : ℕ) : Reader ε Bytes := fun data offset =>
  pure ((data.drop offset).take length,offset+length)

lemma reads_slice {code : Bytes} {length : ℕ} (h : code.length = length) :
    Reads (readSlice length : Reader ε Bytes) code code := by
  subst h
  intro data offset rest hd
  refine ⟨offset+code.length,?_,drop_of_drop_eq hd⟩
  rw [readSlice,take_of_drop_eq hd]
  rfl

/-- A length, then a slice of that length. -/
def readSized (readLength : Reader ε UInt32) : Reader ε Bytes := fun data offset => do
  let (length,offset) ← readLength data offset
  readSlice length.toNat data offset

/-- A length a `u32` prefix can state. -/
def Sized (n : ℕ) : Prop := n < 256^4

instance (n : ℕ) : Decidable (Sized n) := inferInstanceAs (Decidable (n < 256^4))

lemma reads_sized {readLength : Reader ε UInt32} (h : ∀ n, Reads readLength (borshU32 n) n)
    {bytes : Bytes} (hb : Sized bytes.length) :
    Reads (readSized readLength) (borshVec bytes) bytes := by
  intro data offset rest hd
  rw [borshVec,List.append_assoc] at hd
  have hlen : bytes.length = (UInt32.ofNat bytes.length).toNat := by
    rw [UInt32.toNat_ofNat_of_lt' hb]
  obtain ⟨middle,hlength,hrest⟩ := h _ data offset _ hd
  obtain ⟨offset',hslice,hend⟩ := reads_slice hlen data middle rest hrest
  exact ⟨offset',bind_eq_ok.mpr ⟨_,hlength,hslice⟩,hend⟩

/-- An option behind its tag byte. At the end of the data there is none; any other tag is refused. -/
def readOptionOf (readTag : Reader ε UInt8) (invalidTag : UInt8 → ε) (read : Reader ε α) :
    Reader ε (Option α) := fun data offset =>
  if data.length ≤ offset then pure (none,offset)
  else do
    let (tag,offset) ← readTag data offset
    if tag = 0 then pure (none,offset)
    else do
      failIf (tag ≠ 1) (invalidTag tag)
      let (value,offset) ← read data offset
      pure (some value,offset)

lemma reads_option {readTag : Reader ε UInt8} (htag : ∀ b, Reads readTag [b] b)
    (invalidTag : UInt8 → ε) {read : Reader ε α} {code : α → Bytes} {o : Option α}
    (h : ∀ a ∈ o, Reads read (code a) a) :
    Reads (readOptionOf readTag invalidTag read) (borshOption code o) o := by
  intro data offset rest hd
  have hne : ¬data.length ≤ offset := by
    have := le_of_drop_eq hd (by cases o <;> simp [borshOption])
    have hpos : 0 < (borshOption code o).length := by cases o <;> simp [borshOption]
    omega
  simp only [readOptionOf,if_neg hne]
  cases o with
  | none =>
    obtain ⟨offset',hread,hrest⟩ := htag 0 data offset rest hd
    exact ⟨offset',bind_eq_ok.mpr ⟨_,hread,rfl⟩,hrest⟩
  | some a =>
    obtain ⟨middle,hread,hmid⟩ := htag 1 data offset (code a ++ rest) hd
    obtain ⟨offset',hvalue,hrest⟩ := h a rfl data middle rest hmid
    refine ⟨offset',bind_eq_ok.mpr ⟨_,hread,?_⟩,hrest⟩
    rw [if_neg (by simp),failIf_of_not (by simp),ok_bind]
    exact bind_eq_ok.mpr ⟨_,hvalue,rfl⟩

section Layout

/-- The kinds of slot a layout is made of. -/
inductive Slot where
  | fixed (width : ℕ)
  | sized
  | option (value : Slot)

namespace Slot

/-- Where the slot at an offset ends, by the lengths and tags the data declares. A missing tag ends
an option at once. -/
def after : Slot → Bytes → ℕ → ℕ
  | fixed width,_,offset => offset + width
  | sized,data,offset => offset + 4 + ofLe ((data.drop offset).take 4)
  | option value,data,offset =>
    if data.length ≤ offset then offset
    else if data.getD offset 0 = 0 then offset + 1
    else value.after data (offset+1)

/-- Where its parts begin and end: a length and its bytes, a tag and its value. -/
def spans : Slot → Bytes → ℕ → List (ℕ × ℕ)
  | fixed width,_,offset => [(offset,offset + width)]
  | sized,data,offset =>
    [(offset,offset + 4),(offset + 4,offset + 4 + ofLe ((data.drop offset).take 4))]
  | option value,data,offset =>
    if data.length ≤ offset then []
    else (offset,offset + 1) ::
      (if data.getD offset 0 = 0 then [] else value.spans data (offset+1))

lemma le_after (f : Slot) (data : Bytes) (offset : ℕ) : offset ≤ f.after data offset := by
  induction f generalizing offset with
  | fixed width => exact Nat.le_add_right _ _
  | sized =>
    rw [after]
    omega
  | option value ih =>
    rw [after]
    split_ifs
    · exact le_rfl
    · exact Nat.le_succ _
    · exact (Nat.le_succ _).trans (ih _)

/-- No part reaches beyond the end of its slot. -/
lemma spans_le_after (f : Slot) (data : Bytes) (offset : ℕ) :
    ∀ s ∈ f.spans data offset, s.2 ≤ f.after data offset := by
  induction f generalizing offset with
  | fixed width =>
    intro s hs
    rw [List.mem_singleton.mp hs]
    exact le_rfl
  | sized =>
    intro s hs
    simp only [spans,List.mem_cons,List.not_mem_nil,or_false] at hs
    rcases hs with rfl | rfl
    · exact Nat.le_add_right _ _
    · exact le_rfl
  | option value ih =>
    intro s hs
    rw [spans] at hs
    rw [after]
    split_ifs at hs ⊢ with hend hnone
    · cases hs
    · rw [List.mem_singleton.mp hs]
    · rcases List.mem_cons.mp hs with rfl | hs
      · exact value.le_after data _
      · exact ih _ s hs

end Slot

/-- Where a layout ends. -/
def layoutEnd : List Slot → Bytes → ℕ → ℕ
  | [],_,offset => offset
  | f::fs,data,offset => layoutEnd fs data (f.after data offset)

/-- The parts of a layout. -/
def layoutSpans : List Slot → Bytes → ℕ → List (ℕ × ℕ)
  | [],_,_ => []
  | f::fs,data,offset => f.spans data offset ++ layoutSpans fs data (f.after data offset)

lemma le_layoutEnd (fs : List Slot) (data : Bytes) (offset : ℕ) : offset ≤ layoutEnd fs data offset := by
  induction fs generalizing offset with
  | nil => exact le_rfl
  | cons f fs ih => exact (f.le_after data offset).trans (ih _)

/-- A layout that ends inside the data lies inside it, part by part. -/
theorem layoutSpans_le (fs : List Slot) (data : Bytes) (offset : ℕ) :
    ∀ s ∈ layoutSpans fs data offset, s.2 ≤ layoutEnd fs data offset := by
  induction fs generalizing offset with
  | nil => exact fun s hs => nomatch hs
  | cons f fs ih =>
    intro s hs
    rcases List.mem_append.mp hs with hs | hs
    · exact (f.spans_le_after data offset s hs).trans (le_layoutEnd fs data _)
    · exact ih _ s hs

/-- Where the reader succeeds it stops at the end of the slot. -/
def Walks (read : Reader ε α) (f : Slot) : Prop :=
  ∀ data offset a offset', read data offset = .ok (a,offset') → offset' = f.after data offset

/-- The reader succeeds inside the data only. -/
def Checks (read : Reader ε α) : Prop :=
  ∀ data offset a offset', read data offset = .ok (a,offset') → offset' ≤ data.length

/-- Where the rest of a decoder succeeds, the rest of its layout ends inside the data. -/
def Covers (fs : List Slot) (data : Bytes) (offset : ℕ) (x : Except ε β) : Prop :=
  ∀ r, x = .ok r → layoutEnd fs data offset ≤ data.length

lemma Covers.slot {read : Reader ε α} {f : Slot} {fs : List Slot} {data : Bytes} {offset : ℕ}
    {next : α × ℕ → Except ε β} (h : Walks read f)
    (hnext : ∀ a, Covers fs data (f.after data offset) (next (a,f.after data offset))) :
    Covers (f::fs) data offset (read data offset >>= next) := by
  intro r hr
  obtain ⟨⟨a,offset'⟩,hread,hr⟩ := bind_eq_ok.mp hr
  rw [h data offset a offset' hread] at hr
  exact hnext a r hr

/-- A checked last slot vouches for the whole layout. -/
lemma Covers.last {read : Reader ε α} {f : Slot} {data : Bytes} {offset : ℕ}
    {next : α × ℕ → Except ε β} (h : Walks read f) (hc : Checks read) :
    Covers [f] data offset (read data offset >>= next) := by
  intro r hr
  obtain ⟨⟨a,offset'⟩,hread,-⟩ := bind_eq_ok.mp hr
  have hend := hc data offset a offset' hread
  rwa [h data offset a offset' hread] at hend

section Readers

lemma readLe_ok {w : ℕ} {short : ε} {data : Bytes} {offset n offset' : ℕ}
    (h : readLe w short data offset = .ok (n,offset')) :
    offset + w ≤ data.length ∧ n = ofLe ((data.drop offset).take w) ∧ offset' = offset + w := by
  simp only [readLe,bind_eq_ok,failIf_eq_ok,pure_eq_ok,Prod.mk.injEq] at h
  obtain ⟨_,hle,rfl,rfl⟩ := h
  exact ⟨not_lt.mp hle,rfl,rfl⟩

variable {short : ε}

lemma Walks.map {read : Reader ε α} {f : Slot} (h : Walks read f) (g : α → β) :
    Walks (fun data offset => do
      let (a,offset) ← read data offset
      pure (g a,offset)) f := by
  intro data offset b offset' hb
  obtain ⟨⟨a,middle⟩,hread,hb⟩ := bind_eq_ok.mp hb
  obtain ⟨-,rfl⟩ := Prod.mk.inj (pure_eq_ok.mp hb)
  exact h data offset a middle hread

lemma Checks.map {read : Reader ε α} (h : Checks read) (g : α → β) :
    Checks (fun data offset => do
      let (a,offset) ← read data offset
      pure (g a,offset)) := by
  intro data offset b offset' hb
  obtain ⟨⟨a,middle⟩,hread,hb⟩ := bind_eq_ok.mp hb
  obtain ⟨-,rfl⟩ := Prod.mk.inj (pure_eq_ok.mp hb)
  exact h data offset a middle hread

lemma walks_le (w : ℕ) : Walks (readLe w short) (.fixed w) :=
  fun _ _ _ _ h => (readLe_ok h).2.2

lemma checks_le (w : ℕ) : Checks (readLe w short) := by
  intro data offset n offset' h
  obtain ⟨hle,-,rfl⟩ := readLe_ok h
  exact hle

lemma walks_u16 : Walks (readU16Of short) (.fixed 2) := (walks_le 2).map _
lemma walks_u32 : Walks (readU32Of short) (.fixed 4) := (walks_le 4).map _
lemma walks_u64 : Walks (readU64Of short) (.fixed 8) := (walks_le 8).map _
lemma walks_i64 : Walks (readI64Of short) (.fixed 8) :=
  (walks_le 8).map (fun m => (UInt64.ofNat m).toInt64)
lemma checks_u32 : Checks (readU32Of short) := (checks_le 4).map _

lemma readByteAt_ok {data : Bytes} {offset offset' : ℕ} {b : UInt8}
    (h : readByteAt short data offset = .ok (b,offset')) :
    data[offset]? = some b ∧ offset' = offset + 1 := by
  simp only [readByteAt,bind_eq_ok,require_eq_ok,pure_eq_ok,Prod.mk.injEq] at h
  obtain ⟨_,hb,rfl,rfl⟩ := h
  exact ⟨hb,rfl⟩

lemma walks_byte : Walks (readByteAt short) (.fixed 1) := fun _ _ _ _ h => (readByteAt_ok h).2

lemma checks_byte : Checks (readByteAt short) := by
  intro data offset b offset' h
  obtain ⟨hb,rfl⟩ := readByteAt_ok h
  exact (List.getElem?_eq_some_iff.mp hb).1

lemma walks_slice (length : ℕ) : Walks (readSlice length : Reader ε Bytes) (.fixed length) := by
  intro data offset b offset' h
  exact (Prod.mk.inj (pure_eq_ok.mp h)).2.symm

lemma walks_sized : Walks (readSized (readU32Of short)) .sized := by
  intro data offset b offset' h
  simp only [readSized,readU32Of,bind_eq_ok,pure_eq_ok] at h
  obtain ⟨_,⟨⟨n,middle⟩,hn,rfl⟩,hslice⟩ := h
  obtain ⟨-,hvalue,rfl⟩ := readLe_ok hn
  have hlt : n < 256^4 := by
    rw [hvalue]
    apply (ofLe_lt _).trans_le
    exact Nat.pow_le_pow_right (by decide) (List.length_take_le 4 _)
  have hend := walks_slice _ _ _ _ _ hslice
  dsimp only at hend
  rw [UInt32.toNat_ofNat_of_lt' hlt] at hend
  rw [hend,hvalue]
  rfl

lemma walks_option {invalidTag : UInt8 → ε} {read : Reader ε α} {f : Slot} (h : Walks read f) :
    Walks (readOptionOf (readByteAt short) invalidTag read) (.option f) := by
  intro data offset o offset' ho
  rw [Slot.after]
  unfold readOptionOf at ho
  split_ifs at ho ⊢ with hend hnone
  · exact (Prod.mk.inj (pure_eq_ok.mp ho)).2.symm
  · obtain ⟨⟨tag,middle⟩,htag,ho⟩ := bind_eq_ok.mp ho
    obtain ⟨hget,rfl⟩ := readByteAt_ok htag
    rw [List.getD_eq_getElem?_getD,hget,Option.getD_some] at hnone
    dsimp only at ho
    rw [if_pos hnone] at ho
    exact (Prod.mk.inj (pure_eq_ok.mp ho)).2.symm
  · obtain ⟨⟨tag,middle⟩,htag,ho⟩ := bind_eq_ok.mp ho
    obtain ⟨hget,rfl⟩ := readByteAt_ok htag
    rw [List.getD_eq_getElem?_getD,hget,Option.getD_some] at hnone
    dsimp only at ho
    rw [if_neg hnone] at ho
    obtain ⟨_,-,ho⟩ := bind_eq_ok.mp ho
    obtain ⟨⟨value,last⟩,hvalue,ho⟩ := bind_eq_ok.mp ho
    rw [← (Prod.mk.inj (pure_eq_ok.mp ho)).2]
    exact h data (offset+1) value last hvalue

end Readers

/-- With its width inside the data the reader succeeds, with a value of the kind `P`. -/
def Serves (read : Reader ε α) (width : ℕ) (P : α → Prop) : Prop :=
  ∀ data offset, offset + width ≤ data.length →
    ∃ a, read data offset = .ok (a,offset + width) ∧ P a

lemma Serves.bind {read : Reader ε α} {width : ℕ} {P : α → Prop} (h : Serves read width P)
    {data : Bytes} {offset : ℕ} {next : α × ℕ → Except ε β} (hfit : offset + width ≤ data.length)
    (hnext : ∀ a, P a → ∃ r, next (a,offset + width) = .ok r) :
    ∃ r, (read data offset >>= next) = .ok r := by
  obtain ⟨a,hread,ha⟩ := h data offset hfit
  obtain ⟨r,hr⟩ := hnext a ha
  exact ⟨r,bind_eq_ok.mpr ⟨_,hread,hr⟩⟩

lemma Serves.map {read : Reader ε α} {width : ℕ} {P : α → Prop} (h : Serves read width P)
    (g : α → β) : Serves (fun data offset => do
      let (a,offset) ← read data offset
      pure (g a,offset)) width (fun _ => True) := by
  intro data offset hfit
  obtain ⟨a,hread,-⟩ := h data offset hfit
  exact ⟨g a,bind_eq_ok.mpr ⟨_,hread,rfl⟩,trivial⟩

lemma serves_le (w : ℕ) (short : ε) : Serves (readLe w short) w (fun _ => True) := by
  intro data offset hfit
  exact ⟨_,bind_eq_ok.mpr ⟨(),failIf_of_not (not_lt.mpr hfit),rfl⟩,trivial⟩

lemma serves_u16 (short : ε) : Serves (readU16Of short) 2 (fun _ => True) :=
  (serves_le 2 short).map UInt16.ofNat

lemma serves_u64 (short : ε) : Serves (readU64Of short) 8 (fun _ => True) :=
  (serves_le 8 short).map UInt64.ofNat

lemma serves_i64 (short : ε) : Serves (readI64Of short) 8 (fun _ => True) :=
  (serves_le 8 short).map (fun m => (UInt64.ofNat m).toInt64)

lemma serves_byte (short : ε) : Serves (readByteAt short) 1 (fun _ => True) := by
  intro data offset hfit
  exact ⟨_,bind_eq_ok.mpr ⟨_,require_eq_ok.mpr (List.getElem?_eq_getElem (by omega)),rfl⟩,trivial⟩

lemma serves_slice (length : ℕ) :
    Serves (readSlice length : Reader ε Bytes) length (fun b => b.length = length) := by
  intro data offset hfit
  have hrest : length ≤ (data.drop offset).length := by
    rw [List.length_drop]
    omega
  exact ⟨_,rfl,List.length_take_of_le hrest⟩

end Layout

end Kswarm
