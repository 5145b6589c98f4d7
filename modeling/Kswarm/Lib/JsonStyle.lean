import Kswarm.Lib.JsJson

/-! Writers of JSON text that differ in how they escape a character and in the blanks they put after
a separator. The reader inverts every one of them on trees without binary64 numbers and without
repeated keys. -/
namespace Kswarm
namespace Json

/-- A way of writing: every escape is read as its character, and separators may end in blanks. -/
structure Style where
  escape : Char → List Char
  afterComma : List Char
  afterColon : List Char
  reads_escape : ∀ n c r, readChars (n+1) (escape c ++ r) =
    (readChars n r).map (fun p => (c::p.1,p.2))
  blank_comma : ∀ c ∈ afterComma, isWs c = true
  blank_colon : ∀ c ∈ afterColon, isWs c = true

namespace Style
variable (s : Style)

def text (t : String) : List Char := '"' :: (t.toList.flatMap s.escape ++ ['"'])

mutual
def write : Json → List Char
  | .str t => s.text t
  | .arr [] => ['[',']']
  | .arr (x::xs) => '[' :: (write x ++ writeElems xs)
  | .obj [] => ['{','}']
  | .obj ((k,x)::fs) => '{' :: (s.text k ++ ':' :: (s.afterColon ++ (write x ++ writeFields fs)))
  | v => render v
def writeElems : List Json → List Char
  | [] => [']']
  | x::xs => ',' :: (s.afterComma ++ (write x ++ writeElems xs))
def writeFields : List (String × Json) → List Char
  | [] => ['}']
  | (k,x)::fs => ',' :: (s.afterComma ++ (s.text k ++ ':' :: (s.afterColon ++
      (write x ++ writeFields fs))))
end

variable {s}

lemma escape_length (c : Char) : 1 ≤ (s.escape c).length := by
  have h := s.reads_escape 0 c ['"']
  cases he : s.escape c with
  | nil =>
    rw [he] at h
    cases h
  | cons d ds => simp

lemma readChars_escaped (t : List Char) (n : ℕ) (h : t.length < n) (r : List Char) :
    readChars n (t.flatMap s.escape ++ '"' :: r) = some (t,r) := by
  induction t generalizing n with
  | nil =>
    obtain ⟨m,rfl⟩ : ∃ m, n = m+1 := ⟨n-1,by simp at h; omega⟩
    rfl
  | cons c t ih =>
    obtain ⟨m,rfl⟩ : ∃ m, n = m+1 := ⟨n-1,by simp at h; omega⟩
    simp only [List.length_cons,Nat.add_lt_add_iff_right] at h
    rw [List.flatMap_cons,List.append_assoc,s.reads_escape,ih m h]
    rfl

lemma length_le_escaped (t : List Char) : t.length ≤ (t.flatMap s.escape).length := by
  induction t with
  | nil => simp
  | cons c t ih =>
    have := s.escape_length c
    simp only [List.flatMap_cons,List.length_append,List.length_cons]
    omega

/-- A written string is read back whole. -/
theorem readString_text (t : String) (r : List Char) :
    readString (t.toList.flatMap s.escape ++ '"' :: r) = some (t,r) := by
  unfold readString
  have hl := s.length_le_escaped t.toList
  rw [readChars_escaped t.toList _ (by simp only [List.length_append,List.length_cons]; omega) r]
  simp

lemma skipWs_blank {b : List Char} (h : ∀ c ∈ b, isWs c = true) (r : List Char) :
    skipWs (b ++ r) = skipWs r := by
  induction b with
  | nil => rfl
  | cons c b ih =>
    obtain ⟨hc,hb⟩ := List.forall_mem_cons.mp h
    rw [List.cons_append,← ih hb]
    simp [skipWs,hc]

/-- A written value is never mistaken for whitespace or for the end of an array. -/
lemma write_head (v : Json) (hv : v.Plain) :
    ∃ c r, s.write v = c::r ∧ isWs c = false ∧ c ≠ ']' := by
  match v,hv with
  | .str t,_ => exact ⟨_,_,rfl,rfl,by decide⟩
  | .arr [],_ => exact ⟨_,_,rfl,rfl,by decide⟩
  | .arr (x::xs),_ => exact ⟨_,_,rfl,rfl,by decide⟩
  | .obj [],_ => exact ⟨_,_,rfl,rfl,by decide⟩
  | .obj ((k,x)::fs),_ => exact ⟨_,_,rfl,rfl,by decide⟩
  | .null,hv => exact render_head .null hv
  | .bool b,hv => exact render_head (.bool b) hv
  | .int n,hv => exact render_head (.int n) hv

lemma skipWs_write (v : Json) (hv : v.Plain) (r : List Char) :
    skipWs (s.write v ++ r) = s.write v ++ r := by
  obtain ⟨c,r',h,hw,-⟩ := s.write_head v hv
  rw [h,List.cons_append,skipWs_cons hw]

variable (s) in
/-- The elements of a non-empty array, without its opening bracket. -/
def elems : List Json → List Char
  | [] => []
  | x::xs => s.write x ++ s.writeElems xs

variable (s) in
/-- The members of a non-empty object, without its opening brace. -/
def members : List (String × Json) → List Char
  | [] => []
  | (k,x)::fs => s.text k ++ ':' :: (s.afterColon ++ (s.write x ++ s.writeFields fs))

lemma writeElems_cons (x : Json) (xs : List Json) :
    s.writeElems (x::xs) = ',' :: (s.afterComma ++ s.elems (x::xs)) := rfl

lemma writeFields_cons (p : String × Json) (fs : List (String × Json)) :
    s.writeFields (p::fs) = ',' :: (s.afterComma ++ s.members (p::fs)) := rfl

lemma boundary_writeElems (xs : List Json) (r : List Char) : Boundary (s.writeElems xs ++ r) := by
  cases xs with
  | nil => exact boundary_sep (.inr (.inl rfl)) r
  | cons x xs => exact boundary_sep (.inl rfl) _

lemma boundary_writeFields (fs : List (String × Json)) (r : List Char) :
    Boundary (s.writeFields fs ++ r) := by
  cases fs with
  | nil => exact boundary_sep (.inr (.inr rfl)) r
  | cons p fs => exact boundary_sep (.inl rfl) _

lemma skipWs_elems (x : Json) (xs : List Json) (hx : x.Plain) (r : List Char) :
    skipWs (s.afterComma ++ (s.elems (x::xs) ++ r)) = s.elems (x::xs) ++ r := by
  rw [skipWs_blank s.blank_comma,elems,List.append_assoc,skipWs_write x hx]

lemma skipWs_members (p : String × Json) (fs : List (String × Json)) (r : List Char) :
    skipWs (s.afterComma ++ (s.members (p::fs) ++ r)) = s.members (p::fs) ++ r := by
  rw [skipWs_blank s.blank_comma,members,text]
  exact skipWs_cons (by rfl) _

/-- An object is read when its members are, whatever follows it. -/
lemma readValue_members {k : String} {x : Json} {fs : List (String × Json)} {n : ℕ} {r : List Char}
    (hkeys : (((k,x)::fs).map Prod.fst).Nodup)
    (hread : readFields n (s.members ((k,x)::fs) ++ r) = some ((k,x)::fs,r)) :
    readValue (n+1) (s.write (.obj ((k,x)::fs)) ++ r) = some (.obj ((k,x)::fs),r) := by
  have ht : s.members ((k,x)::fs) ++ r = '"' :: (k.toList.flatMap s.escape ++
      '"' :: ':' :: (s.afterColon ++ (s.write x ++ (s.writeFields fs ++ r)))) := by
    simp [members,text]
  have hcons : s.write (.obj ((k,x)::fs)) ++ r = '{' :: (s.members ((k,x)::fs) ++ r) := by
    simp [write,members]
  rw [hcons]
  rw [ht] at hread ⊢
  simp only [readValue]
  rw [if_neg (by decide),if_neg (by decide),if_pos trivial,skipWs_cons (by rfl)]
  change (readFields n _).map _ = _
  rw [hread,Option.map_some,dictOf_of_nodup hkeys]

mutual
/-- The reader inverts the writer, with fuel for every character of the text. -/
theorem readValue_write : (v : Json) → v.Plain → (n : ℕ) → (s.write v).length ≤ n →
    (r : List Char) → Boundary r → readValue n (s.write v ++ r) = some (v,r)
  | .null,_,n+1,_,r,_ => rfl
  | .bool true,_,n+1,_,r,_ => rfl
  | .bool false,_,n+1,_,r,_ => rfl
  | .int m,_,n+1,_,r,hr => readValue_int n m hr
  | .int m,_,0,hn,r,_ => by
    obtain ⟨c,cs,hc,-⟩ := decimalInt_head m
    simp [write,render,hc] at hn
  | .str t,_,n+1,_,r,_ => by
    have hs := s.readString_text t r
    simp only [write,text,List.cons_append,List.append_assoc,List.nil_append,readValue,
      if_true,hs,Option.map_some]
  | .arr [],_,n+1,_,r,_ => rfl
  | .arr (x::xs),hv,n+1,hn,r,_ => by
    have hb : (s.elems (x::xs)).length ≤ n := by simpa [write,elems] using hn
    have hread := readElems_write (x::xs) hv n (by simp) hb r
    obtain ⟨c,cs,hc,hw,hne⟩ := s.write_head x hv.1
    have ht : s.elems (x::xs) ++ r = c :: (cs ++ (s.writeElems xs ++ r)) := by
      simp [elems,hc]
    have hcons : s.write (.arr (x::xs)) ++ r = '[' :: (s.elems (x::xs) ++ r) := by
      simp [write,elems]
    rw [hcons]
    rw [ht] at hread ⊢
    simp only [readValue]
    rw [if_neg (by decide),if_pos trivial,skipWs_cons hw]
    split
    · rename_i r' he
      rw [List.cons.injEq] at he
      exact absurd he.1 hne
    · rw [hread]
      rfl
  | .obj [],_,n+1,_,r,_ => rfl
  | .obj ((k,x)::fs),hv,n+1,hn,r,_ => by
    have hb : (s.members ((k,x)::fs)).length ≤ n := by simpa [write,members] using hn
    exact readValue_members hv.1 (readFields_write ((k,x)::fs) hv.2 n (by simp) hb r)
theorem readElems_write : (xs : List Json) → PlainElems xs → (n : ℕ) → xs ≠ [] →
    (s.elems xs).length ≤ n → (r : List Char) →
    readElems n (s.elems xs ++ r) = some (xs,r)
  | x::xs,hv,n,_,hn,r => by
    obtain ⟨c,cs,hc,-⟩ := s.write_head x hv.1
    have hlen : (s.write x).length + (s.writeElems xs).length ≤ n := by
      simpa [elems] using hn
    have hpos : 1 ≤ (s.writeElems xs).length := by cases xs <;> simp [writeElems]
    obtain ⟨m,rfl⟩ : ∃ m, n = m+1 := ⟨n-1,by omega⟩
    have hx := readValue_write x hv.1 m (by omega) (s.writeElems xs ++ r)
      (s.boundary_writeElems xs r)
    simp only [elems,List.append_assoc,readElems,hx,Option.bind_eq_bind,Option.bind_some]
    cases xs with
    | nil => rfl
    | cons y ys =>
      have hb : (s.elems (y::ys)).length ≤ m := by
        simp only [writeElems_cons,List.length_cons,List.length_append] at hlen
        omega
      have hread := readElems_write (y::ys) hv.2 m (by simp) hb r
      rw [writeElems_cons,List.cons_append,List.append_assoc,skipWs_cons (by rfl)]
      simp only [skipWs_elems y ys hv.2.1,hread,Option.map_some]
theorem readFields_write : (fs : List (String × Json)) → PlainFields fs → (n : ℕ) → fs ≠ [] →
    (s.members fs).length ≤ n → (r : List Char) →
    readFields n (s.members fs ++ r) = some (fs,r)
  | (k,x)::fs,hv,n,_,hn,r => by
    have hlen : (s.text k).length + (1 + (s.afterColon.length + ((s.write x).length +
        (s.writeFields fs).length))) ≤ n := by
      simp only [members,List.length_append,List.length_cons] at hn
      omega
    have hpos : 1 ≤ (s.writeFields fs).length := by cases fs <;> simp [writeFields]
    obtain ⟨m,rfl⟩ : ∃ m, n = m+1 := ⟨n-1,by omega⟩
    have hk := s.readString_text k (':' :: (s.afterColon ++ (s.write x ++
      (s.writeFields fs ++ r))))
    have hx := readValue_write x hv.1 m (by omega) (s.writeFields fs ++ r)
      (s.boundary_writeFields fs r)
    simp only [members,text,List.append_assoc,List.cons_append,List.nil_append,readFields,
      if_true,hk,Option.bind_eq_bind,Option.bind_some]
    rw [skipWs_cons (by rfl)]
    simp only [skipWs_blank s.blank_colon,skipWs_write x hv.1,hx,Option.bind_some]
    cases fs with
    | nil => rfl
    | cons p fs =>
      have hb : (s.members (p::fs)).length ≤ m := by
        simp only [writeFields_cons,List.length_cons,List.length_append] at hlen
        omega
      have hread := readFields_write (p::fs) hv.2 m (by simp) hb r
      rw [writeFields_cons,List.cons_append,List.append_assoc,skipWs_cons (by rfl)]
      simp only [skipWs_members p fs r,hread,Option.map_some]
end

/-- A written document is read back as itself. -/
theorem loads_write (v : Json) (hv : v.Plain) : loads (s.write v) = some v := by
  have hskip := s.skipWs_write v hv []
  have hread := readValue_write (s := s) v hv ((s.write v).length+1) (by omega) [] (.inl rfl)
  rw [List.append_nil] at hskip hread
  unfold loads
  rw [hskip,hread]
  rfl

/-- So is an object with blanks after it, such as the end of a line. -/
theorem loads_write_blank (fs : List (String × Json)) (hv : (obj fs).Plain) {b : List Char}
    (hb : ∀ c ∈ b, isWs c = true) : loads (s.write (.obj fs) ++ b) = some (.obj fs) := by
  have hread : readValue ((s.write (.obj fs) ++ b).length+1) (s.write (.obj fs) ++ b) =
      some (.obj fs,b) := by
    cases fs with
    | nil => rfl
    | cons p fs =>
      have hlen : (s.members (p::fs)).length ≤ (s.write (.obj (p::fs)) ++ b).length := by
        simp only [write,members,List.length_append,List.length_cons]
        omega
      exact readValue_members hv.1 (readFields_write (p::fs) hv.2 _ (by simp) hlen b)
  have hskip : (skipWs b).isEmpty = true := by
    rw [← List.append_nil b,skipWs_blank hb]
    rfl
  unfold loads
  rw [s.skipWs_write _ hv,hread]
  simp only [hskip,if_true]

end Style

section Ascii

def unicodeEscape (n : ℕ) : List Char := '\\' :: 'u' :: hex4 n

/-- `ensure_ascii`: what is not printable ASCII is escaped, in two halves when it is wide. -/
def escapeAscii (c : Char) : List Char :=
  if c.toNat < 127 then escapeChar c
  else if c.toNat < 0x10000 then unicodeEscape c.toNat
  else unicodeEscape (0xD800 + (c.toNat-0x10000)/0x400) ++
    unicodeEscape (0xDC00 + (c.toNat-0x10000)%0x400)

lemma char_cases (c : Char) :
    (c.toNat < 0xD800 ∨ 0xDFFF < c.toNat) ∧ c.toNat < 0x110000 := by
  have h := c.valid
  change c.toNat < 0xD800 ∨ (0xDFFF < c.toNat ∧ c.toNat < 0x110000) at h
  omega

lemma readEscape_unicode {c : Char} (h : c.toNat < 0x10000) (r : List Char) :
    readEscape ('u' :: (hex4 c.toNat ++ r)) = some (c,r) := by
  have hread := JsValue.readHex4_hex4 h r
  have hvalid := (char_cases c).1
  have hs : ¬(0xD800 ≤ c.toNat ∧ c.toNat < 0xDC00) := by omega
  have hs' : ¬(0xDC00 ≤ c.toNat ∧ c.toNat < 0xE000) := by omega
  simp only [readEscape,readUnicode,hread,if_true,Option.bind_eq_bind,Option.bind_some,hs,hs',
    if_false,Char.ofNat_toNat]

/-- Two halves are read together. -/
lemma readEscape_pair {hi lo : ℕ} (hhi : 0xD800 ≤ hi ∧ hi < 0xDC00)
    (hlo : 0xDC00 ≤ lo ∧ lo < 0xE000) (r : List Char) :
    readEscape ('u' :: (hex4 hi ++ '\\' :: 'u' :: (hex4 lo ++ r))) =
      some (Char.ofNat (0x10000 + (hi-0xD800)*0x400 + (lo-0xDC00)),r) := by
  have hlead := JsValue.readHex4_hex4 (n := hi) (by omega) ('\\' :: 'u' :: (hex4 lo ++ r))
  have htrail := JsValue.readHex4_hex4 (n := lo) (by omega) r
  simp only [readEscape,readUnicode,hlead,htrail,if_true,Option.bind_eq_bind,Option.bind_some,
    if_pos hhi,if_pos hlo]

lemma readEscape_wide {c : Char} (h : 0x10000 ≤ c.toNat) (r : List Char) :
    readEscape ('u' :: (hex4 (0xD800 + (c.toNat-0x10000)/0x400) ++
      (unicodeEscape (0xDC00 + (c.toNat-0x10000)%0x400) ++ r))) = some (c,r) := by
  have hlt := (char_cases c).2
  have hhi : 0xD800 ≤ 0xD800 + (c.toNat-0x10000)/0x400 ∧
      0xD800 + (c.toNat-0x10000)/0x400 < 0xDC00 := by omega
  have hlo : 0xDC00 ≤ 0xDC00 + (c.toNat-0x10000)%0x400 ∧
      0xDC00 + (c.toNat-0x10000)%0x400 < 0xE000 := by omega
  have hread := readEscape_pair hhi hlo r
  have hv : 0x10000 + (0xD800 + (c.toNat-0x10000)/0x400 - 0xD800)*0x400 +
      (0xDC00 + (c.toNat-0x10000)%0x400 - 0xDC00) = c.toNat := by omega
  rw [hv,Char.ofNat_toNat] at hread
  exact hread

/-- An escape sequence in a string stands for one character. -/
lemma readChars_backslash {c : Char} {e r : List Char} (h : readEscape (e ++ r) = some (c,r))
    (n : ℕ) : readChars (n+1) ('\\' :: (e ++ r)) = (readChars n r).map (fun p => (c::p.1,p.2)) := by
  simp only [readChars]
  rw [if_neg (by decide),if_pos trivial,h,Option.bind_eq_bind,Option.bind_some]
  cases readChars n r <;> simp

lemma readChars_escapeAscii (n : ℕ) (c : Char) (r : List Char) :
    readChars (n+1) (escapeAscii c ++ r) = (readChars n r).map (fun p => (c::p.1,p.2)) := by
  unfold escapeAscii
  split_ifs with hascii hnarrow
  · exact readChars_escapeChar n c r
  · have h := readEscape_unicode hnarrow r
    rw [← List.cons_append] at h
    exact readChars_backslash h n
  · have h := readEscape_wide (not_lt.mp hnarrow) r
    rw [← List.append_assoc,← List.cons_append] at h
    exact readChars_backslash h n

/-- `json.dumps`. -/
def spacedAscii : Style where
  escape := escapeAscii
  afterComma := [' ']
  afterColon := [' ']
  reads_escape := readChars_escapeAscii
  blank_comma := by simp [isWs]
  blank_colon := by simp [isWs]

/-- `json.dumps` with bare separators. -/
def compactAscii : Style where
  escape := escapeAscii
  afterComma := []
  afterColon := []
  reads_escape := readChars_escapeAscii
  blank_comma := by simp
  blank_colon := by simp

/-- `render` as a style. -/
def compact : Style where
  escape := escapeChar
  afterComma := []
  afterColon := []
  reads_escape := readChars_escapeChar
  blank_comma := by simp
  blank_colon := by simp

end Ascii

end Json
end Kswarm
