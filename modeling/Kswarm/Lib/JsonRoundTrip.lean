import Kswarm.Lib.JsonText

/-! Reading back written text. On trees without binary64 numbers and without repeated keys the
reader inverts the writer, so the text determines the tree. -/
namespace Kswarm
namespace Json

/-- What may follow a value inside a larger text: nothing, or a separator. -/
def Boundary (r : List Char) : Prop :=
  r = [] ∨ ∃ c r', r = c::r' ∧ (c = ',' ∨ c = ']' ∨ c = '}')

lemma hexValue_hexChar {n : ℕ} (h : n < 16) : hexValue (hexChar n) = some n := by
  interval_cases n <;> rfl

lemma readEscape_control {c : Char} (h : c.toNat < 32) (r : List Char) :
    readEscape ('u' :: '0' :: '0' :: hexChar (c.toNat/16) :: hexChar (c.toNat%16) :: r) =
      some (c,r) := by
  have h0 : hexValue '0' = some 0 := rfl
  have h1 := hexValue_hexChar (n := c.toNat/16) (by omega)
  have h2 := hexValue_hexChar (n := c.toNat%16) (by omega)
  have hv : ((0*16 + 0)*16 + c.toNat/16)*16 + c.toNat%16 = c.toNat := by omega
  have hs : ¬(0xD800 ≤ c.toNat ∧ c.toNat < 0xDC00) := by omega
  have hs' : ¬(0xDC00 ≤ c.toNat ∧ c.toNat < 0xE000) := by omega
  simp only [readEscape,readUnicode,readHex4,h0,h1,h2,if_true,Option.bind_eq_bind,
    Option.bind_some,hv,hs,hs',if_false,Char.ofNat_toNat]

/-- One written character is read as itself, whichever escape it got. -/
lemma readChars_escapeChar (n : ℕ) (c : Char) (r : List Char) :
    readChars (n+1) (escapeChar c ++ r) = (readChars n r).map (fun p => (c::p.1,p.2)) := by
  have hbind : ∀ d : Char, ((readChars n r).bind (fun p => some (d::p.1,p.2))) =
      (readChars n r).map (fun p => (d::p.1,p.2)) := by
    intro d
    cases readChars n r <;> rfl
  unfold escapeChar
  split_ifs with h1 h2 h3 h4 h5 h6 h7 h8
  · subst h1; exact hbind _
  · subst h2; exact hbind _
  · subst h3; exact hbind _
  · subst h4; exact hbind _
  · subst h5; exact hbind _
  · have hc : c = Char.ofNat 8 := by rw [← h6,Char.ofNat_toNat]
    subst hc; exact hbind _
  · have hc : c = Char.ofNat 12 := by rw [← h7,Char.ofNat_toNat]
    subst hc; exact hbind _
  · have he := readEscape_control h8 r
    simp only [List.cons_append,List.nil_append,readChars]
    rw [if_neg (by decide),if_pos trivial,he]
    exact hbind c
  · simp only [List.cons_append,List.nil_append,readChars,h1,h2,h8,if_false]
    exact hbind c

lemma readChars_escaped (s : List Char) (n : ℕ) (h : s.length < n) (r : List Char) :
    readChars n (s.flatMap escapeChar ++ '"' :: r) = some (s,r) := by
  induction s generalizing n with
  | nil =>
    obtain ⟨m,rfl⟩ : ∃ m, n = m+1 := ⟨n-1,by simp at h; omega⟩
    rfl
  | cons c s ih =>
    obtain ⟨m,rfl⟩ : ∃ m, n = m+1 := ⟨n-1,by simp at h; omega⟩
    simp only [List.length_cons,Nat.add_lt_add_iff_right] at h
    rw [List.flatMap_cons,List.append_assoc,readChars_escapeChar,ih m h]
    rfl

lemma escapeChar_length (c : Char) : 1 ≤ (escapeChar c).length := by
  unfold escapeChar
  split_ifs <;> simp

lemma length_le_escaped (s : List Char) : s.length ≤ (s.flatMap escapeChar).length := by
  induction s with
  | nil => simp
  | cons c s ih =>
    have := escapeChar_length c
    simp only [List.flatMap_cons,List.length_append,List.length_cons]
    omega

/-- A written string is read back whole. -/
theorem readString_renderStr (s : String) (r : List Char) :
    readString (s.toList.flatMap escapeChar ++ '"' :: r) = some (s,r) := by
  unfold readString
  have hl := length_le_escaped s.toList
  rw [readChars_escaped s.toList _ (by simp only [List.length_append,List.length_cons]; omega) r]
  simp

lemma skipWs_cons {c : Char} (h : isWs c = false) (r : List Char) : skipWs (c::r) = c::r := by
  simp [skipWs,h]

lemma boundary_not_digit {r : List Char} (h : Boundary r) : r.takeWhile isDigit = [] := by
  rcases h with rfl | ⟨c,r',rfl,rfl | rfl | rfl⟩ <;> rfl

lemma boundary_fraction {r : List Char} (h : Boundary r) : readFraction r = ([],r) := by
  rcases h with rfl | ⟨c,r',rfl,rfl | rfl | rfl⟩ <;> rfl

lemma boundary_exponent {r : List Char} (h : Boundary r) : readExponent r = (none,r) := by
  rcases h with rfl | ⟨c,r',rfl,rfl | rfl | rfl⟩ <;> rfl

lemma takeWhile_decimal (n : ℕ) {r : List Char} (h : Boundary r) :
    (decimal n ++ r).takeWhile isDigit = decimal n := by
  rw [List.takeWhile_append_of_pos (fun c hc => isDigit_of_mem_decimal hc),boundary_not_digit h,
    List.append_nil]

lemma wholeDigits_decimal (n : ℕ) {r : List Char} (h : Boundary r) :
    wholeDigits (decimal n ++ r) = decimal n := by
  unfold wholeDigits
  split
  · rename_i cs he
    obtain ⟨d,ds,hd⟩ := List.exists_cons_of_ne_nil (decimal_ne_nil n)
    rw [hd,List.cons_append,List.cons.injEq] at he
    obtain ⟨rfl,-⟩ := he
    rw [hd,decimal_head_zero hd]
  · exact takeWhile_decimal n h

/-- A written natural number is read as an integer with the given sign. -/
lemma readUnsigned_decimal (neg : Bool) (n : ℕ) {r : List Char} (h : Boundary r) :
    readUnsigned neg (decimal n ++ r) = some (.int (if neg then -(n : ℤ) else n),r) := by
  have hne : (decimal n).isEmpty = false := by simpa using decimal_ne_nil n
  simp only [readUnsigned,wholeDigits_decimal n h,hne,List.drop_left,boundary_fraction h,
    boundary_exponent h,digitsValue_decimal]
  simp

/-- No literal name starts with a digit. -/
lemma literals_digit {c : Char} (h : isDigit c = true) (r : List Char) :
    literals.find? (fun l => l.1.isPrefixOf (c::r)) = none := by
  have hne : ∀ d, isDigit d = false → (d == c) = false := by
    intro d hd
    rw [beq_eq_false_iff_ne]
    rintro rfl
    rw [hd] at h
    cases h
  simp only [literals,List.find?_cons,List.isPrefixOf_cons_cons,hne 'n' rfl,hne 't' rfl,
    hne 'f' rfl,hne 'N' rfl,hne 'I' rfl,hne '-' rfl,Bool.false_and,List.find?_nil]

lemma readAtom_decimal (n : ℕ) {r : List Char} (h : Boundary r) :
    readAtom (decimal n ++ r) = some (.int n,r) := by
  obtain ⟨d,ds,hd⟩ := List.exists_cons_of_ne_nil (decimal_ne_nil n)
  have hdig : isDigit d = true := isDigit_of_mem_decimal (n := n) (by simp [hd])
  have hr := readUnsigned_decimal false n h
  rw [hd,List.cons_append] at hr ⊢
  unfold readAtom
  rw [literals_digit hdig]
  simp only
  split
  · rename_i r' he
    rw [List.cons.injEq] at he
    obtain ⟨rfl,-⟩ := he
    cases hdig
  · simpa using hr

lemma readAtom_neg_decimal (n : ℕ) {r : List Char} (h : Boundary r) :
    readAtom ('-' :: (decimal n ++ r)) = some (.int (-(n : ℤ)),r) := by
  obtain ⟨d,ds,hd⟩ := List.exists_cons_of_ne_nil (decimal_ne_nil n)
  have hdig : isDigit d = true := isDigit_of_mem_decimal (n := n) (by simp [hd])
  have hi : ('I' == d) = false := by
    rw [beq_eq_false_iff_ne]
    rintro rfl
    cases hdig
  have hf : literals.find? (fun l => l.1.isPrefixOf ('-' :: (decimal n ++ r))) = none := by
    have h1 : ('n' == '-') = false := rfl
    have h2 : ('t' == '-') = false := rfl
    have h3 : ('f' == '-') = false := rfl
    have h4 : ('N' == '-') = false := rfl
    have h5 : ('I' == '-') = false := rfl
    rw [hd,List.cons_append]
    simp only [literals,List.find?_cons,List.isPrefixOf_cons_cons,h1,h2,h3,h4,h5,hi,
      Bool.false_and,Bool.and_false,List.find?_nil]
  unfold readAtom
  rw [hf]
  simpa using readUnsigned_decimal true n h

lemma readAtom_int (n : ℤ) {r : List Char} (h : Boundary r) :
    readAtom (decimalInt n ++ r) = some (.int n,r) := by
  cases n with
  | ofNat n => exact readAtom_decimal n h
  | negSucc n => exact readAtom_neg_decimal (n+1) h

lemma isDigit_not_special {c : Char} (h : isDigit c = true) :
    isWs c = false ∧ c ≠ ']' ∧ c ≠ '"' ∧ c ≠ '[' ∧ c ≠ '{' := by
  have hne : ∀ d, isDigit d = false → c ≠ d := by
    rintro d hd rfl
    rw [hd] at h
    cases h
  refine ⟨?_,hne _ rfl,hne _ rfl,hne _ rfl,hne _ rfl⟩
  simp only [isWs,Bool.or_eq_false_iff,beq_eq_false_iff_ne]
  exact ⟨⟨⟨hne _ rfl,hne _ rfl⟩,hne _ rfl⟩,hne _ rfl⟩

/-- Written numbers start like numbers: the value dispatch sends them to `readAtom`. -/
lemma decimalInt_head (n : ℤ) : ∃ c r, decimalInt n = c::r ∧
    isWs c = false ∧ c ≠ ']' ∧ c ≠ '"' ∧ c ≠ '[' ∧ c ≠ '{' := by
  cases n with
  | ofNat n =>
    obtain ⟨d,ds,hd⟩ := List.exists_cons_of_ne_nil (decimal_ne_nil n)
    exact ⟨d,ds,hd,isDigit_not_special (isDigit_of_mem_decimal (n := n) (by simp [hd]))⟩
  | negSucc n => exact ⟨'-',_,rfl,rfl,by decide,by decide,by decide,by decide⟩

/-- A written value is never mistaken for whitespace or for the end of an array. -/
lemma render_head (v : Json) (hv : v.Plain) :
    ∃ c r, render v = c::r ∧ isWs c = false ∧ c ≠ ']' := by
  match v,hv with
  | .null,_ => exact ⟨_,_,rfl,rfl,by decide⟩
  | .bool true,_ => exact ⟨_,_,rfl,rfl,by decide⟩
  | .bool false,_ => exact ⟨_,_,rfl,rfl,by decide⟩
  | .int n,_ =>
    obtain ⟨c,r,h,hw,hb,-⟩ := decimalInt_head n
    exact ⟨c,r,h,hw,hb⟩
  | .str s,_ => exact ⟨_,_,rfl,rfl,by decide⟩
  | .arr [],_ => exact ⟨_,_,rfl,rfl,by decide⟩
  | .arr (x::xs),_ => exact ⟨_,_,rfl,rfl,by decide⟩
  | .obj [],_ => exact ⟨_,_,rfl,rfl,by decide⟩
  | .obj ((k,x)::fs),_ => exact ⟨_,_,rfl,rfl,by decide⟩

lemma skipWs_render (v : Json) (hv : v.Plain) (r : List Char) :
    skipWs (render v ++ r) = render v ++ r := by
  obtain ⟨c,r',h,hw,-⟩ := render_head v hv
  rw [h,List.cons_append,skipWs_cons hw]

lemma readValue_int (n : ℕ) (m : ℤ) {r : List Char} (h : Boundary r) :
    readValue (n+1) (decimalInt m ++ r) = some (.int m,r) := by
  obtain ⟨c,cs,hc,-,-,h1,h2,h3⟩ := decimalInt_head m
  have ha := readAtom_int m h
  rw [hc,List.cons_append] at ha ⊢
  simp only [readValue,h1,h2,h3,if_false,ha]

/-- The elements of a non-empty array, without its opening bracket. -/
def arrayBody : List Json → List Char
  | [] => []
  | x::xs => render x ++ renderElems xs

/-- The members of a non-empty object, without its opening brace. -/
def objectBody : List (String × Json) → List Char
  | [] => []
  | (k,x)::fs => renderStr k ++ ':' :: (render x ++ renderFields fs)

lemma renderElems_cons (x : Json) (xs : List Json) :
    renderElems (x::xs) = ',' :: arrayBody (x::xs) := rfl

lemma renderFields_cons (p : String × Json) (fs : List (String × Json)) :
    renderFields (p::fs) = ',' :: objectBody (p::fs) := rfl

lemma setKey_new {fs : List (String × Json)} {k : String} (v : Json)
    (h : k ∉ fs.map Prod.fst) : setKey fs k v = fs ++ [(k,v)] := by
  simp only [setKey,h,if_false]

lemma foldl_setKey (fs d : List (String × Json))
    (h : (d.map Prod.fst ++ fs.map Prod.fst).Nodup) :
    fs.foldl (fun d p => setKey d p.1 p.2) d = d ++ fs := by
  induction fs generalizing d with
  | nil => simp
  | cons p fs ih =>
    have hp : p.1 ∉ d.map Prod.fst := by
      simp only [List.map_cons,List.nodup_append,List.mem_cons] at h
      exact fun hm => h.2.2 _ hm p.1 (.inl rfl) rfl
    rw [List.foldl_cons,setKey_new p.2 hp,ih]
    · simp
    · simpa using h

/-- Members with distinct keys are kept as they are. -/
theorem dictOf_of_nodup {fs : List (String × Json)} (h : (fs.map Prod.fst).Nodup) :
    dictOf fs = fs := by
  simpa [dictOf] using foldl_setKey fs [] (by simpa using h)

lemma boundary_sep {c : Char} (h : c = ',' ∨ c = ']' ∨ c = '}') (r : List Char) :
    Boundary (c::r) := .inr ⟨c,r,rfl,h⟩

lemma boundary_renderElems (xs : List Json) (r : List Char) : Boundary (renderElems xs ++ r) := by
  cases xs with
  | nil => exact boundary_sep (.inr (.inl rfl)) r
  | cons x xs => exact boundary_sep (.inl rfl) _

lemma boundary_renderFields (fs : List (String × Json)) (r : List Char) :
    Boundary (renderFields fs ++ r) := by
  cases fs with
  | nil => exact boundary_sep (.inr (.inr rfl)) r
  | cons p fs => exact boundary_sep (.inl rfl) _

mutual
/-- The reader inverts the writer. The fuel never runs out: every recursive call reads a text
that is shorter by at least the bracket or separator consumed. -/
theorem readValue_render : (v : Json) → v.Plain → (n : ℕ) → (render v).length ≤ n →
    (r : List Char) → Boundary r → readValue n (render v ++ r) = some (v,r)
  | .null,_,n+1,_,r,_ => rfl
  | .bool true,_,n+1,_,r,_ => rfl
  | .bool false,_,n+1,_,r,_ => rfl
  | .int m,_,n+1,_,r,hr => readValue_int n m hr
  | .int m,_,0,hn,r,_ => by
    obtain ⟨c,cs,hc,-⟩ := decimalInt_head m
    simp [render,hc] at hn
  | .str s,_,n+1,_,r,_ => by
    have hs := readString_renderStr s r
    simp only [render,renderStr,List.cons_append,List.append_assoc,List.nil_append,readValue,
      if_true,hs,Option.map_some]
  | .arr [],_,n+1,_,r,_ => rfl
  | .arr (x::xs),hv,n+1,hn,r,_ => by
    have hb : (arrayBody (x::xs)).length ≤ n := by simpa [render,arrayBody] using hn
    have hread := readElems_render (x::xs) hv n (by simp) hb r
    obtain ⟨c,cs,hc,hw,hne⟩ := render_head x hv.1
    have ht : arrayBody (x::xs) ++ r = c :: (cs ++ (renderElems xs ++ r)) := by
      simp [arrayBody,hc]
    have hcons : render (.arr (x::xs)) ++ r = '[' :: (arrayBody (x::xs) ++ r) := by
      simp [render,arrayBody]
    rw [hcons]
    rw [ht] at hread ⊢
    simp only [readValue]
    rw [if_neg (by decide),if_pos trivial,skipWs_cons hw]
    split
    · rename_i r' he
      rw [List.cons.injEq] at he
      exact absurd he.1 hne
    · rw [hread]
      rfl
  | .obj [],_,n+1,_,r,_ => rfl
  | .obj ((k,x)::fs),hv,n+1,hn,r,_ => by
    have hb : (objectBody ((k,x)::fs)).length ≤ n := by simpa [render,objectBody] using hn
    have hread := readFields_render ((k,x)::fs) hv.2 n (by simp) hb r
    have ht : objectBody ((k,x)::fs) ++ r = '"' :: (k.toList.flatMap escapeChar ++
        '"' :: ':' :: (render x ++ (renderFields fs ++ r))) := by
      simp [objectBody,renderStr]
    have hcons : render (.obj ((k,x)::fs)) ++ r = '{' :: (objectBody ((k,x)::fs) ++ r) := by
      simp [render,objectBody]
    rw [hcons]
    rw [ht] at hread ⊢
    simp only [readValue]
    rw [if_neg (by decide),if_neg (by decide),if_pos trivial,skipWs_cons (by rfl)]
    change (readFields n _).map _ = _
    rw [hread,Option.map_some,dictOf_of_nodup hv.1]
theorem readElems_render : (xs : List Json) → PlainElems xs → (n : ℕ) → xs ≠ [] →
    (arrayBody xs).length ≤ n → (r : List Char) →
    readElems n (arrayBody xs ++ r) = some (xs,r)
  | x::xs,hv,n,_,hn,r => by
    obtain ⟨c,cs,hc,-⟩ := render_head x hv.1
    have hlen : (render x).length + (renderElems xs).length ≤ n := by
      simpa [arrayBody] using hn
    have hpos : 1 ≤ (renderElems xs).length := by cases xs <;> simp [renderElems]
    obtain ⟨m,rfl⟩ : ∃ m, n = m+1 := ⟨n-1,by omega⟩
    have hx := readValue_render x hv.1 m (by omega) (renderElems xs ++ r)
      (boundary_renderElems xs r)
    simp only [arrayBody,List.append_assoc,readElems,hx,Option.bind_eq_bind,Option.bind_some]
    cases xs with
    | nil => rfl
    | cons y ys =>
      have hb : (arrayBody (y::ys)).length ≤ m := by
        simp only [renderElems_cons,List.length_cons] at hlen
        omega
      have hread := readElems_render (y::ys) hv.2 m (by simp) hb r
      have hskip : skipWs (arrayBody (y::ys) ++ r) = arrayBody (y::ys) ++ r := by
        simp only [arrayBody,List.append_assoc]
        exact skipWs_render y hv.2.1 _
      rw [renderElems_cons,List.cons_append,skipWs_cons (by rfl)]
      simp only [hskip,hread,Option.map_some]
theorem readFields_render : (fs : List (String × Json)) → PlainFields fs → (n : ℕ) → fs ≠ [] →
    (objectBody fs).length ≤ n → (r : List Char) →
    readFields n (objectBody fs ++ r) = some (fs,r)
  | (k,x)::fs,hv,n,_,hn,r => by
    have hlen : (renderStr k).length + (1 + ((render x).length + (renderFields fs).length)) ≤
        n := by
      simp only [objectBody,List.length_append,List.length_cons] at hn
      omega
    have hpos : 1 ≤ (renderFields fs).length := by cases fs <;> simp [renderFields]
    obtain ⟨m,rfl⟩ : ∃ m, n = m+1 := ⟨n-1,by omega⟩
    have hk := readString_renderStr k (':' :: (render x ++ (renderFields fs ++ r)))
    have hx := readValue_render x hv.1 m (by omega) (renderFields fs ++ r)
      (boundary_renderFields fs r)
    simp only [objectBody,renderStr,List.append_assoc,List.cons_append,List.nil_append,readFields,
      if_true,hk,Option.bind_eq_bind,Option.bind_some]
    rw [skipWs_cons (by rfl)]
    simp only [skipWs_render x hv.1,hx,Option.bind_some]
    cases fs with
    | nil => rfl
    | cons p fs =>
      have hb : (objectBody (p::fs)).length ≤ m := by
        simp only [renderFields_cons,List.length_cons] at hlen
        omega
      have hread := readFields_render (p::fs) hv.2 m (by simp) hb r
      have hskip : skipWs (objectBody (p::fs) ++ r) = objectBody (p::fs) ++ r := by
        simp only [objectBody,renderStr,List.cons_append]
        exact skipWs_cons (by rfl) _
      rw [renderFields_cons,List.cons_append,skipWs_cons (by rfl)]
      simp only [hskip,hread,Option.map_some]
end

/-- A written document is read back as itself. -/
theorem loads_render (v : Json) (hv : v.Plain) : loads (render v) = some v := by
  have hskip := skipWs_render v hv []
  have hread := readValue_render v hv ((render v).length+1) (by omega) [] (.inl rfl)
  rw [List.append_nil] at hskip hread
  unfold loads
  rw [hskip,hread]
  rfl

/-- The text determines the document. -/
theorem render_injective_of_plain {v w : Json} (hv : v.Plain) (hw : w.Plain)
    (h : render v = render w) : v = w := by
  have hr := loads_render v hv
  rw [h,loads_render w hw] at hr
  exact (Option.some.inj hr).symm

end Json
end Kswarm
