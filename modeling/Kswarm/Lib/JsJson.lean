import Kswarm.Lib.Utf16
import Kswarm.Lib.JsonRoundTrip
import Kswarm.Lib.JsonWriters

/-! Canonical JSON of JavaScript values without numbers. Strings are any lists of code units, and
a lone surrogate is escaped, so the text is valid Unicode. Every value is written so that the text
says where it ends, and the text determines the value. -/
namespace Kswarm

inductive JsValue where
  | null
  | bool (b : Bool)
  | text (s : CodeUnits)
  | arr (xs : List JsValue)
  | obj (fs : List (String × JsValue))

namespace JsValue

/-- `QuoteJSONString` at one code point. -/
def escapePoint : CodePoint → List Char
  | .scalar c => Json.escapeChar c
  | .surrogate u => '\\' :: 'u' :: Json.hex4 u.toNat

def quote (s : CodeUnits) : List Char := '"' :: ((codePoints s).flatMap escapePoint ++ ['"'])

mutual
/-- `JSON.stringify`. -/
def stringify : JsValue → List Char
  | .null => ['n','u','l','l']
  | .bool true => ['t','r','u','e']
  | .bool false => ['f','a','l','s','e']
  | .text s => quote s
  | .arr [] => ['[',']']
  | .arr (x::xs) => '[' :: (stringify x ++ stringifyElems xs)
  | .obj [] => ['{','}']
  | .obj ((k,x)::fs) =>
    '{' :: (quote (utf16 k.toList) ++ ':' :: (stringify x ++ stringifyFields fs))
def stringifyElems : List JsValue → List Char
  | [] => [']']
  | x::xs => ',' :: (stringify x ++ stringifyElems xs)
def stringifyFields : List (String × JsValue) → List Char
  | [] => ['}']
  | (k,x)::fs =>
    ',' :: (quote (utf16 k.toList) ++ ':' :: (stringify x ++ stringifyFields fs))
end

/-- The number that a key is the decimal numeral of, if it is an array index. -/
def arrayIndex (key : String) : Option ℕ :=
  match key.toList with
  | [] => none
  | ['0'] => some 0
  | first::rest =>
    if first ≠ '0' ∧ (first::rest).all isDigit = true ∧ digitsValue (first::rest) < 2^32-1 then
      some (digitsValue (first::rest))
    else none

/-- What keys are ordered by: array indices come first, by their numbers, and then the other keys in
the order of code units, which `sort` uses. -/
def keyRank (key : String) : List ℕ :=
  match arrayIndex key with
  | some n => [0,n]
  | none => 1 :: (utf16 key.toList).map UInt16.toNat

/-- The order in which an object lists its keys when they were set in the order of `sort`. -/
def keyLe (a b : String) : Prop := keyRank a ≤ keyRank b

instance : DecidableRel keyLe := fun a b => inferInstanceAs (Decidable (keyRank a ≤ keyRank b))

example : keyLe "9" "10" ∧ keyLe "10" "01" ∧ keyLe "10" "-1" := by decide

mutual
/-- `sortKeys`. -/
def sortKeys : JsValue → JsValue
  | .arr xs => .arr (sortElems xs)
  | .obj fs => .obj ((sortFields fs).insertionSort (fun a b => keyLe a.1 b.1))
  | v => v
def sortElems : List JsValue → List JsValue
  | [] => []
  | x::xs => sortKeys x :: sortElems xs
def sortFields : List (String × JsValue) → List (String × JsValue)
  | [] => []
  | (k,x)::fs => (k,sortKeys x) :: sortFields fs
end

def canonicalJson (v : JsValue) : List Char := stringify (sortKeys v)

/-- A code point that code units can spell. -/
def Spelled : CodePoint → Prop
  | .scalar _ => True
  | .surrogate u => isLead u = true ∨ isTrail u = true

lemma spelled_unitPoint (u : UInt16) : Spelled (unitPoint u) := by
  unfold unitPoint
  split_ifs with h
  · exact h
  · trivial

lemma spelled_codePoints (s : CodeUnits) : ∀ p ∈ codePoints s, Spelled p := by
  fun_induction codePoints s with
  | case1 lead trail rest h ih => exact List.forall_mem_cons.mpr ⟨trivial,ih⟩
  | case2 lead trail rest h ih => exact List.forall_mem_cons.mpr ⟨spelled_unitPoint lead,ih⟩
  | case3 u => exact List.forall_mem_singleton.mpr (spelled_unitPoint u)
  | case4 => simp

def shortEscape (e : Char) : Char :=
  if e = 'n' then '\n' else if e = 'r' then '\r' else if e = 't' then '\t'
  else if e = 'b' then Char.ofNat 8 else if e = 'f' then Char.ofNat 12 else e

/-- The code point an escaped text starts with. -/
def readPoint : List Char → Option (CodePoint × List Char)
  | '\\' :: 'u' :: r => (Json.readHex4 r).map (fun p => (unitPoint (UInt16.ofNat p.1),p.2))
  | '\\' :: e :: r => some (.scalar (shortEscape e),r)
  | c::r => some (.scalar c,r)
  | [] => none

lemma readHex4_hex4 {n : ℕ} (h : n < 65536) (r : List Char) :
    Json.readHex4 (Json.hex4 n ++ r) = some (n,r) := by
  have h1 := Json.hexValue_hexChar (n := n/4096%16) (by omega)
  have h2 := Json.hexValue_hexChar (n := n/256%16) (by omega)
  have h3 := Json.hexValue_hexChar (n := n/16%16) (by omega)
  have h4 := Json.hexValue_hexChar (n := n%16) (by omega)
  have hv : ((n/4096%16*16 + n/256%16)*16 + n/16%16)*16 + n%16 = n := by omega
  simp only [Json.hex4,List.cons_append,List.nil_append,Json.readHex4,h1,h2,h3,h4,
    Option.bind_eq_bind,Option.bind_some,hv]

lemma unitPoint_control {c : Char} (h : c.toNat < 32) :
    unitPoint (UInt16.ofNat c.toNat) = .scalar c := by
  have hval : (UInt16.ofNat c.toNat).toNat = c.toNat := by
    rw [UInt16.toNat_ofNat']
    omega
  rw [unitPoint_scalar,hval,Char.ofNat_toNat]
  · simp only [isLead,hval,decide_eq_false_iff_not]
    omega
  · simp only [isTrail,hval,decide_eq_false_iff_not]
    omega

lemma readPoint_escapeChar (c : Char) (r : List Char) :
    readPoint (Json.escapeChar c ++ r) = some (.scalar c,r) := by
  unfold Json.escapeChar
  split_ifs with h1 h2 h3 h4 h5 h6 h7 h8
  · subst h1; rfl
  · subst h2; rfl
  · subst h3; rfl
  · subst h4; rfl
  · subst h5; rfl
  · have hc : c = Char.ofNat 8 := by rw [← h6,Char.ofNat_toNat]
    subst hc; rfl
  · have hc : c = Char.ofNat 12 := by rw [← h7,Char.ofNat_toNat]
    subst hc; rfl
  · have hhex : ['0','0',Json.hexChar (c.toNat/16),Json.hexChar (c.toNat%16)] =
        Json.hex4 c.toNat := by
      have ha : c.toNat/4096%16 = 0 := by omega
      have hb : c.toNat/256%16 = 0 := by omega
      have hd : c.toNat/16%16 = c.toNat/16 := by omega
      rw [Json.hex4,ha,hb,hd]
      rfl
    have hread := readHex4_hex4 (n := c.toNat) (by omega) r
    rw [← hhex] at hread
    change (Json.readHex4 (['0','0',Json.hexChar (c.toNat/16),Json.hexChar (c.toNat%16)] ++ r)).map
      _ = _
    rw [hread,Option.map_some,unitPoint_control h8]
  · rw [List.singleton_append,readPoint]
    · exact fun _ he _ => h2 he
    · exact fun _ _ he _ => h2 he

/-- A code point is read back from its escape. -/
lemma readPoint_escapePoint {p : CodePoint} (h : Spelled p) (r : List Char) :
    readPoint (escapePoint p ++ r) = some (p,r) := by
  cases p with
  | scalar c => exact readPoint_escapeChar c r
  | surrogate u =>
    change (Json.readHex4 (Json.hex4 u.toNat ++ r)).map _ = _
    have hunit : unitPoint u = .surrogate u := if_pos h
    rw [readHex4_hex4 u.toNat_lt,Option.map_some,UInt16.ofNat_toNat,hunit]

lemma escapePoint_ne_quote {p : CodePoint} (h : Spelled p) (x y : List Char) :
    escapePoint p ++ x ≠ '"' :: y := by
  intro he
  have hread := readPoint_escapePoint h x
  rw [he] at hread
  obtain ⟨rfl,rfl⟩ := Prod.mk.inj (Option.some.inj hread)
  exact absurd (List.cons.inj he).1 (by decide)

/-- The closing quote ends the string. -/
lemma escaped_inj {ps qs : List CodePoint} (hp : ∀ p ∈ ps, Spelled p) (hq : ∀ q ∈ qs, Spelled q)
    {r r' : List Char} (h : ps.flatMap escapePoint ++ '"' :: r = qs.flatMap escapePoint ++ '"' :: r') :
    ps = qs ∧ r = r' := by
  induction ps generalizing qs with
  | nil =>
    cases qs with
    | nil => exact ⟨rfl,(List.cons.inj h).2⟩
    | cons q qs =>
      rw [List.flatMap_cons,List.append_assoc] at h
      exact absurd h.symm (escapePoint_ne_quote (hq q List.mem_cons_self) _ _)
  | cons p ps ih =>
    rw [List.forall_mem_cons] at hp
    cases qs with
    | nil =>
      rw [List.flatMap_cons,List.append_assoc] at h
      exact absurd h (escapePoint_ne_quote hp.1 _ _)
    | cons q qs =>
      rw [List.forall_mem_cons] at hq
      rw [List.flatMap_cons,List.flatMap_cons,List.append_assoc,List.append_assoc] at h
      have hread := readPoint_escapePoint hp.1 (ps.flatMap escapePoint ++ '"' :: r)
      rw [h,readPoint_escapePoint hq.1] at hread
      obtain ⟨rfl,hrest⟩ := Prod.mk.inj (Option.some.inj hread)
      obtain ⟨rfl,rfl⟩ := ih hp.2 hq.2 hrest.symm
      exact ⟨rfl,rfl⟩

theorem quote_inj {s t : CodeUnits} {r r' : List Char} (h : quote s ++ r = quote t ++ r') :
    s = t ∧ r = r' := by
  have h' : (codePoints s).flatMap escapePoint ++ '"' :: r =
      (codePoints t).flatMap escapePoint ++ '"' :: r' := by
    simpa [quote] using h
  obtain ⟨hpoints,hrest⟩ := escaped_inj (spelled_codePoints s) (spelled_codePoints t) h'
  exact ⟨codePoints_injective hpoints,hrest⟩

lemma key_inj {k l : String} {r r' : List Char}
    (h : quote (utf16 k.toList) ++ r = quote (utf16 l.toList) ++ r') : k = l ∧ r = r' := by
  obtain ⟨hkey,hrest⟩ := quote_inj h
  exact ⟨String.toList_inj.mp (utf16_injective hkey),hrest⟩

/-- No value starts like the end of an array. -/
lemma stringify_ne_close (v : JsValue) (r r' : List Char) : stringify v ++ r ≠ ']' :: r' := by
  intro h
  match v with
  | .null | .bool true | .bool false | .text _ | .arr [] | .arr (_::_) | .obj []
    | .obj (_::_) => exact absurd (List.cons.inj h).1 (by decide)

lemma tail_eq {c d : Char} {x y r r' : List Char} (h : (c::x) ++ r = (d::y) ++ r') :
    x ++ r = y ++ r' := (List.cons.inj h).2

mutual
/-- The text of a value ends where the value does, and determines it. -/
theorem stringify_inj : (v w : JsValue) → {r r' : List Char} →
    stringify v ++ r = stringify w ++ r' → v = w ∧ r = r'
  | .null,w,r,r',h => by
    match w with
    | .null => exact ⟨rfl,by simpa [stringify] using h⟩
    | .bool true | .bool false | .text _ | .arr [] | .arr (_::_) | .obj [] | .obj (_::_) =>
      exact absurd (List.cons.inj h).1 (by decide)
  | .bool true,w,r,r',h => by
    match w with
    | .bool true => exact ⟨rfl,by simpa [stringify] using h⟩
    | .null | .bool false | .text _ | .arr [] | .arr (_::_) | .obj [] | .obj (_::_) =>
      exact absurd (List.cons.inj h).1 (by decide)
  | .bool false,w,r,r',h => by
    match w with
    | .bool false => exact ⟨rfl,by simpa [stringify] using h⟩
    | .null | .bool true | .text _ | .arr [] | .arr (_::_) | .obj [] | .obj (_::_) =>
      exact absurd (List.cons.inj h).1 (by decide)
  | .text s,w,r,r',h => by
    match w with
    | .text t =>
      obtain ⟨rfl,hrest⟩ := quote_inj h
      exact ⟨rfl,hrest⟩
    | .null | .bool true | .bool false | .arr [] | .arr (_::_) | .obj [] | .obj (_::_) =>
      exact absurd (List.cons.inj h).1 (by decide)
  | .arr [],w,r,r',h => by
    match w with
    | .arr [] => exact ⟨rfl,by simpa [stringify] using h⟩
    | .arr (y::ys) =>
      have htail := tail_eq h
      rw [List.append_assoc] at htail
      exact absurd htail.symm (stringify_ne_close y _ _)
    | .null | .bool true | .bool false | .text _ | .obj [] | .obj (_::_) =>
      exact absurd (List.cons.inj h).1 (by decide)
  | .arr (x::xs),w,r,r',h => by
    match w with
    | .arr (y::ys) =>
      have htail := tail_eq h
      rw [List.append_assoc,List.append_assoc] at htail
      obtain ⟨rfl,helems⟩ := stringify_inj x y htail
      obtain ⟨rfl,hrest⟩ := elems_inj xs ys helems
      exact ⟨rfl,hrest⟩
    | .arr [] =>
      have htail := tail_eq h
      rw [List.append_assoc] at htail
      exact absurd htail (stringify_ne_close x _ _)
    | .null | .bool true | .bool false | .text _ | .obj [] | .obj (_::_) =>
      exact absurd (List.cons.inj h).1 (by decide)
  | .obj [],w,r,r',h => by
    match w with
    | .obj [] => exact ⟨rfl,by simpa [stringify] using h⟩
    | .obj ((l,y)::gs) =>
      exact absurd (List.cons.inj (List.cons.inj h).2).1 (by decide)
    | .null | .bool true | .bool false | .text _ | .arr [] | .arr (_::_) =>
      exact absurd (List.cons.inj h).1 (by decide)
  | .obj ((k,x)::fs),w,r,r',h => by
    match w with
    | .obj ((l,y)::gs) =>
      have htail := tail_eq h
      rw [List.append_assoc,List.append_assoc] at htail
      obtain ⟨rfl,hvalue⟩ := key_inj htail
      have hvalue' := tail_eq (x := stringify x ++ _) (y := stringify y ++ _) hvalue
      rw [List.append_assoc,List.append_assoc] at hvalue'
      obtain ⟨rfl,hfields⟩ := stringify_inj x y hvalue'
      obtain ⟨rfl,hrest⟩ := fields_inj fs gs hfields
      exact ⟨rfl,hrest⟩
    | .obj [] => exact absurd (List.cons.inj (List.cons.inj h).2).1 (by decide)
    | .null | .bool true | .bool false | .text _ | .arr [] | .arr (_::_) =>
      exact absurd (List.cons.inj h).1 (by decide)
theorem elems_inj : (xs ys : List JsValue) → {r r' : List Char} →
    stringifyElems xs ++ r = stringifyElems ys ++ r' → xs = ys ∧ r = r'
  | [],ys,r,r',h => by
    match ys with
    | [] => exact ⟨rfl,(List.cons.inj h).2⟩
    | _::_ => exact absurd (List.cons.inj h).1 (by decide)
  | x::xs,ys,r,r',h => by
    match ys with
    | y::ys =>
      have htail := tail_eq h
      rw [List.append_assoc,List.append_assoc] at htail
      obtain ⟨rfl,helems⟩ := stringify_inj x y htail
      obtain ⟨rfl,hrest⟩ := elems_inj xs ys helems
      exact ⟨rfl,hrest⟩
    | [] => exact absurd (List.cons.inj h).1 (by decide)
theorem fields_inj : (fs gs : List (String × JsValue)) → {r r' : List Char} →
    stringifyFields fs ++ r = stringifyFields gs ++ r' → fs = gs ∧ r = r'
  | [],gs,r,r',h => by
    match gs with
    | [] => exact ⟨rfl,(List.cons.inj h).2⟩
    | (_,_)::_ => exact absurd (List.cons.inj h).1 (by decide)
  | (k,x)::fs,gs,r,r',h => by
    match gs with
    | (l,y)::gs =>
      have htail := tail_eq h
      rw [List.append_assoc,List.append_assoc] at htail
      obtain ⟨rfl,hvalue⟩ := key_inj htail
      have hvalue' := tail_eq (x := stringify x ++ _) (y := stringify y ++ _) hvalue
      rw [List.append_assoc,List.append_assoc] at hvalue'
      obtain ⟨rfl,hfields⟩ := stringify_inj x y hvalue'
      obtain ⟨rfl,hrest⟩ := fields_inj fs gs hfields
      exact ⟨rfl,hrest⟩
    | [] => exact absurd (List.cons.inj h).1 (by decide)
end

/-- Two values with one canonical text differ in the order of keys only. -/
theorem canonicalJson_inj {v w : JsValue} (h : canonicalJson v = canonicalJson w) :
    sortKeys v = sortKeys w :=
  (stringify_inj _ _ (congrArg (· ++ []) h)).1

end JsValue
end Kswarm
