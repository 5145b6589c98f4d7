import Kswarm.Lib.JsonSame

/-! Two JSON writers with sorted keys and no whitespace: one over characters, which substitutes
escapes from a dictionary and sorts members by code points, and one over bytes, which escapes from
a table of bytes and walks members in byte order. On trees without binary64 numbers both write the
compact text of the sorted tree. -/
namespace Kswarm
namespace Json

/-- `sep.join(parts)`. -/
def joined {α : Type} (sep : α) : List (List α) → List α
  | [] => []
  | [t] => t
  | t::u::ts => t ++ sep :: joined sep (u::ts)

section Python

/-- `'{0:04x}'.format(i)`. -/
def hex4 (i : ℕ) : List Char :=
  [hexChar (i/4096%16),hexChar (i/256%16),hexChar (i/16%16),hexChar (i%16)]

/-- `ESCAPE_DCT` of the encoder: seven short forms, then a default for every other C0 control. -/
def escapeDct : List (Char × List Char) :=
  [('\\',['\\','\\']),('"',['\\','"']),(Char.ofNat 8,['\\','b']),(Char.ofNat 12,['\\','f']),
    ('\n',['\\','n']),('\r',['\\','r']),('\t',['\\','t'])] ++
    (List.range 32).map (fun i => (Char.ofNat i,'\\' :: 'u' :: hex4 i))

/-- `ESCAPE.sub(replace, s)` at one character. -/
def substitute (c : Char) : List Char := (escapeDct.lookup c).getD [c]

/-- `encode_basestring`. -/
def encodeBasestring (s : String) : List Char := '"' :: (s.toList.flatMap substitute ++ ['"'])

def item (p : String × List Char) : List Char := encodeBasestring p.1 ++ ':' :: p.2

mutual
/-- `json.dumps` with sorted keys, bare separators and raw non-ASCII characters. -/
def dumps : Json → List Char
  | .null => ['n','u','l','l']
  | .bool true => ['t','r','u','e']
  | .bool false => ['f','a','l','s','e']
  | .int n => decimalInt n
  | .float f => f.text
  | .str s => encodeBasestring s
  | .arr xs => '[' :: (joined ',' (dumpsElems xs) ++ [']'])
  | .obj fs => '{' :: (joined ',' (((dumpsItems fs).insertionSort
      (fun a b => codePointLe a.1 b.1)).map item) ++ ['}'])
def dumpsElems : List Json → List (List Char)
  | [] => []
  | x::xs => dumps x :: dumpsElems xs
def dumpsItems : List (String × Json) → List (String × List Char)
  | [] => []
  | (k,x)::fs => (k,dumps x) :: dumpsItems fs
end

end Python

section Serde

/-- The `ESCAPE` table: zero for a byte that is written as it is. -/
def escapeTable (b : UInt8) : UInt8 :=
  if b = 8 then 98
  else if b = 9 then 116
  else if b = 10 then 110
  else if b = 12 then 102
  else if b = 13 then 114
  else if b < 32 then 117
  else if b = 34 then 34
  else if b = 92 then 92
  else 0

/-- `HEX_DIGITS`, at the low four bits. -/
def hexDigit (b : UInt8) : UInt8 := if b < 10 then 48 + b else 87 + b

/-- `write_char_escape`, or the byte itself. -/
def escapeByte (b : UInt8) : Bytes :=
  if escapeTable b = 0 then [b]
  else if escapeTable b = 117 then [92,117,48,48,hexDigit (b >>> 4),hexDigit (b &&& 15)]
  else [92,escapeTable b]

/-- `format_escaped_str`. -/
def formatEscapedStr (s : String) : Bytes := 34 :: ((utf8 s.toList).flatMap escapeByte ++ [34])

def mapEntry (p : String × Bytes) : Bytes := formatEscapedStr p.1 ++ 58 :: p.2

mutual
/-- `to_vec` on objects that are `BTreeMap`s. The text of a binary64 number is the parameter
`ryu`. -/
def toVec (ryu : Binary64 → Bytes) : Json → Bytes
  | .null => [110,117,108,108]
  | .bool true => [116,114,117,101]
  | .bool false => [102,97,108,115,101]
  | .int n => utf8 (decimalInt n)
  | .float f => ryu f
  | .str s => formatEscapedStr s
  | .arr xs => 91 :: (joined 44 (toVecElems ryu xs) ++ [93])
  | .obj fs => 123 :: (joined 44 (((toVecEntries ryu fs).insertionSort
      (fun a b => byteLe a.1 b.1)).map mapEntry) ++ [125])
def toVecElems (ryu : Binary64 → Bytes) : List Json → List Bytes
  | [] => []
  | x::xs => toVec ryu x :: toVecElems ryu xs
def toVecEntries (ryu : Binary64 → Bytes) : List (String × Json) → List (String × Bytes)
  | [] => []
  | (k,x)::fs => (k,toVec ryu x) :: toVecEntries ryu fs
end

end Serde

section Escapes

lemma ascii_forall {P : Char → Prop} (h : ∀ n < 128, P (Char.ofNat n)) {c : Char}
    (hc : c.toNat < 128) : P c := by
  have hn := h c.toNat hc
  rwa [Char.ofNat_toNat] at hn

/-- Nothing outside ASCII is escaped. -/
lemma escapeChar_high {c : Char} (h : ¬c.toNat < 128) : escapeChar c = [c] := by
  have hne : ∀ d : Char, d.toNat < 128 → c ≠ d := fun d hd he => h (he ▸ hd)
  rw [escapeChar,if_neg (hne _ (by decide)),if_neg (hne _ (by decide)),
    if_neg (hne _ (by decide)),if_neg (hne _ (by decide)),if_neg (hne _ (by decide)),
    if_neg (by omega),if_neg (by omega),if_neg (by omega)]

lemma substitute_high {c : Char} (h : ¬c.toNat < 128) : substitute c = [c] := by
  have hkeys : ∀ p ∈ escapeDct, p.1.toNat < 128 := by decide +kernel
  have hnone : escapeDct.lookup c = none := by
    rw [List.lookup_eq_none_iff]
    intro p hp
    have hne : c ≠ p.1 := fun he => h (he ▸ hkeys p hp)
    simpa using hne
  rw [substitute,hnone]
  rfl

/-- The dictionary escapes what the compact writer escapes, alike. -/
lemma substitute_eq : substitute = escapeChar := by
  funext c
  by_cases hc : c.toNat < 128
  · exact ascii_forall (P := fun c => substitute c = escapeChar c) (by decide +kernel) hc
  · rw [substitute_high hc,escapeChar_high hc]

lemma encodeBasestring_eq (s : String) : encodeBasestring s = renderStr s := by
  rw [encodeBasestring,substitute_eq,renderStr]

/-- A byte of a code outside ASCII is copied. -/
lemma escapeByte_high {b : UInt8} (h : 128 ≤ b.toNat) : escapeByte b = [b] := by
  have hall : ∀ n < 256, 128 ≤ n → escapeByte (UInt8.ofNat n) = [UInt8.ofNat n] := by
    decide +kernel
  have hb := hall b.toNat (UInt8.toNat_lt b) h
  rwa [UInt8.ofNat_toNat] at hb

lemma utf8_high {c : Char} (h : ¬c.toNat < 128) :
    ∀ b ∈ String.utf8EncodeChar c, 128 ≤ b.toNat := by
  have hmem : ∀ n ∈ byteKey (String.utf8EncodeChar c), 128 ≤ n := by
    rw [encodeChar_key,if_neg (by omega)]
    split_ifs <;> simp
  exact fun b hb => hmem b.toNat (List.mem_map_of_mem hb)

/-- The table escapes the bytes of a character as the writer escapes the character. -/
lemma escapeByte_char (c : Char) :
    (String.utf8EncodeChar c).flatMap escapeByte = utf8 (escapeChar c) := by
  by_cases hc : c.toNat < 128
  · exact ascii_forall (P := fun c => (String.utf8EncodeChar c).flatMap escapeByte =
      utf8 (escapeChar c)) (by decide +kernel) hc
  · rw [escapeChar_high hc,utf8_cons,utf8_nil,List.append_nil]
    calc (String.utf8EncodeChar c).flatMap escapeByte
        = (String.utf8EncodeChar c).flatMap (fun b => [b]) :=
          List.flatMap_congr (fun b hb => escapeByte_high (utf8_high hc b hb))
      _ = String.utf8EncodeChar c := by simp

lemma formatEscapedStr_eq (s : String) : formatEscapedStr s = utf8 (renderStr s) := by
  have hbody : ∀ cs : List Char, (utf8 cs).flatMap escapeByte = utf8 (cs.flatMap escapeChar) := by
    intro cs
    induction cs with
    | nil => rfl
    | cons c cs ih =>
      rw [utf8_cons,List.flatMap_append,escapeByte_char,ih,List.flatMap_cons,utf8_append]
  rw [formatEscapedStr,hbody,renderStr,utf8_cons,utf8_append]
  rfl

end Escapes

section Trees

lemma joined_cons {α : Type} (sep : α) (t : List α) (ts : List (List α)) :
    joined sep (t::ts) = t ++ ts.flatMap (fun u => sep::u) := by
  induction ts generalizing t with
  | nil => simp [joined]
  | cons u ts ih => rw [joined,ih,List.flatMap_cons,List.cons_append]

lemma utf8_joined {c : Char} {b : UInt8} (h : String.utf8EncodeChar c = [b])
    (ts : List (List Char)) : utf8 (joined c ts) = joined b (ts.map utf8) := by
  cases ts with
  | nil => rfl
  | cons t ts =>
    rw [joined_cons,List.map_cons,joined_cons,utf8_append]
    congr 1
    induction ts with
    | nil => rfl
    | cons u ts ih =>
      rw [List.flatMap_cons,utf8_append,ih,utf8_cons,h,List.map_cons,List.flatMap_cons]
      rfl

/-- The compact text of an array, as its elements joined. -/
lemma render_arr (xs : List Json) :
    render (.arr xs) = '[' :: (joined ',' (xs.map render) ++ [']']) := by
  have hrest : ∀ ys : List Json,
      renderElems ys = (ys.map render).flatMap (fun u => ','::u) ++ [']'] := by
    intro ys
    induction ys with
    | nil => rfl
    | cons y ys ih => simp [renderElems,ih]
  cases xs with
  | nil => rfl
  | cons x xs => rw [render,hrest,List.map_cons,joined_cons,List.append_assoc]

def member (p : String × List Char) : List Char := renderStr p.1 ++ ':' :: p.2

/-- The compact text of an object, as its members joined. -/
lemma render_obj (fs : List (String × Json)) : render (.obj fs) =
    '{' :: (joined ',' ((fs.map (fun p => (p.1,render p.2))).map member) ++ ['}']) := by
  have hrest : ∀ gs : List (String × Json), renderFields gs =
      ((gs.map (fun p => (p.1,render p.2))).map member).flatMap (fun u => ','::u) ++ ['}'] := by
    intro gs
    induction gs with
    | nil => rfl
    | cons p gs ih => simp [renderFields,ih,member]
  cases fs with
  | nil => rfl
  | cons p fs =>
    rw [render,hrest,List.map_cons,List.map_cons,joined_cons]
    simp [member]

mutual
/-- The character writer writes the compact text of the sorted tree. -/
theorem dumps_eq : (v : Json) → dumps v = render v.sortKeys
  | .null | .bool true | .bool false | .int _ | .float _ => rfl
  | .str s => encodeBasestring_eq s
  | .arr xs => by
    rw [dumps,dumpsElems_eq xs,sortKeys,sortBy,render_arr]
  | .obj fs => by
    have hitem : item = member := by
      funext p
      rw [item,encodeBasestring_eq,member]
    have hsort := List.map_insertionSort (r := fun a b : String × Json => codePointLe a.1 b.1)
      (s := fun a b : String × List Char => codePointLe a.1 b.1) (fun p => (p.1,render p.2))
      (sortFields codePointLe fs) (fun _ _ _ _ => Iff.rfl)
    rw [dumps,dumpsItems_eq fs,sortKeys,sortBy,render_obj,hitem,hsort]
theorem dumpsElems_eq : (xs : List Json) →
    dumpsElems xs = (sortElems codePointLe xs).map render
  | [] => rfl
  | x::xs => congrArg₂ List.cons (dumps_eq x) (dumpsElems_eq xs)
theorem dumpsItems_eq : (fs : List (String × Json)) →
    dumpsItems fs = (sortFields codePointLe fs).map (fun p => (p.1,render p.2))
  | [] => rfl
  | (k,x)::fs => congrArg₂ List.cons (congrArg (Prod.mk k) (dumps_eq x)) (dumpsItems_eq fs)
end

mutual
/-- Without binary64 numbers the byte writer writes the bytes of the same text. -/
theorem toVec_eq (ryu : Binary64 → Bytes) : (v : Json) → v.Plain →
    toVec ryu v = utf8 (render (v.sortBy byteLe))
  | .null,_ | .bool true,_ | .bool false,_ | .int _,_ => rfl
  | .float _,h => h.elim
  | .str s,_ => formatEscapedStr_eq s
  | .arr xs,h => by
    rw [toVec,toVecElems_eq ryu xs h,sortBy,render_arr,utf8_cons,utf8_append,
      utf8_joined (b := 44) rfl,List.map_map]
    rfl
  | .obj fs,h => by
    have hentry : (fun p : String × Json => mapEntry (p.1,utf8 (render p.2))) =
        fun p => utf8 (member (p.1,render p.2)) := by
      funext p
      rw [mapEntry,formatEscapedStr_eq,member,utf8_append,utf8_cons]
      rfl
    have hsort := List.map_insertionSort (r := fun a b : String × Json => byteLe a.1 b.1)
      (s := fun a b : String × Bytes => byteLe a.1 b.1) (fun p => (p.1,utf8 (render p.2)))
      (sortFields byteLe fs) (fun _ _ _ _ => Iff.rfl)
    rw [toVec,toVecEntries_eq ryu fs h.2,sortBy,render_obj,utf8_cons,utf8_append,
      utf8_joined (b := 44) rfl,← hsort,List.map_map,List.map_map,List.map_map]
    simp only [Function.comp_def,hentry]
    rfl
theorem toVecElems_eq (ryu : Binary64 → Bytes) : (xs : List Json) → PlainElems xs →
    toVecElems ryu xs = (sortElems byteLe xs).map (fun x => utf8 (render x))
  | [],_ => rfl
  | x::xs,h => congrArg₂ List.cons (toVec_eq ryu x h.1) (toVecElems_eq ryu xs h.2)
theorem toVecEntries_eq (ryu : Binary64 → Bytes) : (fs : List (String × Json)) → PlainFields fs →
    toVecEntries ryu fs = (sortFields byteLe fs).map (fun p => (p.1,utf8 (render p.2)))
  | [],_ => rfl
  | (k,x)::fs,h =>
    congrArg₂ List.cons (congrArg (Prod.mk k) (toVec_eq ryu x h.1)) (toVecEntries_eq ryu fs h.2)
end

end Trees

end Json
end Kswarm
