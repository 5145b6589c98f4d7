import Kswarm.Lib.JsonRoundTrip

/-! The grammar of JSON text as derivations, and the coarser language of texts whose braces match
outside string literals, which every derivation belongs to. What the writer writes has a
derivation. -/
namespace Kswarm
namespace Json

/-- Any amount of whitespace. -/
def Blank (cs : List Char) : Prop := ∀ c ∈ cs, isWs c = true

/-- A nonempty run of digits. -/
def Digits (cs : List Char) : Prop := cs ≠ [] ∧ ∀ c ∈ cs, isDigit c = true

inductive Whole : List Char → Prop
  | zero : Whole ['0']
  | digits {c : Char} {cs : List Char} : isDigit c = true → c ≠ '0' →
      (∀ d ∈ cs, isDigit d = true) → Whole (c::cs)

inductive Fraction : List Char → Prop
  | absent : Fraction []
  | digits {cs : List Char} : Digits cs → Fraction ('.'::cs)

inductive Exponent : List Char → Prop
  | absent : Exponent []
  | digits {e : Char} {sign cs : List Char} : e ∈ ['e','E'] → sign ∈ [[],['+'],['-']] →
      Digits cs → Exponent (e::(sign ++ cs))

inductive Number : List Char → Prop
  | parts {sign whole fraction exponent : List Char} : sign ∈ [[],['-']] → Whole whole →
      Fraction fraction → Exponent exponent → Number (sign ++ (whole ++ (fraction ++ exponent)))

/-- What may stand between the quotes of a string. -/
inductive StringBody : List Char → Prop
  | nil : StringBody []
  | char {c : Char} {r : List Char} : 32 ≤ c.toNat → c ≠ '"' → c ≠ '\\' →
      StringBody r → StringBody (c::r)
  | escape {c : Char} {r : List Char} : c ∈ ['"','\\','/','b','f','n','r','t'] →
      StringBody r → StringBody ('\\'::c::r)
  | unicode {a b c d : Char} {r : List Char} : (∀ x ∈ [a,b,c,d], (hexValue x).isSome) →
      StringBody r → StringBody ('\\' :: 'u' :: a::b::c::d::r)

def quoted (body : List Char) : List Char := '"' :: (body ++ ['"'])

inductive Nonterminal
  | value | object | element | elements | member | members

/-- The texts of each nonterminal. Whitespace belongs to the elements and the members, or stands
alone in an empty array or object. -/
inductive Derives : Nonterminal → List Char → Prop
  | literal {t : List Char} :
      t ∈ [['n','u','l','l'],['t','r','u','e'],['f','a','l','s','e']] → Derives .value t
  | number {t : List Char} : Number t → Derives .value t
  | string {body : List Char} : StringBody body → Derives .value (quoted body)
  | nested {t : List Char} : Derives .object t → Derives .value t
  | emptyArray {w : List Char} : Blank w → Derives .value ('[' :: (w ++ [']']))
  | array {es : List Char} : Derives .elements es → Derives .value ('[' :: (es ++ [']']))
  | emptyObject {w : List Char} : Blank w → Derives .object ('{' :: (w ++ ['}']))
  | object {ms : List Char} : Derives .members ms → Derives .object ('{' :: (ms ++ ['}']))
  | element {w v w' : List Char} : Blank w → Derives .value v → Blank w' →
      Derives .element (w ++ (v ++ w'))
  | oneElement {e : List Char} : Derives .element e → Derives .elements e
  | moreElements {e es : List Char} : Derives .element e → Derives .elements es →
      Derives .elements (e ++ ',' :: es)
  | member {w k w' e : List Char} : Blank w → StringBody k → Blank w' → Derives .element e →
      Derives .member (w ++ (quoted k ++ (w' ++ ':' :: e)))
  | oneMember {m : List Char} : Derives .member m → Derives .members m
  | moreMembers {m ms : List Char} : Derives .member m → Derives .members ms →
      Derives .members (m ++ ',' :: ms)

/-- Neither a quote nor a brace: nothing a scan for matching braces acts on. -/
def Inert (c : Char) : Prop := c ≠ '"' ∧ c ≠ '{' ∧ c ≠ '}'

instance : DecidablePred Inert := fun c =>
  inferInstanceAs (Decidable (c ≠ '"' ∧ c ≠ '{' ∧ c ≠ '}'))

/-- Texts whose braces match, those inside string literals left out. -/
inductive Balanced : List Char → Prop
  | inert {cs : List Char} : (∀ c ∈ cs, Inert c) → Balanced cs
  | string {body : List Char} : StringBody body → Balanced (quoted body)
  | braces {cs : List Char} : Balanced cs → Balanced ('{' :: (cs ++ ['}']))
  | append {a b : List Char} : Balanced a → Balanced b → Balanced (a ++ b)

section InertTexts

lemma inert_of_all {cs : List Char} (h : cs.all (fun c => decide (Inert c)) = true) :
    ∀ c ∈ cs, Inert c :=
  fun c hc => of_decide_eq_true (List.all_eq_true.mp h c hc)

lemma inert_of_isWs {c : Char} (h : isWs c = true) : Inert c := by
  simp only [isWs,Bool.or_eq_true,beq_iff_eq] at h
  obtain ((rfl | rfl) | rfl) | rfl := h
  all_goals exact ⟨by decide,by decide,by decide⟩

lemma inert_of_isDigit {c : Char} (h : isDigit c = true) : Inert c := by
  refine ⟨?_,?_,?_⟩
  all_goals
    intro hc
    subst hc
    revert h
    decide

lemma Blank.inert {cs : List Char} (h : Blank cs) : ∀ c ∈ cs, Inert c :=
  fun c hc => inert_of_isWs (h c hc)

lemma Digits.inert {cs : List Char} (h : Digits cs) : ∀ c ∈ cs, Inert c :=
  fun c hc => inert_of_isDigit (h.2 c hc)

lemma Whole.inert {cs : List Char} (h : Whole cs) : ∀ c ∈ cs, Inert c := by
  cases h with
  | zero => exact inert_of_all rfl
  | digits hc _ hcs =>
    exact List.forall_mem_cons.mpr
      ⟨inert_of_isDigit hc,fun d hd => inert_of_isDigit (hcs d hd)⟩

lemma Fraction.inert {cs : List Char} (h : Fraction cs) : ∀ c ∈ cs, Inert c := by
  cases h with
  | absent => exact inert_of_all rfl
  | digits hcs => exact List.forall_mem_cons.mpr ⟨by decide,hcs.inert⟩

lemma Exponent.inert {cs : List Char} (h : Exponent cs) : ∀ c ∈ cs, Inert c := by
  cases h with
  | absent => exact inert_of_all rfl
  | digits he hsign hcs =>
    have hletter : ∀ e ∈ ['e','E'], Inert e := inert_of_all rfl
    have hsigns : ∀ s ∈ [[],['+'],['-']], s.all (fun c => decide (Inert c)) = true := by decide
    have htail := List.forall_mem_append.mpr ⟨inert_of_all (hsigns _ hsign),hcs.inert⟩
    exact List.forall_mem_cons.mpr ⟨hletter _ he,htail⟩

lemma Number.inert {cs : List Char} (h : Number cs) : ∀ c ∈ cs, Inert c := by
  cases h with
  | parts hsign hwhole hfraction hexponent =>
    have hsigns : ∀ s ∈ [[],['-']], s.all (fun c => decide (Inert c)) = true := by decide
    have htail := List.forall_mem_append.mpr ⟨hfraction.inert,hexponent.inert⟩
    have hwhole := List.forall_mem_append.mpr ⟨hwhole.inert,htail⟩
    exact List.forall_mem_append.mpr ⟨inert_of_all (hsigns _ hsign),hwhole⟩

end InertTexts

lemma Balanced.cons {x : Char} {cs : List Char} (hx : Inert x) (h : Balanced cs) :
    Balanced (x::cs) := by
  have hsingle : ∀ c ∈ [x], Inert c := List.forall_mem_singleton.mpr hx
  exact .append (.inert hsingle) h

/-- Every derivation keeps its braces matched. -/
theorem Derives.balanced {n : Nonterminal} {t : List Char} (h : Derives n t) : Balanced t := by
  induction h with
  | literal h =>
    have hliterals : ∀ t ∈ [['n','u','l','l'],['t','r','u','e'],['f','a','l','s','e']],
        t.all (fun c => decide (Inert c)) = true := by decide
    exact .inert (inert_of_all (hliterals _ h))
  | number h => exact .inert h.inert
  | string h => exact .string h
  | nested _ ih => exact ih
  | emptyArray h => exact .cons (by decide) (.append (.inert h.inert) (.inert (inert_of_all rfl)))
  | array _ ih => exact .cons (by decide) (.append ih (.inert (inert_of_all rfl)))
  | emptyObject h => exact .braces (.inert h.inert)
  | object _ ih => exact .braces ih
  | element hw _ hw' ih => exact .append (.inert hw.inert) (.append ih (.inert hw'.inert))
  | oneElement _ ih => exact ih
  | moreElements _ _ ih ih' => exact .append ih (.cons (by decide) ih')
  | member hw hk hw' _ ih =>
    exact .append (.inert hw.inert)
      (.append (.string hk) (.append (.inert hw'.inert) (.cons (by decide) ih)))
  | oneMember _ ih => exact ih
  | moreMembers _ _ ih ih' => exact .append ih (.cons (by decide) ih')

/-- An object is a pair of braces around a text with matched braces. -/
theorem Derives.braced {t : List Char} (h : Derives .object t) :
    ∃ inner, Balanced inner ∧ t = '{' :: (inner ++ ['}']) := by
  cases h with
  | emptyObject hw => exact ⟨_,.inert hw.inert,rfl⟩
  | object hms => exact ⟨_,hms.balanced,rfl⟩

section Written

lemma whole_decimal (n : ℕ) : Whole (decimal n) := by
  obtain ⟨c,cs,hdecimal⟩ := List.exists_cons_of_ne_nil (decimal_ne_nil n)
  have hdigits : ∀ d ∈ c::cs, isDigit d = true :=
    fun d hd => isDigit_of_mem_decimal (hdecimal ▸ hd)
  rw [hdecimal]
  by_cases hzero : c = '0'
  · subst hzero
    rw [decimal_head_zero hdecimal]
    exact .zero
  · exact .digits (hdigits c (by simp)) hzero (fun d hd => hdigits d (List.mem_cons_of_mem c hd))

lemma number_decimalInt (n : ℤ) : Number (decimalInt n) := by
  cases n with
  | ofNat n =>
    have hsign : [] ∈ [[],['-']] := by simp
    have hnumber := Number.parts hsign (whole_decimal n) .absent .absent
    rwa [List.append_nil,List.append_nil] at hnumber
  | negSucc n =>
    have hsign : ['-'] ∈ [[],['-']] := by simp
    have hnumber := Number.parts hsign (whole_decimal (n+1)) .absent .absent
    rwa [List.append_nil,List.append_nil] at hnumber

lemma stringBody_escapeChar (c : Char) {r : List Char} (h : StringBody r) :
    StringBody (escapeChar c ++ r) := by
  unfold escapeChar
  split_ifs with hquote hback _ _ _ _ _ hcontrol
  · exact .escape (by decide) h
  · exact .escape (by decide) h
  · exact .escape (by decide) h
  · exact .escape (by decide) h
  · exact .escape (by decide) h
  · exact .escape (by decide) h
  · exact .escape (by decide) h
  · refine .unicode ?_ h
    have hhigh := hexValue_hexChar (n := c.toNat/16) (by omega)
    have hlow := hexValue_hexChar (n := c.toNat%16) (by omega)
    have hzero : (hexValue '0').isSome := rfl
    simp [hhigh,hlow,hzero]
  · exact .char (by omega) hquote hback h

lemma stringBody_escaped (cs : List Char) : StringBody (cs.flatMap escapeChar) := by
  induction cs with
  | nil => exact .nil
  | cons c cs ih => exact stringBody_escapeChar c ih

lemma blank_nil : Blank [] := fun _ hc => (nomatch hc)

lemma Derives.bareElement {v : List Char} (h : Derives .value v) : Derives .element v := by
  have helement := Derives.element blank_nil h blank_nil
  rwa [List.nil_append,List.append_nil] at helement

mutual
/-- A written document is derived as a value. -/
theorem derives_render : (v : Json) → v.Plain → Derives .value (render v)
  | .null,_ => .literal (by simp [render])
  | .bool true,_ => .literal (by simp [render])
  | .bool false,_ => .literal (by simp [render])
  | .int n,_ => .number (number_decimalInt n)
  | .str s,_ => .string (stringBody_escaped s.toList)
  | .arr [],_ => .emptyArray blank_nil
  | .arr (x::xs),h => by
    obtain ⟨es,hes,htext⟩ := derives_renderElems xs h.2 _ (derives_render x h.1).bareElement
    rw [render,htext]
    exact .array hes
  | .obj fs,h => .nested (derives_renderObject fs h.2)
/-- A written object is derived as an object. -/
theorem derives_renderObject : (fs : List (String × Json)) → PlainFields fs →
    Derives .object (render (.obj fs))
  | [],_ => .emptyObject blank_nil
  | (k,x)::fs,h => by
    have hvalue := (derives_render x h.1).bareElement
    have hmember := Derives.member blank_nil (stringBody_escaped k.toList) blank_nil hvalue
    obtain ⟨ms,hms,htext⟩ := derives_renderFields fs h.2 _ hmember
    have hrender : render (.obj ((k,x)::fs)) = '{' :: (ms ++ ['}']) := by
      rw [← htext]
      simp [render,renderStr,quoted]
    rw [hrender]
    exact .object hms
/-- The rest of an array after its first element. -/
theorem derives_renderElems : (xs : List Json) → PlainElems xs → (e : List Char) →
    Derives .element e → ∃ es, Derives .elements es ∧ e ++ renderElems xs = es ++ [']']
  | [],_,e,he => ⟨e,.oneElement he,rfl⟩
  | x::xs,h,e,he => by
    obtain ⟨es,hes,htext⟩ := derives_renderElems xs h.2 _ (derives_render x h.1).bareElement
    refine ⟨e ++ ',' :: es,.moreElements he hes,?_⟩
    rw [renderElems,htext]
    simp
/-- The rest of an object after its first member. -/
theorem derives_renderFields : (fs : List (String × Json)) → PlainFields fs → (m : List Char) →
    Derives .member m → ∃ ms, Derives .members ms ∧ m ++ renderFields fs = ms ++ ['}']
  | [],_,m,hm => ⟨m,.oneMember hm,rfl⟩
  | (k,x)::fs,h,m,hm => by
    have hvalue := (derives_render x h.1).bareElement
    have hmember := Derives.member blank_nil (stringBody_escaped k.toList) blank_nil hvalue
    obtain ⟨ms,hms,htext⟩ := derives_renderFields fs h.2 _ hmember
    refine ⟨m ++ ',' :: ms,.moreMembers hm hms,?_⟩
    have hrender : renderFields ((k,x)::fs) = ',' :: (ms ++ ['}']) := by
      rw [← htext]
      simp [renderFields,renderStr,quoted]
    rw [hrender]
    simp
end

end Written

end Json
end Kswarm
