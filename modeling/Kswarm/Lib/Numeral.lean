import Kswarm.Lib.CharData
import Kswarm.Lib.Json

/-! Numeric literals as a Unicode-aware runtime reads them from text: `float(text)`, `int(text)`
and the integer conversion of a JSON value. -/
namespace Kswarm
variable [CharData]

/-- `str.strip()`. -/
def strip (cs : List Char) : List Char :=
  ((cs.dropWhile CharData.isSpace).reverse.dropWhile CharData.isSpace).reverse

/-- The digits after the first one, each with at most one underscore before it. -/
def moreDigits : List Char → List ℕ × List Char
  | [] => ([],[])
  | [c] => match CharData.digit c with
    | some d => ([d],[])
    | none => ([],[c])
  | c::e::cs => match CharData.digit c with
    | some d => let (ds,r) := moreDigits (e::cs); (d::ds,r)
    | none =>
      if c = '_' then match CharData.digit e with
        | some d => let (ds,r) := moreDigits cs; (d::ds,r)
        | none => ([],c::e::cs)
      else ([],c::e::cs)

/-- `digit (["_"] digit)*`, or nothing. -/
def digitPart : List Char → List ℕ × List Char
  | [] => ([],[])
  | c::cs => match CharData.digit c with
    | some d => let (ds,r) := moreDigits cs; (d::ds,r)
    | none => ([],c::cs)

def digitsNat (ds : List ℕ) : ℕ := ds.foldl (fun a d => 10*a + d) 0

def readSign : List Char → Bool × List Char
  | '-'::cs => (true,cs)
  | '+'::cs => (false,cs)
  | cs => (false,cs)

/-- The exponent of a literal, which must use up the text. -/
def exponentPart : List Char → Option ℤ
  | [] => some 0
  | c::cs =>
    if c = 'e' ∨ c = 'E' then
      let (neg,r) := readSign cs
      match digitPart r with
      | ([],_) => none
      | (ds,[]) => some (if neg then -(digitsNat ds : ℤ) else digitsNat ds)
      | _ => none
    else none

def lower (c : Char) : Char := if 65 ≤ c.toNat ∧ c.toNat ≤ 90 then Char.ofNat (c.toNat+32) else c

/-- `float(text)`; none stands for `ValueError`. -/
def floatOf (text : List Char) : Option Binary64 :=
  let (neg,cs) := readSign (strip text)
  let name := String.ofList (cs.map lower)
  if name = "inf" ∨ name = "infinity" then some (.inf neg)
  else if name = "nan" then some .nan
  else
    let (whole,r) := digitPart cs
    let (frac,r) := match r with
      | '.'::r => digitPart r
      | r => ([],r)
    if whole = [] ∧ frac = [] then none
    else (exponentPart r).map (fun e =>
      Binary64.ofDecimal neg (digitsNat (whole ++ frac)) (e - frac.length))

/-- `int(text)`, within the runtime's digit limit; none stands for `ValueError`. -/
def intOf (text : List Char) : Option ℤ :=
  let (neg,cs) := readSign (strip text)
  match digitPart cs with
  | ([],_) => none
  | (ds,[]) =>
    if 4300 < ds.length then none else some (if neg then -(digitsNat ds : ℤ) else digitsNat ds)
  | _ => none

/-- `Decimal(text)` as sign, coefficient and exponent; a special value is none. -/
def decimalOf (text : List Char) : Option (Bool × ℕ × ℤ) :=
  let (neg,cs) := readSign ((strip text).filter (· ≠ '_'))
  let (whole,r) := digitPart cs
  let (frac,r) := match r with
    | '.'::r => digitPart r
    | r => ([],r)
  if whole = [] ∧ frac = [] then none
  else (exponentPart r).map (fun e => (neg,digitsNat (whole ++ frac),e - frac.length))

/-- The significant digits of the default decimal context. -/
def contextDigits : ℕ := 28

/-- An operation's result in the default context: ties go to the even digit. -/
def roundContext (coefficient : ℕ) (exponent : ℤ) : ℕ × ℤ :=
  let drop := (Nat.digits 10 coefficient).length - contextDigits
  let q := coefficient / 10^drop
  let r := coefficient % 10^drop
  if drop = 0 then (coefficient,exponent)
  else (if 10^drop < 2*r ∨ (2*r = 10^drop ∧ q % 2 = 1) then q+1 else q,exponent + drop)

/-- `quantize(Decimal("1"),ROUND_DOWN)` of a magnitude; none when it needs too many digits. -/
def quantizeDown (coefficient : ℕ) (exponent : ℤ) : Option ℕ :=
  let n := if 0 ≤ exponent then coefficient*10^exponent.toNat
    else coefficient / 10^(-exponent).toNat
  if contextDigits < (Nat.digits 10 n).length then none else some n

/-- `int(value)`; none stands for the errors of the conversion. -/
def Json.toInt : Json → Option ℤ
  | .bool b => some (if b then 1 else 0)
  | .int n => some n
  | .float (.finite neg mag) => some (if neg then -⌊(mag : ℚ)⌋ else ⌊(mag : ℚ)⌋)
  | .str s => intOf s.toList
  | _ => none

section Reading

/-- A text that goes on after its digits. -/
def DigitsEnd (r : List Char) : Prop :=
  ∀ c ∈ r.head?, isDigit c = false ∧ c ≠ '_' ∧ c.toNat < 128

/-- The value of a digit as a number. -/
def digitValue (c : Char) : ℕ := c.toNat - 48

omit [CharData] in
lemma isDigit_ascii {c : Char} (h : isDigit c = true) : 48 ≤ c.toNat ∧ c.toNat ≤ 57 := by
  simpa only [isDigit,decide_eq_true_eq] using h

lemma digit_of_isDigit {c : Char} (h : isDigit c = true) :
    CharData.digit c = some (digitValue c) := by
  have hlt : c.toNat < 128 := by
    have := isDigit_ascii h
    omega
  rw [CharData.digit_ascii c hlt,asciiDigit,if_pos h]
  rfl

lemma digit_of_not {c : Char} (h : isDigit c = false) (hlt : c.toNat < 128) :
    CharData.digit c = none := by
  rw [CharData.digit_ascii c hlt,asciiDigit,h]
  rfl

lemma moreDigits_digits (ds r : List Char) (hd : ∀ c ∈ ds, isDigit c = true) (hr : DigitsEnd r) :
    moreDigits (ds ++ r) = (ds.map digitValue,r) := by
  induction ds with
  | nil =>
    cases r with
    | nil => rfl
    | cons c r =>
      obtain ⟨hc,hu,hlt⟩ := hr c rfl
      have hnone := digit_of_not hc hlt
      cases r with
      | nil =>
        simp only [List.nil_append,moreDigits,hnone]
        rfl
      | cons e r =>
        simp only [List.nil_append,moreDigits,hnone,if_neg hu]
        rfl
  | cons d ds ih =>
    have hdig := digit_of_isDigit (hd d List.mem_cons_self)
    have hrest := ih (fun c hc => hd c (List.mem_cons_of_mem d hc))
    rw [List.cons_append]
    cases hnext : ds ++ r with
    | nil =>
      obtain ⟨rfl,rfl⟩ := List.append_eq_nil_iff.mp hnext
      simp only [moreDigits,hdig]
      rfl
    | cons e cs =>
      rw [hnext] at hrest
      simp only [moreDigits,hdig,hrest,List.map_cons]

lemma digitPart_digits (ds r : List Char) (hd : ∀ c ∈ ds, isDigit c = true) (hr : DigitsEnd r) :
    digitPart (ds ++ r) = (ds.map digitValue,r) := by
  cases ds with
  | nil =>
    cases r with
    | nil => rfl
    | cons c r =>
      obtain ⟨hc,-,hlt⟩ := hr c rfl
      simp only [List.nil_append,digitPart,digit_of_not hc hlt]
      rfl
  | cons d ds =>
    have hdig := digit_of_isDigit (hd d List.mem_cons_self)
    have hrest := moreDigits_digits ds r (fun c hc => hd c (List.mem_cons_of_mem d hc)) hr
    simp only [List.cons_append,digitPart,hdig,hrest,List.map_cons]

omit [CharData] in
lemma digitsNat_map (ds : List Char) : digitsNat (ds.map digitValue) = digitsValue ds := by
  rw [digitsNat,digitsValue,List.foldl_map]
  rfl

/-- The characters of a plain decimal numeral. -/
def NumeralChar (c : Char) : Prop := isDigit c = true ∨ c = '.'

lemma NumeralChar.plain {c : Char} (h : NumeralChar c) :
    CharData.isSpace c = false ∧ c ≠ '_' ∧ c ≠ '-' ∧ c ≠ '+' := by
  rcases h with h | rfl
  · have hc := isDigit_ascii h
    have hlt : c.toNat < 128 := by omega
    refine ⟨?_,?_,?_,?_⟩
    · rw [CharData.isSpace_ascii c hlt,asciiSpace,decide_eq_false_iff_not]
      omega
    all_goals
      rintro rfl
      exact absurd hc (by decide)
  · rw [CharData.isSpace_ascii '.' (by decide)]
    decide

lemma strip_numeral {cs : List Char} (h : ∀ c ∈ cs, NumeralChar c) : strip cs = cs := by
  have hkeep : ∀ xs : List Char, (∀ c ∈ xs, NumeralChar c) → xs.dropWhile CharData.isSpace = xs := by
    intro xs hxs
    cases xs with
    | nil => rfl
    | cons x xs =>
      rw [List.dropWhile_cons_of_neg]
      rw [((hxs x List.mem_cons_self).plain).1]
      exact Bool.false_ne_true
  rw [strip,hkeep cs h,hkeep cs.reverse (fun c hc => h c (List.mem_reverse.mp hc)),
    List.reverse_reverse]

lemma readSign_numeral {cs : List Char} (h : ∀ c ∈ cs, NumeralChar c) :
    readSign cs = (false,cs) := by
  cases cs with
  | nil => rfl
  | cons c cs =>
    obtain ⟨-,-,hminus,hplus⟩ := (h c List.mem_cons_self).plain
    unfold readSign
    split
    · exact absurd (List.head_eq_of_cons_eq ‹_›) hminus
    · exact absurd (List.head_eq_of_cons_eq ‹_›) hplus
    · rfl

/-- A plain numeral with a point is its digits over the power of ten of its fraction. -/
theorem decimalOf_point {whole frac : List Char} (hwhole : ∀ c ∈ whole, isDigit c = true)
    (hfrac : ∀ c ∈ frac, isDigit c = true) (hne : whole ≠ []) :
    decimalOf (whole ++ '.'::frac) =
      some (false,digitsValue (whole ++ frac),-(frac.length : ℤ)) := by
  have hchars : ∀ c ∈ whole ++ '.'::frac, NumeralChar c := by
    intro c hc
    rcases List.mem_append.mp hc with hc | hc
    · exact .inl (hwhole c hc)
    · rcases List.mem_cons.mp hc with rfl | hc
      · exact .inr rfl
      · exact .inl (hfrac c hc)
  have hfilter : (whole ++ '.'::frac).filter (· ≠ '_') = whole ++ '.'::frac :=
    List.filter_eq_self.mpr (fun c hc => by simpa using (hchars c hc).plain.2.1)
  have hpoint : DigitsEnd ('.'::frac) := by
    intro c hc
    obtain rfl : '.' = c := Option.some.inj hc
    decide
  have hrest := digitPart_digits frac [] hfrac (fun c hc => nomatch hc)
  rw [List.append_nil] at hrest
  have hsome : whole.map digitValue ≠ [] := fun h => hne (List.map_eq_nil_iff.mp h)
  simp only [decimalOf,strip_numeral hchars,hfilter,readSign_numeral hchars,
    digitPart_digits whole _ hwhole hpoint,hrest,hsome,false_and,if_false,exponentPart,
    Option.map_some,← List.map_append,digitsNat_map,List.length_map,zero_sub]

/-- A plain numeral without a point is an integer. -/
theorem decimalOf_whole {whole : List Char} (hwhole : ∀ c ∈ whole, isDigit c = true)
    (hne : whole ≠ []) : decimalOf whole = some (false,digitsValue whole,0) := by
  have hchars : ∀ c ∈ whole, NumeralChar c := fun c hc => .inl (hwhole c hc)
  have hfilter : whole.filter (· ≠ '_') = whole :=
    List.filter_eq_self.mpr (fun c hc => by simpa using (hchars c hc).plain.2.1)
  have hdigits := digitPart_digits whole [] hwhole (fun c hc => nomatch hc)
  rw [List.append_nil] at hdigits
  have hsome : whole.map digitValue ≠ [] := fun h => hne (List.map_eq_nil_iff.mp h)
  simp only [decimalOf,strip_numeral hchars,hfilter,readSign_numeral hchars,hdigits,hsome,
    false_and,if_false,exponentPart,Option.map_some,List.append_nil,digitsNat_map,
    List.length_nil,Nat.cast_zero,sub_zero]

end Reading
end Kswarm
