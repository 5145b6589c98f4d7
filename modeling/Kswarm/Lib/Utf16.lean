import Kswarm.Lib.Utf8

/-! Texts that need not be valid Unicode: lists of code points, and lists of UTF-16 code units. A
surrogate that no partner completes is a code point of its own. -/
namespace Kswarm

inductive CodePoint where
  | scalar (c : Char)
  | surrogate (unit : UInt16)
  deriving DecidableEq

/-- A text of scalar values only. -/
def codePointsOf (cs : List Char) : List CodePoint := cs.map .scalar

lemma codePointsOf_injective : Function.Injective codePointsOf :=
  List.map_injective_iff.mpr (fun _ _ h => CodePoint.scalar.inj h)

/-- A text as its UTF-16 code units, any list of them. -/
abbrev CodeUnits := List UInt16

def isLead (u : UInt16) : Bool := decide (0xD800 ≤ u.toNat ∧ u.toNat < 0xDC00)
def isTrail (u : UInt16) : Bool := decide (0xDC00 ≤ u.toNat ∧ u.toNat < 0xE000)

def charUnits (c : Char) : CodeUnits :=
  if c.toNat < 0x10000 then [UInt16.ofNat c.toNat]
  else [UInt16.ofNat (0xD800 + (c.toNat - 0x10000)/1024),
    UInt16.ofNat (0xDC00 + (c.toNat - 0x10000)%1024)]

/-- The code units of a text of scalar values. -/
def utf16 (cs : List Char) : CodeUnits := cs.flatMap charUnits

@[simp] theorem utf16_nil : utf16 [] = [] := rfl

@[simp] theorem utf16_cons (c : Char) (cs : List Char) :
    utf16 (c::cs) = charUnits c ++ utf16 cs := rfl

@[simp] theorem utf16_append (a b : List Char) : utf16 (a ++ b) = utf16 a ++ utf16 b :=
  List.flatMap_append

/-- The scalar value a lead and a trail spell together. -/
def pairChar (lead trail : UInt16) : Char :=
  Char.ofNat (0x10000 + 1024*(lead.toNat - 0xD800) + (trail.toNat - 0xDC00))

/-- The code point of a unit on its own. -/
def unitPoint (u : UInt16) : CodePoint :=
  if isLead u ∨ isTrail u then .surrogate u else .scalar (Char.ofNat u.toNat)

/-- The code points of a list of units: a lead followed by a trail is one, any other unit is one. -/
def codePoints : CodeUnits → List CodePoint
  | lead::trail::rest =>
    if isLead lead ∧ isTrail trail then .scalar (pairChar lead trail) :: codePoints rest
    else unitPoint lead :: codePoints (trail::rest)
  | [u] => [unitPoint u]
  | [] => []

def CodePoint.units : CodePoint → CodeUnits
  | .scalar c => charUnits c
  | .surrogate u => [u]

lemma char_ofNat_toNat {n : ℕ} (h : n.isValidChar) : (Char.ofNat n).toNat = n := by
  rw [Char.ofNat,dif_pos h]
  rfl

lemma pair_valid {lead trail : UInt16} (hl : isLead lead = true) (ht : isTrail trail = true) :
    (0x10000 + 1024*(lead.toNat - 0xD800) + (trail.toNat - 0xDC00)).isValidChar := by
  simp only [isLead,isTrail,decide_eq_true_eq] at hl ht
  right
  omega

lemma units_pair {lead trail : UInt16} (hl : isLead lead = true) (ht : isTrail trail = true) :
    charUnits (pairChar lead trail) = [lead,trail] := by
  have hval := char_ofNat_toNat (pair_valid hl ht)
  simp only [isLead,isTrail,decide_eq_true_eq] at hl ht
  unfold charUnits pairChar
  rw [hval,if_neg (by omega)]
  have hlead : 0xD800 + (0x10000 + 1024*(lead.toNat - 0xD800) + (trail.toNat - 0xDC00) -
      0x10000)/1024 = lead.toNat := by omega
  have htrail : 0xDC00 + (0x10000 + 1024*(lead.toNat - 0xD800) + (trail.toNat - 0xDC00) -
      0x10000)%1024 = trail.toNat := by omega
  rw [hlead,htrail,UInt16.ofNat_toNat,UInt16.ofNat_toNat]

lemma units_unitPoint (u : UInt16) : (unitPoint u).units = [u] := by
  unfold unitPoint
  split_ifs with h
  · rfl
  · simp only [isLead,isTrail,decide_eq_true_eq] at h
    have hlt := u.toNat_lt
    have hval : (Char.ofNat u.toNat).toNat = u.toNat := char_ofNat_toNat (by
      by_cases hs : u.toNat < 0xD800
      · exact .inl hs
      · right; omega)
    rw [CodePoint.units,charUnits,hval,if_pos hlt,UInt16.ofNat_toNat]

/-- Nothing is lost: the code points spell the units they were read from. -/
theorem units_codePoints (text : CodeUnits) :
    (codePoints text).flatMap CodePoint.units = text := by
  fun_induction codePoints text with
  | case1 lead trail rest h ih =>
    rw [List.flatMap_cons,ih,CodePoint.units,units_pair h.1 h.2]
    rfl
  | case2 lead trail rest h ih =>
    rw [List.flatMap_cons,ih,units_unitPoint]
    rfl
  | case3 u => rw [List.flatMap_cons,units_unitPoint]; rfl
  | case4 => rfl

theorem codePoints_injective : Function.Injective codePoints := by
  intro a b h
  rw [← units_codePoints a,h,units_codePoints]

lemma char_valid (c : Char) : c.toNat < 0xD800 ∨ (0xDFFF < c.toNat ∧ c.toNat < 0x110000) := c.valid

lemma unitPoint_scalar {u : UInt16} (hl : isLead u = false) (ht : isTrail u = false) :
    unitPoint u = .scalar (Char.ofNat u.toNat) := by
  rw [unitPoint,if_neg (by simp [hl,ht])]

/-- A unit that leads nothing stands alone. -/
lemma codePoints_cons {u : UInt16} (hu : isLead u = false) (text : CodeUnits) :
    codePoints (u::text) = unitPoint u :: codePoints text := by
  cases text with
  | nil => rfl
  | cons v text => rw [codePoints,if_neg (by simp [hu])]

lemma codePoints_charUnits (c : Char) (text : CodeUnits) :
    codePoints (charUnits c ++ text) = .scalar c :: codePoints text := by
  have hc := char_valid c
  unfold charUnits
  split_ifs with h
  · have hval : (UInt16.ofNat c.toNat).toNat = c.toNat := by
      rw [UInt16.toNat_ofNat']
      exact Nat.mod_eq_of_lt h
    have hl : isLead (UInt16.ofNat c.toNat) = false := by
      simp only [isLead,hval,decide_eq_false_iff_not]
      omega
    have ht : isTrail (UInt16.ofNat c.toNat) = false := by
      simp only [isTrail,hval,decide_eq_false_iff_not]
      omega
    rw [List.singleton_append,codePoints_cons hl,unitPoint_scalar hl ht,hval,Char.ofNat_toNat]
  · have hlead : (UInt16.ofNat (0xD800 + (c.toNat - 0x10000)/1024)).toNat =
        0xD800 + (c.toNat - 0x10000)/1024 := by
      rw [UInt16.toNat_ofNat']
      omega
    have htrail : (UInt16.ofNat (0xDC00 + (c.toNat - 0x10000)%1024)).toNat =
        0xDC00 + (c.toNat - 0x10000)%1024 := by
      rw [UInt16.toNat_ofNat']
      omega
    have hl : isLead (UInt16.ofNat (0xD800 + (c.toNat - 0x10000)/1024)) = true := by
      simp only [isLead,hlead,decide_eq_true_eq]
      omega
    have ht : isTrail (UInt16.ofNat (0xDC00 + (c.toNat - 0x10000)%1024)) = true := by
      simp only [isTrail,htrail,decide_eq_true_eq]
      omega
    have hpair : 0x10000 + 1024*(0xD800 + (c.toNat - 0x10000)/1024 - 0xD800) +
        (0xDC00 + (c.toNat - 0x10000)%1024 - 0xDC00) = c.toNat := by omega
    rw [List.cons_append,List.cons_append,codePoints,if_pos ⟨hl,ht⟩,pairChar,hlead,htrail,hpair,
      Char.ofNat_toNat]
    rfl

/-- Scalar values come back from their units. -/
@[simp] theorem codePoints_utf16 (cs : List Char) : codePoints (utf16 cs) = codePointsOf cs := by
  induction cs with
  | nil => rfl
  | cons c cs ih => rw [utf16_cons,codePoints_charUnits,ih]; rfl

theorem utf16_injective : Function.Injective utf16 := by
  intro a b h
  have := congrArg codePoints h
  rw [codePoints_utf16,codePoints_utf16] at this
  exact codePointsOf_injective this

/-- The scalar value a writer that must produce one puts for a code point. -/
def CodePoint.lossy : CodePoint → Char
  | .scalar c => c
  | .surrogate _ => '\ufffd'

/-- The scalar values of a text, a lone surrogate as the replacement character. -/
def scalars (text : CodeUnits) : List Char := (codePoints text).map CodePoint.lossy

@[simp] theorem scalars_utf16 (cs : List Char) : scalars (utf16 cs) = cs := by
  rw [scalars,codePoints_utf16,codePointsOf,List.map_map]
  exact List.map_id cs

/-- A unit that is no surrogate closes the text before it. -/
lemma codePoints_append_cons {u : UInt16} (hl : isLead u = false) (ht : isTrail u = false)
    (a b : CodeUnits) : codePoints (a ++ u::b) = codePoints a ++ unitPoint u :: codePoints b := by
  fun_induction codePoints a with
  | case1 lead trail rest h ih =>
    rw [List.cons_append,List.cons_append,codePoints,if_pos h,ih,List.cons_append]
  | case2 lead trail rest h ih =>
    rw [List.cons_append,List.cons_append,codePoints,if_neg h,← List.cons_append,ih,
      List.cons_append]
  | case3 v => rw [List.singleton_append,codePoints,if_neg (by simp [ht]),codePoints_cons hl]; rfl
  | case4 => exact codePoints_cons hl b

end Kswarm
