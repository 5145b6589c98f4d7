import Kswarm.Lib.Numeral
import Mathlib.Data.Nat.Digits.Lemmas
import Mathlib.Tactic.Zify

/-! Decimal arithmetic in a context of 28 significant digits, by value. An operation rounds the
exact result to the nearest multiple of the unit of its 28th digit, ties to even, and a following
round-down to an integer can then be one too high. -/
namespace Kswarm
open Binary64

/-- A coefficient and an exponent as a number. -/
def scaled (coefficient : ℕ) (exponent : ℤ) : ℚ := coefficient * 10^exponent

/-- The unit of the last digit the context keeps of `x`. -/
def lastUnit (x : ℚ) : ℚ := 10^(scale x contextDigits)

lemma lastUnit_pos (x : ℚ) : 0 < lastUnit x := zpow_pos (by norm_num) _

lemma scaled_nonneg (c : ℕ) (e : ℤ) : 0 ≤ scaled c e :=
  mul_nonneg c.cast_nonneg (zpow_nonneg (by norm_num) _)

lemma scaled_natExp (c k : ℕ) : scaled c k = ((c*10^k : ℕ) : ℚ) := by
  rw [scaled,zpow_natCast]
  push_cast
  rfl

lemma scaled_negExp (c k : ℕ) : scaled c (-k) = (c : ℚ) / (10^k : ℕ) := by
  rw [scaled,zpow_neg,zpow_natCast,div_eq_mul_inv]
  push_cast
  rfl

lemma ten_zpow_add (m n : ℤ) : (10 : ℚ)^(m+n) = 10^m * 10^n := zpow_add₀ (by norm_num) m n

lemma scaled_shift (c k : ℕ) (e : ℤ) : scaled (c*10^k) e = scaled c (e+k) := by
  rw [scaled,scaled,ten_zpow_add,zpow_natCast]
  push_cast
  ring

/-- The position of the leading digit. -/
lemma log_scaled {c : ℕ} (hc : c ≠ 0) (e : ℤ) :
    Int.log 10 (scaled c e) = (Nat.digits 10 c).length - 1 + e := by
  have hpow : (0 : ℚ) < 10^e := zpow_pos (by norm_num) _
  have hx : 0 < scaled c e := mul_pos (by exact_mod_cast Nat.pos_of_ne_zero hc) hpow
  have hlen : (Nat.digits 10 c).length = Nat.log 10 c + 1 := Nat.length_digits 10 c (by norm_num) hc
  have hlo : ((10^(Nat.log 10 c) : ℕ) : ℚ) ≤ c := by exact_mod_cast Nat.pow_log_le_self 10 hc
  have hhi : (c : ℚ) < ((10^(Nat.log 10 c + 1) : ℕ) : ℚ) := by
    exact_mod_cast Nat.lt_pow_succ_log_self (by norm_num) c
  have hlog : ((Nat.digits 10 c).length : ℤ) - 1 + e = Nat.log 10 c + e := by
    rw [hlen]
    push_cast
    ring
  rw [hlog]
  apply le_antisymm
  · rw [← Int.lt_add_one_iff,← Int.lt_zpow_iff_log_lt (by norm_num) hx]
    have hsum : ((Nat.log 10 c : ℤ) + e + 1) = ((Nat.log 10 c + 1 : ℕ) : ℤ) + e := by
      push_cast
      ring
    rw [hsum]
    push_cast
    rw [ten_zpow_add]
    apply mul_lt_mul_of_pos_right _ hpow
    exact_mod_cast hhi
  · rw [← Int.zpow_le_iff_le_log (by norm_num) hx]
    push_cast
    rw [ten_zpow_add,zpow_natCast]
    apply mul_le_mul_of_nonneg_right _ hpow.le
    exact_mod_cast hlo

section Rounding

lemma roundHalfEven_natCast (n : ℕ) : roundHalfEven (n : ℚ) = n :=
  le_antisymm (roundHalfEven_le (k := n) le_rfl) (le_roundHalfEven (k := n) le_rfl)

/-- The integer division with its tie rule is the rounded quotient. -/
lemma roundHalfEven_div (c : ℕ) {d : ℕ} (hd : 0 < d) : roundHalfEven ((c : ℚ) / d) =
    if d < 2*(c % d) ∨ (2*(c % d) = d ∧ c / d % 2 = 1) then ((c / d : ℕ) : ℤ) + 1
    else ((c / d : ℕ) : ℤ) := by
  have hd' : (0 : ℚ) < d := by exact_mod_cast hd
  have hfloor : ⌊(c : ℚ) / d⌋ = ((c / d : ℕ) : ℤ) := by
    have := Rat.floor_intCast_div_natCast (c : ℤ) d
    rwa [Int.cast_natCast,← Int.natCast_div] at this
  have hfrac : (c : ℚ) / d - ((c / d : ℕ) : ℚ) = ((c % d : ℕ) : ℚ) / d := by
    have hdiv : ((d * (c / d) + c % d : ℕ) : ℚ) = c := by rw [Nat.div_add_mod]
    push_cast at hdiv
    rw [← hdiv]
    field_simp
    ring
  have hlt : ((c % d : ℕ) : ℚ) / d < 1/2 ↔ 2*(c % d) < d := by
    rw [div_lt_div_iff₀ hd' two_pos,one_mul,mul_comm]
    exact_mod_cast Iff.rfl
  have hgt : 1/2 < ((c % d : ℕ) : ℚ) / d ↔ d < 2*(c % d) := by
    rw [div_lt_div_iff₀ two_pos hd',one_mul,mul_comm]
    exact_mod_cast Iff.rfl
  simp only [roundHalfEven,hfloor,Int.cast_natCast,hfrac,hlt,hgt]
  split_ifs <;> omega

lemma roundContext_short {c : ℕ} (e : ℤ) (h : (Nat.digits 10 c).length ≤ contextDigits) :
    roundContext c e = (c,e) := if_pos (Nat.sub_eq_zero_of_le h)

lemma lastUnit_scaled {c : ℕ} (hc : c ≠ 0) (e : ℤ) :
    lastUnit (scaled c e) = 10^(e + (Nat.digits 10 c).length - contextDigits) := by
  rw [lastUnit,scale,log_scaled hc]
  congr 1
  ring

/-- A rounded result is the nearest multiple of its last unit. -/
theorem roundContext_value (c : ℕ) (e : ℤ) :
    scaled (roundContext c e).1 (roundContext c e).2 =
      roundHalfEven (scaled c e / lastUnit (scaled c e)) * lastUnit (scaled c e) := by
  have hunit := lastUnit_pos (scaled c e)
  by_cases hc : c = 0
  · have hzero : scaled 0 e = 0 := by simp [scaled]
    have hround := roundHalfEven_natCast 0
    rw [Nat.cast_zero,Nat.cast_zero] at hround
    rw [hc,hzero,zero_div,hround,Int.cast_zero,zero_mul]
    exact hzero
  by_cases hshort : (Nat.digits 10 c).length ≤ contextDigits
  · -- the value is already a multiple of the unit
    obtain ⟨k,hk⟩ := Nat.exists_eq_add_of_le hshort
    have hvalue : scaled c e = ((c*10^k : ℕ) : ℚ) * lastUnit (scaled c e) := by
      rw [lastUnit_scaled hc]
      have he : e = e + (Nat.digits 10 c).length - contextDigits + k := by omega
      conv_lhs => rw [he,← scaled_shift]
      rfl
    have hint : scaled c e / lastUnit (scaled c e) = ((c*10^k : ℕ) : ℚ) := by
      rw [div_eq_iff hunit.ne']
      exact hvalue
    rw [roundContext_short e hshort,hint,roundHalfEven_natCast,Int.cast_natCast]
    exact hvalue
  · obtain ⟨k,hk⟩ : ∃ k, (Nat.digits 10 c).length - contextDigits = k := ⟨_,rfl⟩
    have hpow : (0 : ℚ) < 10^(k : ℤ) := zpow_pos (by norm_num) _
    have hpow' : (0 : ℚ) < 10^e := zpow_pos (by norm_num) _
    have hexp : lastUnit (scaled c e) = 10^(e + k) := by
      rw [lastUnit_scaled hc]
      congr 1
      omega
    have hdiv : scaled c e / 10^(e + k) = (c : ℚ) / (10^k : ℕ) := by
      rw [scaled,ten_zpow_add,div_eq_div_iff (by positivity) (by positivity),zpow_natCast]
      push_cast
      ring
    have hk0 : k ≠ 0 := by omega
    rw [hexp,hdiv,roundHalfEven_div c (by positivity),roundContext,hk,if_neg hk0]
    split
    · rw [scaled]
      push_cast
      rfl
    · rfl

/-- The round-down to an integer gives the floor, unless that has too many digits. -/
theorem quantizeDown_eq_some {c : ℕ} {e : ℤ} {n : ℕ} :
    quantizeDown c e = some n ↔ (n : ℤ) = ⌊scaled c e⌋ ∧ n < 10^contextDigits := by
  have hfloor : (((if 0 ≤ e then c*10^e.toNat else c / 10^(-e).toNat : ℕ)) : ℤ) =
      ⌊scaled c e⌋ := by
    split_ifs with he
    · obtain ⟨k,rfl⟩ := Int.eq_ofNat_of_zero_le he
      rw [scaled_natExp,Int.toNat_natCast,Int.floor_natCast]
    · obtain ⟨k,hk⟩ := Int.eq_ofNat_of_zero_le (show 0 ≤ -e by omega)
      obtain rfl : e = -(k : ℤ) := by omega
      have hdiv := Rat.floor_intCast_div_natCast (c : ℤ) (10^k)
      rw [Int.cast_natCast] at hdiv
      rw [scaled_negExp,hdiv,neg_neg,Int.toNat_natCast,Int.natCast_div]
  rw [quantizeDown,← hfloor,Nat.cast_inj,← Nat.digits_length_le_iff (by norm_num)]
  generalize (if 0 ≤ e then c*10^e.toNat else c / 10^(-e).toNat) = m
  split_ifs with hlong
  · refine iff_of_false (fun h => nomatch h) ?_
    rintro ⟨rfl,h⟩
    omega
  · rw [Option.some.injEq]
    constructor
    · rintro rfl
      exact ⟨rfl,not_lt.mp hlong⟩
    · intro h
      exact h.1.symm

end Rounding

section Floor

/-- The rounding to 28 digits takes `x` up to the next integer. -/
def RoundsUp (x : ℚ) : Prop :=
  ⌊x⌋ + 1 - x < lastUnit x/2 ∨
    (⌊x⌋ + 1 - x = lastUnit x/2 ∧ (lastUnit x < 1 ∨ ⌊x⌋ % 2 = 1))

/-- Rounding on a grid of `10^j` points for each unit reaches the next integer from at most half a
step below; a tie goes to the even point, and between integers the integers are the even ones. -/
lemma reaches_next_iff (x : ℚ) (j : ℕ) :
    (⌊x⌋ + 1)*10^j ≤ roundHalfEven (x*10^j) ↔
      (⌊x⌋ + 1 - x)*10^j < 1/2 ∨ ((⌊x⌋ + 1 - x)*10^j = 1/2 ∧ (j ≠ 0 ∨ ⌊x⌋ % 2 = 1)) := by
  have hlt := Int.lt_floor_add_one x
  by_cases hj : j = 0
  · subst hj
    simp only [pow_zero,mul_one,ne_eq,not_true_eq_false,false_or,roundHalfEven]
    split_ifs with h1 h2 h3
    · refine iff_of_false (by omega) ?_
      rintro (h | ⟨h,-⟩) <;> linarith
    · exact iff_of_true le_rfl (.inl (by linarith))
    · refine iff_of_false (by omega) ?_
      rintro (h | ⟨-,h⟩)
      · linarith
      · omega
    · exact iff_of_true le_rfl (.inr ⟨by linarith,by omega⟩)
  · have hpow : (0 : ℚ) < 10^j := by positivity
    have htwo : (2 : ℤ) ∣ 10^j := dvd_pow (by norm_num) hj
    have heven : (⌊x⌋ + 1)*10^j % 2 = 0 := Int.emod_eq_zero_of_dvd (htwo.mul_left _)
    have hbelow : x*10^j < (((⌊x⌋ + 1)*10^j : ℤ) : ℚ) := by
      push_cast
      exact mul_lt_mul_of_pos_right hlt hpow
    rw [← not_lt,roundHalfEven_lt_iff heven hbelow]
    push_cast
    have hgap : (⌊x⌋ + 1 - x)*10^j = (⌊x⌋ + 1)*10^j - x*10^j := by ring
    rw [hgap,not_lt]
    constructor
    · intro h
      rcases lt_or_eq_of_le h with h | h
      · exact .inl (by linarith)
      · exact .inr ⟨by linarith,.inl hj⟩
    · rintro (h | ⟨h,-⟩) <;> linarith

/-- The floor after the rounding is the floor, or one more. -/
lemma floor_rounded_grid (x : ℚ) (j : ℕ) :
    ⌊(roundHalfEven (x*10^j) : ℚ)/10^j⌋ =
      if (⌊x⌋ + 1)*10^j ≤ roundHalfEven (x*10^j) then ⌊x⌋ + 1 else ⌊x⌋ := by
  have hpow : (0 : ℚ) < 10^j := by positivity
  have hle : roundHalfEven (x*10^j) ≤ (⌊x⌋ + 1)*10^j := by
    apply roundHalfEven_le
    push_cast
    exact mul_le_mul_of_nonneg_right (Int.lt_floor_add_one x).le hpow.le
  have hge : ⌊x⌋*10^j ≤ roundHalfEven (x*10^j) := by
    apply le_roundHalfEven
    push_cast
    exact mul_le_mul_of_nonneg_right (Int.floor_le x) hpow.le
  rw [Int.floor_eq_iff]
  split_ifs with h
  · have heq : roundHalfEven (x*10^j) = (⌊x⌋ + 1)*10^j := le_antisymm hle h
    rw [heq]
    push_cast
    rw [mul_div_cancel_right₀ _ hpow.ne']
    exact ⟨le_rfl,lt_add_one _⟩
  · rw [le_div_iff₀ hpow,div_lt_iff₀ hpow]
    exact ⟨by exact_mod_cast hge,by exact_mod_cast not_le.mp h⟩

/-- Below `10^28` the last unit divides one. -/
lemma lastUnit_of_lt {x : ℚ} (hx : 0 ≤ x) (h : x < 10^contextDigits) :
    ∃ j : ℕ, lastUnit x = ((10 : ℚ)^j)⁻¹ := by
  have hlog : Int.log 10 x < contextDigits := by
    rcases hx.eq_or_lt with rfl | hpos
    · rw [Int.log_zero_right]
      decide
    · apply (Int.lt_zpow_iff_log_lt (by norm_num) hpos).mp
      exact_mod_cast h
  obtain ⟨j,hj⟩ := Int.eq_ofNat_of_zero_le (show 0 ≤ -scale x contextDigits by
    rw [scale]
    omega)
  refine ⟨j,?_⟩
  rw [lastUnit,← zpow_natCast,← zpow_neg]
  congr 1
  omega

lemma roundsUp_iff {x : ℚ} {j : ℕ} (h : lastUnit x = ((10 : ℚ)^j)⁻¹) :
    RoundsUp x ↔ (⌊x⌋ + 1)*10^j ≤ roundHalfEven (x*10^j) := by
  have hpow : (0 : ℚ) < 10^j := by positivity
  have hhalf : lastUnit x/2 = 1/2/10^j := by
    rw [h]
    ring
  have hfine : lastUnit x < 1 ↔ j ≠ 0 := by
    rw [h,inv_lt_one₀ hpow]
    constructor
    · rintro hlt rfl
      rw [pow_zero] at hlt
      exact lt_irrefl _ hlt
    · exact one_lt_pow₀ (by norm_num)
  rw [reaches_next_iff,RoundsUp,hhalf,hfine,lt_div_iff₀ hpow,eq_div_iff hpow.ne']

/-- A rounded amount below `10^28` has the floor of the exact one, or is one too high. -/
theorem floor_roundContext {c : ℕ} {e : ℤ} (h : scaled c e < 10^contextDigits) :
    RoundsUp (scaled c e) ∧
        ⌊scaled (roundContext c e).1 (roundContext c e).2⌋ = ⌊scaled c e⌋ + 1 ∨
      ¬RoundsUp (scaled c e) ∧
        ⌊scaled (roundContext c e).1 (roundContext c e).2⌋ = ⌊scaled c e⌋ := by
  obtain ⟨j,hj⟩ := lastUnit_of_lt (scaled_nonneg c e) h
  rw [roundContext_value,roundsUp_iff hj,hj,div_inv_eq_mul,← div_eq_mul_inv,floor_rounded_grid]
  split_ifs with hup
  · exact .inl ⟨hup,rfl⟩
  · exact .inr ⟨hup,rfl⟩

/-- A rounded amount keeps its leading power of ten. -/
theorem le_roundContext {c : ℕ} {e : ℤ} (h : 10^contextDigits ≤ scaled c e) :
    10^contextDigits ≤ scaled (roundContext c e).1 (roundContext c e).2 := by
  rw [roundContext_value]
  generalize scaled c e = x at h
  have hx : 0 < x := lt_of_lt_of_le (by positivity) h
  have hunit := lastUnit_pos x
  have hlead : ((10^27 : ℤ) : ℚ)*lastUnit x = 10^(Int.log 10 x) := by
    have hcast : ((10^27 : ℤ) : ℚ) = 10^(27 : ℤ) := by norm_num
    rw [hcast,lastUnit,scale,contextDigits,← ten_zpow_add]
    congr 1
    push_cast
    ring
  have hlog : (contextDigits : ℤ) ≤ Int.log 10 x := by
    apply (Int.zpow_le_iff_le_log (by norm_num) hx).mp
    exact_mod_cast h
  have hround : 10^27 ≤ roundHalfEven (x / lastUnit x) := by
    apply le_roundHalfEven
    rw [le_div_iff₀ hunit,hlead]
    exact_mod_cast Int.zpow_log_le_self (b := 10) (by norm_num) hx
  calc (10 : ℚ)^contextDigits = 10^(contextDigits : ℤ) := (zpow_natCast _ _).symm
    _ ≤ 10^(Int.log 10 x) := zpow_le_zpow_right₀ (by norm_num) hlog
    _ = ((10^27 : ℤ) : ℚ)*lastUnit x := hlead.symm
    _ ≤ roundHalfEven (x / lastUnit x)*lastUnit x :=
      mul_le_mul_of_nonneg_right (by exact_mod_cast hround) hunit.le

end Floor

section Text

/-- `normalize()` of a magnitude: its digits without trailing zeros, and their exponent. -/
def normalizeDigits (c : ℕ) (e : ℤ) : List Char × ℤ :=
  if c = 0 then (['0'],0)
  else
    let (ds,k) := stripZeros (decimal c)
    (ds,e + k)

/-- `format(value,"f")` of the digits of a magnitude and their exponent. -/
def formatFixed (ds : List Char) (e : ℤ) : List Char :=
  if 0 ≤ e then ds ++ List.replicate e.toNat '0'
  else
    let point := ds.length + e
    if point ≤ 0 then '0' :: '.' :: (List.replicate (-point).toNat '0' ++ ds)
    else ds.take point.toNat ++ '.' :: ds.drop point.toNat

lemma stripZeros_append (cs : List Char) :
    (stripZeros cs).1 ++ List.replicate (stripZeros cs).2 '0' = cs := by
  induction cs with
  | nil => rfl
  | cons c cs ih =>
    simp only [stripZeros]
    split_ifs with h
    · rw [h.1,List.nil_append] at ih
      rw [h.2,List.replicate_succ,List.nil_append,ih]
    · rw [List.cons_append,ih]

lemma digitsValue_append (xs ys : List Char) :
    digitsValue (xs ++ ys) = digitsValue xs * 10^ys.length + digitsValue ys := by
  induction ys using List.reverseRecOn with
  | nil => simp [digitsValue]
  | append_singleton ys y ih =>
    simp only [digitsValue,← List.append_assoc,List.foldl_append,List.foldl_cons,List.foldl_nil]
      at ih ⊢
    rw [ih,List.length_append,List.length_singleton,pow_succ]
    ring

lemma digitsValue_zeros (k : ℕ) : digitsValue (List.replicate k '0') = 0 := by
  induction k with
  | zero => rfl
  | succ k ih =>
    rw [List.replicate_succ',digitsValue_append,ih]
    rfl

lemma isDigit_of_mem_zeros {k : ℕ} {c : Char} (h : c ∈ List.replicate k '0') :
    isDigit c = true := by
  rw [List.eq_of_mem_replicate h]
  rfl

/-- Fixed text reads back as the same number, with a coefficient no larger than the digits or else
an integer. -/
theorem decimalOf_formatFixed [CharData] {ds : List Char} (e : ℤ)
    (hd : ∀ c ∈ ds, isDigit c = true) (hne : ds ≠ []) :
    ∃ c f, decimalOf (formatFixed ds e) = some (false,c,f) ∧
      scaled c f = scaled (digitsValue ds) e ∧ (c = digitsValue ds ∨ f = 0) := by
  rw [formatFixed]
  split_ifs with he
  · obtain ⟨k,rfl⟩ := Int.eq_ofNat_of_zero_le he
    have hall : ∀ c ∈ ds ++ List.replicate k '0', isDigit c = true := by
      intro c hc
      exact (List.mem_append.mp hc).elim (hd c) isDigit_of_mem_zeros
    refine ⟨_,0,decimalOf_whole hall (List.append_ne_nil_of_left_ne_nil hne _),?_,.inr rfl⟩
    rw [digitsValue_append,digitsValue_zeros,List.length_replicate,add_zero,scaled_shift,zero_add]
    rfl
  · dsimp only
    split_ifs with hpoint
    · obtain ⟨k,hk⟩ := Int.eq_ofNat_of_zero_le (show 0 ≤ -(ds.length + e) by omega)
      have hall : ∀ c ∈ List.replicate k '0' ++ ds, isDigit c = true := by
        intro c hc
        exact (List.mem_append.mp hc).elim isDigit_of_mem_zeros (hd c)
      have hzero : ∀ c ∈ ['0'], isDigit c = true := List.forall_mem_singleton.mpr rfl
      have hread := decimalOf_point hzero hall (List.cons_ne_nil _ _)
      have hvalue : digitsValue (['0'] ++ (List.replicate k '0' ++ ds)) = digitsValue ds := by
        rw [digitsValue_append,digitsValue_append,digitsValue_zeros]
        simp [digitsValue]
      rw [hvalue] at hread
      rw [hk,Int.toNat_natCast]
      refine ⟨_,_,hread,?_,.inl rfl⟩
      congr 1
      rw [List.length_append,List.length_replicate]
      push_cast
      omega
    · obtain ⟨k,hk⟩ := Int.eq_ofNat_of_zero_le (show 0 ≤ ds.length + e by omega)
      have hlen : k < ds.length := by omega
      have hwhole : ds.take k ≠ [] := by
        intro hnil
        have := congrArg List.length hnil
        rw [List.length_take,List.length_nil] at this
        omega
      have hfrac : ∀ c ∈ ds.drop k, isDigit c = true := fun c hc => hd c (List.mem_of_mem_drop hc)
      have hread := decimalOf_point (fun c hc => hd c (List.mem_of_mem_take hc)) hfrac hwhole
      rw [List.take_append_drop] at hread
      rw [hk,Int.toNat_natCast]
      refine ⟨_,_,hread,?_,.inl rfl⟩
      congr 1
      rw [List.length_drop]
      omega

/-- Normalized digits are the digits of the number without trailing zeros. -/
lemma normalizeDigits_value (c : ℕ) (e : ℤ) :
    (∀ d ∈ (normalizeDigits c e).1, isDigit d = true) ∧ (normalizeDigits c e).1 ≠ [] ∧
      scaled (digitsValue (normalizeDigits c e).1) (normalizeDigits c e).2 = scaled c e ∧
      digitsValue (normalizeDigits c e).1 ≤ c := by
  rw [normalizeDigits]
  split_ifs with hc
  · subst hc
    refine ⟨List.forall_mem_singleton.mpr rfl,List.cons_ne_nil _ _,?_,le_rfl⟩
    simp [scaled,digitsValue]
  · have hsplit := stripZeros_append (decimal c)
    have hvalue : digitsValue (stripZeros (decimal c)).1 * 10^(stripZeros (decimal c)).2 = c := by
      have := congrArg digitsValue hsplit
      rwa [digitsValue_append,digitsValue_zeros,List.length_replicate,add_zero,
        digitsValue_decimal] at this
    refine ⟨?_,?_,?_,?_⟩
    · intro d hd
      apply isDigit_of_mem_decimal (n := c)
      rw [← hsplit]
      exact List.mem_append_left _ hd
    · intro hnil
      dsimp only at hnil
      rw [hnil] at hvalue
      exact hc (hvalue.symm.trans (zero_mul _))
    · dsimp only
      rw [← scaled_shift,hvalue]
    · dsimp only
      calc _ ≤ digitsValue (stripZeros (decimal c)).1 * 10^(stripZeros (decimal c)).2 :=
          Nat.le_mul_of_pos_right _ (by positivity)
        _ = c := hvalue

end Text

end Kswarm
