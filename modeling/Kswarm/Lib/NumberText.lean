import Kswarm.Lib.DecimalContext
import Kswarm.Lib.Rounding

/-! The text of a number by `Number::toString`. Below `2^53` a natural is printed as its digits, and
nothing but that natural is. -/
namespace Kswarm.Binary64

/-- The text of the digits `ds`, with the decimal point behind the first `n` of them. -/
def placed (ds : List Char) (n : ℤ) : List Char :=
  if (ds.length : ℤ) ≤ n ∧ n ≤ 21 then ds ++ List.replicate (n - ds.length).toNat '0'
  else if 0 < n ∧ n ≤ 21 then ds.take n.toNat ++ '.' :: ds.drop n.toNat
  else if -6 < n ∧ n ≤ 0 then '0' :: '.' :: (List.replicate (-n).toNat '0' ++ ds)
  else ds.take 1 ++ (if ds.length = 1 then [] else '.' :: ds.drop 1) ++
    'e' :: (if n ≤ 0 then '-' else '+') :: decimal (n-1).natAbs

def magnitudeText (x : ℚ) : List Char :=
  if x = 0 then ['0'] else
  let (m,e) := shortest x
  let (ds,z) := stripZeros (decimal m)
  placed ds (ds.length + z + e)

/-- `Number::toString`; both zeros are printed alike. -/
def numberText : Binary64 → List Char
  | .finite neg mag => if neg && decide (mag ≠ 0) then '-' :: magnitudeText mag
    else magnitudeText mag
  | .inf neg => if neg then "-Infinity".toList else "Infinity".toList
  | .nan => "NaN".toList

section Naturals

lemma nat_of_nearest {m n : ℕ} (hn : n < 2^53) (h : nearest (m : ℚ) = some (n : ℚ)) : m = n := by
  by_cases hm : m < 2^53
  · rw [nearest_natCast hm] at h
    exact_mod_cast Option.some.inj h
  · have hwide : ((2^53 : ℕ) : ℚ) ≤ m := by exact_mod_cast not_lt.mp hm
    have hle := natCast_le_rounded le_rfl (le_trans (by norm_num) hwide) hwide
    rw [← eq_rounded h] at hle
    have : 2^53 ≤ n := by exact_mod_cast hle
    omega

/-- What a candidate rounds to. -/
lemma nearest_candidate {x : ℚ} {digits m : ℕ} {e : ℤ} (h : candidate x digits = some (m,e)) :
    nearest (m*10^e) = some x ∧ e = scale x digits := by
  simp only [candidate] at h
  split_ifs at h with hlo hhi
  · obtain ⟨rfl,rfl⟩ := by simpa using h
    rw [Bool.and_eq_true,decide_eq_true_eq] at hlo
    exact ⟨hlo.1,rfl⟩
  · obtain ⟨rfl,rfl⟩ := by simpa using h
    exact ⟨by simpa using hhi,rfl⟩

/-- A natural has a candidate with all of its digits. -/
lemma candidate_whole {n : ℕ} (hn : n < 2^53) {digits : ℕ} (h : scale n digits = 0) :
    candidate n digits = some (n,0) := by
  simp [candidate,h,nearest_natCast hn]

/-- The shortest decimal of a natural is the natural, without some of its zeros. -/
lemma shortest_natCast {n : ℕ} (hpos : 0 < n) (hn : n < 2^53) :
    ∃ m k : ℕ, shortest n = (m,(k : ℤ)) ∧ m*10^k = n := by
  have hlog : Int.log 10 (n : ℚ) = Nat.log 10 n := Int.log_natCast 10 n
  have hsmall : Nat.log 10 n < 16 := by
    apply Nat.log_lt_of_lt_pow hpos.ne'
    exact hn.trans (by norm_num)
  have hscale : scale n (Nat.log 10 n + 1) = 0 := by
    rw [scale,hlog]
    push_cast
    ring
  have hwhole := candidate_whole hn hscale
  have hsome : ((List.range 17).findSome? (fun d => candidate n (d+1))).isSome := by
    rw [List.findSome?_isSome_iff]
    exact ⟨Nat.log 10 n,by simp; omega,by rw [hwhole]; rfl⟩
  obtain ⟨⟨m,e⟩,hfound⟩ := Option.isSome_iff_exists.mp hsome
  obtain ⟨before,d,rest,hrange,hd,hnone⟩ := List.findSome?_eq_some_iff.mp hfound
  obtain ⟨hnear,he⟩ := nearest_candidate hd
  -- the search stops at the last digit of the natural at the latest
  have hfirst : d ≤ Nat.log 10 n := by
    by_contra hlate
    have hlen : before.length < 17 := by
      have := congrArg List.length hrange
      simp only [List.length_range,List.length_append,List.length_cons] at this
      omega
    have hget : d = before.length := by
      have := congrArg (fun l : List ℕ => l[before.length]?) hrange
      simpa [hlen] using this.symm
    have hin : Nat.log 10 n ∈ before := by
      have htake := congrArg (List.take before.length) hrange
      rw [List.take_left] at htake
      rw [← htake,List.mem_take_iff_getElem]
      exact ⟨Nat.log 10 n,by simp; omega,by simp⟩
    rw [hnone _ hin] at hwhole
    cases hwhole
  have hnonneg : 0 ≤ e := by
    rw [he,scale,hlog]
    push_cast
    omega
  obtain ⟨k,rfl⟩ := Int.eq_ofNat_of_zero_le hnonneg
  refine ⟨m,k,?_,?_⟩
  · rw [shortest,hfound]
    rfl
  · apply nat_of_nearest hn
    rw [← hnear,zpow_natCast]
    push_cast
    rfl

lemma decimal_mul_pow {m : ℕ} (hm : 0 < m) (k : ℕ) :
    decimal (m*10^k) = decimal m ++ List.replicate k '0' := by
  have hne : m*10^k ≠ 0 := by positivity
  rw [decimal,if_neg hne,decimal,if_neg hm.ne',mul_comm,
    Nat.digits_base_pow_mul (by norm_num) hm,List.reverse_append,List.map_append,
    List.reverse_replicate,List.map_replicate]
  rfl

lemma length_decimal_le {n k : ℕ} (hk : 0 < k) (h : n < 10^k) : (decimal n).length ≤ k := by
  unfold decimal
  split_ifs with hzero
  · exact hk
  · rw [List.length_map,List.length_reverse]
    exact (Nat.digits_length_le_iff (by norm_num) n).mpr h

/-- A natural below `2^53` is printed as its digits. -/
theorem magnitudeText_natCast {n : ℕ} (hn : n < 2^53) : magnitudeText n = decimal n := by
  rcases Nat.eq_zero_or_pos n with rfl | hpos
  · rfl
  obtain ⟨m,k,hshort,hvalue⟩ := shortest_natCast hpos hn
  have hm : 0 < m := by
    rcases Nat.eq_zero_or_pos m with rfl | hm
    · omega
    · exact hm
  have hzeros := stripZeros_append (decimal m)
  have hlength : (decimal n).length ≤ 16 := length_decimal_le (by norm_num) (hn.trans (by norm_num))
  have htext : decimal n = (stripZeros (decimal m)).1 ++
      List.replicate ((stripZeros (decimal m)).2 + k) '0' := by
    rw [← hvalue,decimal_mul_pow hm,List.replicate_add,← List.append_assoc,hzeros]
  rw [magnitudeText,if_neg (by exact_mod_cast hpos.ne'),hshort]
  dsimp only
  rw [htext,List.length_append,List.length_replicate] at hlength
  rw [placed,if_pos ⟨by omega,by omega⟩,htext]
  congr 2
  omega

end Naturals

section Reading

/-- Only whole numbers up to twenty-one digits are printed as digits. -/
lemma placed_digits {ds : List Char} {n : ℤ} (h : ∀ c ∈ placed ds n, isDigit c = true) :
    (ds.length : ℤ) ≤ n ∧ placed ds n = ds ++ List.replicate (n - ds.length).toNat '0' := by
  have hmark : ∀ c, isDigit c = false → c ∉ placed ds n := by
    intro c hc hin
    rw [h c hin] at hc
    cases hc
  by_cases hwhole : (ds.length : ℤ) ≤ n ∧ n ≤ 21
  · exact ⟨hwhole.1,if_pos hwhole⟩
  · rw [placed,if_neg hwhole] at hmark
    by_cases hinside : 0 < n ∧ n ≤ 21
    · rw [if_pos hinside] at hmark
      exact absurd (by simp) (hmark '.' rfl)
    rw [if_neg hinside] at hmark
    by_cases hbelow : -6 < n ∧ n ≤ 0
    · rw [if_pos hbelow] at hmark
      exact absurd (by simp) (hmark '.' rfl)
    · rw [if_neg hbelow] at hmark
      exact absurd (by simp) (hmark 'e' rfl)

/-- A number and a natural below `2^53` are not closer than one part in `10^16`. -/
lemma eq_of_close {x : ℚ} {n : ℕ} (hx : nearest x = some x) (hn : n < 2^53) (hle : (n : ℚ) ≤ x)
    (hclose : x - n < x/10^16) : x = n := by
  have hnq : (n : ℚ) + 1 ≤ 2^53 := by exact_mod_cast hn
  have hone : 1 ≤ x := by
    rcases Nat.eq_zero_or_pos n with rfl | hpos
    · norm_num at hclose hle
      linarith
    · exact le_trans (by exact_mod_cast hpos) hle
  obtain ⟨k,hlog,hlo,hhi⟩ := log_of_one_le hone
  have hk : k ≤ 52 := by
    by_contra hc
    have hwide : (2 : ℚ)^53 ≤ 2^k := pow_le_pow_right₀ (by norm_num) (by omega)
    norm_num at hwide hclose hnq
    linarith
  have hulp := ulp_of_log hlog
  have hgridx : (roundHalfEven (x / ulp x) : ℚ)*ulp x = x := (eq_rounded hx).symm
  have hgridn : ((n*2^(52-k) : ℕ) : ℚ)*ulp x = n := by
    have hunit : (2 : ℚ)^(52-k)*2^((k : ℤ) - 52) = 1 := by
      rw [two_pow_mul,show (k : ℤ) + (52-k : ℕ) - 52 = 0 by omega,zpow_zero]
    push_cast
    rw [hulp,mul_assoc,hunit,mul_one]
  have hupper : x/10^16 < ulp x := by
    have hsplit : (2 : ℚ)^(k+1) = 2^53*ulp x := by rw [hulp,high_mantissa_mul]
    rw [hsplit] at hhi
    have hpos := ulp_pos x
    norm_num at hhi ⊢
    linarith
  set z := roundHalfEven (x / ulp x)
  have hlower : ((n*2^(52-k) : ℕ) : ℤ) ≤ z := by
    have : ((n*2^(52-k) : ℕ) : ℚ) ≤ z := by
      by_contra hc
      have := mul_lt_mul_of_pos_right (not_le.mp hc) (ulp_pos x)
      linarith
    exact_mod_cast this
  have hstep : z < ((n*2^(52-k) : ℕ) : ℤ) + 1 := by
    have : (z : ℚ) < ((n*2^(52-k) : ℕ) : ℚ) + 1 := by
      by_contra hc
      have := mul_le_mul_of_nonneg_right (not_lt.mp hc) (ulp_pos x).le
      rw [add_mul,one_mul] at this
      linarith
    exact_mod_cast this
  have hz : z = ((n*2^(52-k) : ℕ) : ℤ) := by omega
  rw [← hgridx,hz,Int.cast_natCast,hgridn]

/-- A number that is printed as the digits of a natural below `2^53` is that natural. -/
theorem eq_of_magnitudeText {x : ℚ} {n : ℕ} (hx : nearest x = some x) (h0 : 0 ≤ x) (hn : n < 2^53)
    (h : magnitudeText x = decimal n) : x = n := by
  rw [magnitudeText] at h
  split_ifs at h with hzero
  · rw [hzero,← decimal_injective (show decimal 0 = decimal n from h)]
    rfl
  have hpos : 0 < x := lt_of_le_of_ne h0 (Ne.symm hzero)
  rcases hshort : shortest x with ⟨m,e⟩
  rw [hshort] at h
  dsimp only at h
  have hzeros := stripZeros_append (decimal m)
  generalize hds : (stripZeros (decimal m)).1 = ds at h hzeros
  generalize hz : (stripZeros (decimal m)).2 = z at h hzeros
  have hprinted : ∀ c ∈ placed ds (ds.length + z + e), isDigit c = true := by
    intro c hc
    rw [h] at hc
    exact isDigit_of_mem_decimal hc
  obtain ⟨hwhole,htext⟩ := placed_digits hprinted
  obtain ⟨k,hk⟩ := Int.eq_ofNat_of_zero_le (show 0 ≤ z + e by omega)
  rw [htext,show ((ds.length : ℤ) + z + e - ds.length).toNat = k by omega] at h
  have hdigits : digitsValue ds*10^z = m := by
    rw [← digitsValue_decimal m,← hzeros,digitsValue_append,digitsValue_zeros,
      List.length_replicate,add_zero]
  have hnat : digitsValue ds*10^k = n := by
    rw [← digitsValue_decimal n,← h,digitsValue_append,digitsValue_zeros,List.length_replicate,
      add_zero]
  have hvalue : (m : ℚ)*10^e = n := by
    rw [← hdigits,← hnat]
    push_cast
    rw [mul_assoc,← zpow_natCast,← zpow_natCast,← zpow_add₀ (by norm_num),hk]
  rw [shortest] at hshort
  cases hfound : (List.range 17).findSome? (fun d => candidate x (d+1)) with
  | some found =>
    rw [hfound] at hshort
    obtain rfl : found = (m,e) := hshort
    obtain ⟨d,-,hd⟩ := List.exists_of_findSome?_eq_some hfound
    have hnear := (nearest_candidate hd).1
    rw [hvalue,nearest_natCast hn] at hnear
    exact (Option.some.inj hnear).symm
  | none =>
    rw [hfound] at hshort
    obtain ⟨rfl,rfl⟩ : ⌊x / 10^(scale x 17)⌋₊ = m ∧ scale x 17 = e := by simpa using hshort
    have hunit : (0 : ℚ) < 10^(scale x 17) := zpow_pos (by norm_num) _
    have hfloor := Nat.floor_le (div_nonneg h0 hunit.le)
    have hnext := Nat.lt_floor_add_one (x / 10^(scale x 17))
    rw [le_div_iff₀ hunit,hvalue] at hfloor
    rw [div_lt_iff₀ hunit,add_mul,one_mul,hvalue] at hnext
    refine eq_of_close hx hn hfloor ?_
    have hlog : (10 : ℚ)^(scale x 17)*10^16 ≤ x := by
      have h := Int.zpow_log_le_self (b := 10) (by norm_num) hpos
      rw [show (10 : ℚ)^16 = 10^(16 : ℤ) by norm_num,← zpow_add₀ (by norm_num),scale]
      norm_num at h ⊢
      exact h
    have hbound : (10 : ℚ)^(scale x 17) ≤ x/10^16 := by
      rw [le_div_iff₀ (by norm_num)]
      exact hlog
    linarith

end Reading

end Kswarm.Binary64
