import Kswarm.Lib.Binary64
import Mathlib.Data.Nat.Cast.Order.Field

/-! How far binary64 rounding moves a value: by half a spacing, by nothing for a natural below
`2^53` and its halves, and never past an integer that is a number itself. -/
namespace Kswarm.Binary64

/-- The value that `nearest` rounds to while it is finite. -/
def rounded (x : ℚ) : ℚ := roundHalfEven (x / ulp x) * ulp x

lemma nearest_of_lt {x : ℚ} (h : rounded x < 2^1024) : nearest x = some (rounded x) := if_pos h

lemma eq_rounded {x v : ℚ} (h : nearest x = some v) : v = rounded x := by
  by_cases hlt : rounded x < 2^1024
  · rw [nearest_of_lt hlt] at h
    exact (Option.some.inj h).symm
  · exact absurd ((if_neg hlt).symm.trans h) (by simp)

lemma ulp_pos (x : ℚ) : 0 < ulp x := zpow_pos (by norm_num) _

lemma abs_roundHalfEven_sub_le (x : ℚ) : |(roundHalfEven x : ℚ) - x| ≤ 1/2 := by
  have hlo := Int.floor_le x
  have hhi := Int.lt_floor_add_one x
  simp only [roundHalfEven]
  rw [abs_le]
  split_ifs with h1 h2 h3
  · constructor <;> linarith
  · push_cast
    constructor <;> linarith
  · constructor <;> linarith
  · push_cast
    constructor <;> linarith

lemma roundHalfEven_intCast (k : ℤ) : roundHalfEven k = k :=
  le_antisymm (roundHalfEven_le le_rfl) (le_roundHalfEven le_rfl)

lemma abs_rounded_sub_le (x : ℚ) : |rounded x - x| ≤ ulp x / 2 := by
  have hpos := ulp_pos x
  have hscale : rounded x - x = (roundHalfEven (x / ulp x) - x / ulp x)*ulp x := by
    rw [sub_mul,div_mul_cancel₀ x hpos.ne']
    rfl
  rw [hscale,abs_mul,abs_of_pos hpos]
  have h := mul_le_mul_of_nonneg_right (abs_roundHalfEven_sub_le (x / ulp x)) hpos.le
  linarith

/-- A multiple of the spacing is kept. -/
lemma rounded_of_grid {x : ℚ} {z : ℤ} (h : x = z*ulp x) : rounded x = x := by
  have hdiv : x / ulp x = z := by
    rw [div_eq_iff (ulp_pos x).ne']
    exact h
  rw [rounded,hdiv,roundHalfEven_intCast]
  exact h.symm

/-- The spacing in a normal binade. -/
lemma ulp_of_bounds {x : ℚ} {k : ℤ} (hk : -1022 ≤ k) (hlo : (2 : ℚ)^k ≤ x) (hhi : x < 2^(k+1)) :
    ulp x = 2^(k-52) := by
  have hx : 0 < x := lt_of_lt_of_le (zpow_pos (by norm_num) k) hlo
  have hge : k ≤ Int.log 2 x := (Int.zpow_le_iff_le_log (by norm_num) hx).mp (by exact_mod_cast hlo)
  have hlt : Int.log 2 x < k+1 := (Int.lt_zpow_iff_log_lt (by norm_num) hx).mp (by exact_mod_cast hhi)
  rw [ulp,show Int.log 2 x = k by omega,max_eq_left (by omega)]

lemma rounded_error {x : ℚ} (h : 1 ≤ x) : |rounded x - x| ≤ x*2^(-53 : ℤ) := by
  obtain ⟨k,hlog,hlo,-⟩ := log_of_one_le h
  have hhalf : ulp x / 2 = 2^k*2^(-53 : ℤ) := by
    rw [ulp_of_log hlog,sub_eq_add_neg,zpow_add₀ (by norm_num),zpow_natCast]
    norm_num
    ring
  refine (abs_rounded_sub_le x).trans ?_
  rw [hhalf]
  exact mul_le_mul_of_nonneg_right hlo (by positivity)

/-- Below one the spacing is at most `2^-53`. -/
lemma rounded_error_of_lt_one {x : ℚ} (h0 : 0 < x) (h1 : x < 1) :
    |rounded x - x| ≤ 2^(-54 : ℤ) := by
  have hlog : Int.log 2 x < 0 :=
    (Int.lt_zpow_iff_log_lt (by norm_num) h0).mp (by simpa using h1)
  have hulp : ulp x ≤ 2^(-53 : ℤ) := zpow_le_zpow_right₀ (by norm_num) (by omega)
  have h53 : (2 : ℚ)^(-53 : ℤ) / 2 = 2^(-54 : ℤ) := by norm_num
  refine (abs_rounded_sub_le x).trans ?_
  rw [← h53]
  exact div_le_div_of_nonneg_right hulp (by norm_num)

/-- A natural up to `2^53` stays a lower bound. -/
lemma natCast_le_rounded {x : ℚ} {j : ℕ} (hj : j ≤ 2^53) (h1 : 1 ≤ x) (h : j ≤ x) :
    (j : ℚ) ≤ rounded x := by
  obtain ⟨k,hlog,hlo,hhi⟩ := log_of_one_le h1
  by_cases hk : k ≤ 52
  · have hulp := ulp_of_log hlog
    have hgrid : ((j*2^(52-k) : ℕ) : ℚ)*ulp x = j := by
      have hone : (2 : ℚ)^(52-k)*2^((k : ℤ) - 52) = 1 := by
        rw [two_pow_mul,show (k : ℤ) + (52-k : ℕ) - 52 = 0 by omega,zpow_zero]
      push_cast
      rw [hulp,mul_assoc,hone,mul_one]
    have hle : ((j*2^(52-k) : ℕ) : ℤ) ≤ roundHalfEven (x / ulp x) := by
      refine le_roundHalfEven ?_
      rw [le_div_iff₀ (ulp_pos x),Int.cast_natCast,hgrid]
      exact h
    calc (j : ℚ) = ((j*2^(52-k) : ℕ) : ℚ)*ulp x := hgrid.symm
      _ ≤ roundHalfEven (x / ulp x)*ulp x :=
        mul_le_mul_of_nonneg_right (by exact_mod_cast hle) (ulp_pos x).le
  · -- the rounded value keeps the leading power of two, which is `2^53` at least
    have hwide : (2 : ℚ)^53 ≤ 2^k := pow_le_pow_right₀ (by norm_num) (by omega)
    have hjq : (j : ℚ) ≤ 2^53 := by exact_mod_cast hj
    exact hjq.trans (hwide.trans (rounded_bounds hlog hlo hhi).1)

/-- A natural below `2^53`, divided by a power of two, is a number. -/
theorem nearest_dyadic {n s : ℕ} (hn : n < 2^53) (hs : s ≤ 1022) :
    nearest (n / 2^s) = some ((n : ℚ) / 2^s) := by
  rcases Nat.eq_zero_or_pos n with rfl | hpos
  · simpa using nearest_zero
  obtain ⟨k,-,hlo,hhi⟩ := log_of_one_le (x := n) (by exact_mod_cast hpos)
  have hk : k ≤ 52 := by
    by_contra hc
    have hwide : 2^53 ≤ 2^k := Nat.pow_le_pow_right (by norm_num) (by omega)
    have hle : 2^k ≤ n := by exact_mod_cast hlo
    omega
  have hpow : (0 : ℚ) < 2^s := by positivity
  have hshift : ∀ m : ℕ, (2 : ℚ)^((m : ℤ) - s) = 2^m / 2^s := by
    intro m
    rw [zpow_sub₀ (by norm_num),zpow_natCast,zpow_natCast]
  have hulp : ulp ((n : ℚ) / 2^s) = 2^((k : ℤ) - s - 52) := by
    refine ulp_of_bounds (by omega) ?_ ?_
    · rw [hshift]
      exact div_le_div_of_nonneg_right hlo hpow.le
    · rw [show (k : ℤ) - s + 1 = ((k+1 : ℕ) : ℤ) - s by push_cast; ring,hshift]
      exact div_lt_div_of_pos_right hhi hpow
  have hgrid : (n : ℚ) / 2^s = ((n*2^(52-k) : ℕ) : ℤ)*ulp ((n : ℚ) / 2^s) := by
    have hinv : (2 : ℚ)^(52-k)*2^((k : ℤ) - s - 52) = (2^s)⁻¹ := by
      rw [← zpow_natCast,← zpow_add₀ (by norm_num),← zpow_natCast,← zpow_neg]
      congr 1
      omega
    rw [hulp,Int.cast_natCast]
    push_cast
    rw [mul_assoc,hinv,div_eq_mul_inv]
  have hround := rounded_of_grid hgrid
  have hlt : rounded ((n : ℚ) / 2^s) < 2^1024 := by
    rw [hround]
    have hone : (1 : ℚ) ≤ 2^s := one_le_pow₀ (by norm_num)
    have hnq : (n : ℚ) < 2^53 := by exact_mod_cast hn
    have hwide : (2 : ℚ)^53 ≤ 2^1024 := pow_le_pow_right₀ (by norm_num) (by norm_num)
    exact (div_le_self (Nat.cast_nonneg n) hone).trans_lt (hnq.trans_le hwide)
  rw [nearest_of_lt hlt,hround]

lemma nearest_natCast {n : ℕ} (h : n < 2^53) : nearest n = some (n : ℚ) := by
  simpa using nearest_dyadic (s := 0) h (by norm_num)

lemma nearest_half {n : ℕ} (h : n < 2^53) : nearest (n / 2) = some ((n : ℚ) / 2) := by
  simpa using nearest_dyadic (s := 1) h (by norm_num)

/-- A quotient of naturals below `2^53` is rounded by less than one part in the divisor. -/
lemma rounded_div_lt {x n : ℕ} (hx : x < 2^53) (hn : 0 < n) (hn' : n < 2^53) (hpos : 0 < x) :
    rounded ((x : ℚ) / n) < x / n + 1/n := by
  have hnq : (0 : ℚ) < n := by exact_mod_cast hn
  have hxq : (x : ℚ) < 2^53 := by exact_mod_cast hx
  have hnq' : (n : ℚ) < 2^53 := by exact_mod_cast hn'
  have hscale : ∀ a : ℚ, a < 2^53 → a*2^(-53 : ℤ) < 1 := by
    intro a ha
    rw [zpow_neg,mul_inv_lt_iff₀ (by positivity),one_mul]
    exact_mod_cast ha
  by_cases hone : (1 : ℚ) ≤ x / n
  · have herr := (abs_le.mp (rounded_error hone)).2
    have hsmall : (x : ℚ) / n*2^(-53 : ℤ) < 1/n := by
      rw [div_mul_eq_mul_div]
      exact div_lt_div_of_pos_right (hscale x hxq) hnq
    linarith
  · have hyq : (0 : ℚ) < x / n := div_pos (by exact_mod_cast hpos) hnq
    have herr := (abs_le.mp (rounded_error_of_lt_one hyq (not_le.mp hone))).2
    have hsmall : (2 : ℚ)^(-53 : ℤ) < 1/n := by
      rw [lt_div_iff₀ hnq,mul_comm]
      exact hscale n hnq'
    have hhalf : (2 : ℚ)^(-54 : ℤ) ≤ 2^(-53 : ℤ) := zpow_le_zpow_right₀ (by norm_num) (by norm_num)
    linarith

/-- The floor of a rounded quotient of naturals below `2^53` is the integer quotient. -/
theorem floor_nearest_div {x n : ℕ} (hx : x < 2^53) (hn : 0 < n) (hn' : n < 2^53) :
    ∃ v, nearest ((x : ℚ) / n) = some v ∧ ⌊v⌋₊ = x / n := by
  rcases Nat.eq_zero_or_pos x with rfl | hpos
  · exact ⟨0,by simpa using nearest_zero,by simp⟩
  have hnq : (0 : ℚ) < n := by exact_mod_cast hn
  have hround := rounded_div_lt hx hn hn' hpos
  have hceil : (x : ℚ) / n + 1/n ≤ (x / n : ℕ) + 1 := by
    rw [← add_div,div_le_iff₀ hnq]
    have h : x + 1 ≤ (x / n + 1)*n := by
      rw [mul_comm]
      exact Nat.lt_mul_div_succ x hn
    exact_mod_cast h
  have hhi : rounded ((x : ℚ) / n) < (x / n : ℕ) + 1 := hround.trans_le hceil
  have hlo : ((x / n : ℕ) : ℚ) ≤ rounded ((x : ℚ) / n) ∨ x / n = 0 := by
    by_cases hlt : x < n
    · exact .inr (Nat.div_eq_of_lt hlt)
    · refine .inl (natCast_le_rounded ((Nat.div_le_self x n).trans hx.le) ?_ Nat.cast_div_le)
      rw [one_le_div hnq]
      exact_mod_cast not_lt.mp hlt
  have hfinite : rounded ((x : ℚ) / n) < 2^1024 := by
    have hq : ((x / n : ℕ) : ℚ) + 1 ≤ 2^53 := by
      have h : x / n + 1 ≤ 2^53 := (Nat.div_le_self x n).trans_lt hx
      exact_mod_cast h
    exact hhi.trans_le (hq.trans (pow_le_pow_right₀ (by norm_num) (by norm_num)))
  refine ⟨_,nearest_of_lt hfinite,?_⟩
  rcases hlo with hlo | hzero
  · exact (Nat.floor_eq_iff ((Nat.cast_nonneg _).trans hlo)).mpr ⟨hlo,hhi⟩
  · rw [hzero,Nat.floor_eq_zero]
    rw [hzero,Nat.cast_zero,zero_add] at hhi
    exact hhi

end Kswarm.Binary64
