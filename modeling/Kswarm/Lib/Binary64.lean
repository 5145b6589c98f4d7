import Kswarm.Lib.Decimal
import Mathlib.Data.Int.Log
import Mathlib.Data.Rat.Floor
import Mathlib.Data.NNRat.Defs
import Mathlib.Tactic.Ring
import Mathlib.Tactic.Linarith
import Mathlib.Tactic.NormNum

/-! Binary64 numbers by value: nearest-even rounding from a decimal, the shortest decimal that
rounds back, and the text it is printed as. A finite number is a sign and an exact magnitude. -/
namespace Kswarm

inductive Binary64 where
  | finite (neg : Bool) (mag : ℚ≥0)
  | inf (neg : Bool)
  | nan
  deriving DecidableEq

namespace Binary64

/-- Nearest integer, ties to even. -/
def roundHalfEven (x : ℚ) : ℤ :=
  let f := ⌊x⌋
  if x - f < 1/2 then f else if 1/2 < x - f then f+1 else if f % 2 = 0 then f else f+1

/-- Spacing of the binary64 numbers around `x`: 53 significant bits, down to the subnormals. -/
def ulp (x : ℚ) : ℚ := 2^(max (Int.log 2 x - 52) (-1074))

/-- The binary64 magnitude nearest to `x`; none past the largest finite one. -/
def nearest (x : ℚ) : Option ℚ :=
  let v := roundHalfEven (x / ulp x) * ulp x
  if v < 2^(1024 : ℕ) then some v else none

/-- The number `(-1)^neg * m * 10^e` as a binary64 number. -/
def ofDecimal (neg : Bool) (m : ℕ) (e : ℤ) : Binary64 :=
  match nearest (m * 10^e) with
  | some v => .finite neg v.toNNRat
  | none => .inf neg

/-- The exponent at which `x` has `digits` significant decimal digits. -/
def scale (x : ℚ) (digits : ℕ) : ℤ := Int.log 10 x - (digits - 1 : ℤ)

/-- The closest decimal of `digits` digits that rounds to `x`, if there is one. Only the two
neighbours of `x` can be closest. -/
def candidate (x : ℚ) (digits : ℕ) : Option (ℕ × ℤ) :=
  let e := scale x digits
  let y := x / 10^e
  let lo := ⌊y⌋₊
  let below := decide (y - lo < 1/2 ∨ (y - lo = 1/2 ∧ lo % 2 = 0))
  let okLo := decide (nearest (lo * 10^e) = some x)
  let okHi := decide (nearest ((lo+1 : ℕ) * 10^e) = some x)
  if okLo && (below || !okHi) then some (lo,e)
  else if okHi then some (lo+1,e)
  else none

/-- The shortest decimal `m * 10^e` that rounds to `x`; seventeen digits always suffice. -/
def shortest (x : ℚ) : ℕ × ℤ :=
  ((List.range 17).findSome? (fun d => candidate x (d+1))).getD
    (⌊x / 10^(scale x 17)⌋₊,scale x 17)

/-- The decimal a finite magnitude is printed as. -/
def decimalOf (x : ℚ) : ℕ × ℤ := if x = 0 then (0,0) else shortest x

/-- Remove trailing zeros of a digit string, counting them. -/
def stripZeros : List Char → List Char × ℕ
  | [] => ([],0)
  | c::cs =>
    let (ds,k) := stripZeros cs
    if ds = [] ∧ c = '0' then ([],k+1) else (c::ds,k)

/-- Positional text while the point stays within sixteen digits, scientific text otherwise. -/
def textOf (m : ℕ) (e : ℤ) : List Char :=
  if m = 0 then ['0','.','0'] else
  let (ds,k) := stripZeros (decimal m)
  let point := (ds.length : ℤ) + k + e
  if -4 < point ∧ point ≤ 16 then
    if point ≤ 0 then ['0','.'] ++ List.replicate (-point).toNat '0' ++ ds
    else if (ds.length : ℤ) ≤ point then
      ds ++ List.replicate (point - ds.length).toNat '0' ++ ['.','0']
    else ds.take point.toNat ++ ['.'] ++ ds.drop point.toNat
  else
    let x := point - 1
    ds.take 1 ++ (if ds.length = 1 then [] else '.' :: ds.drop 1) ++ ['e'] ++
      (if x < 0 then ['-'] else ['+']) ++
      (if x.natAbs < 10 then '0' :: decimal x.natAbs else decimal x.natAbs)

/-- The printed form, with the names a lax JSON writer gives the non-finite numbers. -/
def text : Binary64 → List Char
  | .finite neg mag =>
    let d := decimalOf mag
    (if neg then ['-'] else []) ++ textOf d.1 d.2
  | .inf false => "Infinity".toList
  | .inf true => "-Infinity".toList
  | .nan => "NaN".toList

def isFinite : Binary64 → Bool
  | .finite _ _ => true
  | _ => false

section Bounds

lemma log_lt_zero {x : ℚ} (h0 : 0 < x) (h1 : x < 1) : Int.log 10 x < 0 := by
  by_contra hn
  have hle : (10 : ℚ)^(0 : ℤ) ≤ 10^(Int.log 10 x) :=
    zpow_le_zpow_right₀ (by norm_num) (not_lt.mp hn)
  have hlog : ((10 : ℕ) : ℚ)^(Int.log 10 x) ≤ x := Int.zpow_log_le_self (by norm_num) h0
  push_cast at hlog
  rw [zpow_zero] at hle
  linarith

/-- Below one, no decimal of `digits` digits around `x` passes one. -/
lemma neighbour_le_one {x : ℚ} (h0 : 0 < x) (h1 : x < 1) (digits : ℕ) {m : ℕ}
    (hm : m ≤ ⌊x / 10^(scale x digits)⌋₊ + 1) : (m : ℚ)*10^(scale x digits) ≤ 1 := by
  have hlog := log_lt_zero h0 h1
  have hx : x < 10^(Int.log 10 x + 1) := by
    have h := Int.lt_zpow_succ_log_self (b := 10) (by norm_num) x
    exact_mod_cast h
  have hpos : (0 : ℚ) < 10^(scale x digits) := zpow_pos (by norm_num) _
  have hsum : (10 : ℚ)^(Int.log 10 x + 1) = 10^digits*10^(scale x digits) := by
    rw [← zpow_natCast,← zpow_add₀ (by norm_num : (10 : ℚ) ≠ 0),scale]
    congr 1
    ring
  have hy : x / 10^(scale x digits) < ((10^digits : ℕ) : ℚ) := by
    rw [div_lt_iff₀ hpos]
    push_cast
    rwa [← hsum]
  have hfloor : ⌊x / 10^(scale x digits)⌋₊ < 10^digits :=
    (Nat.floor_lt (div_nonneg h0.le hpos.le)).mpr hy
  have hle : (m : ℚ) ≤ 10^digits := by exact_mod_cast (hm.trans hfloor)
  calc (m : ℚ)*10^(scale x digits) ≤ 10^digits*10^(scale x digits) :=
        mul_le_mul_of_nonneg_right hle hpos.le
    _ = 10^(Int.log 10 x + 1) := hsum.symm
    _ ≤ 10^(0 : ℤ) := zpow_le_zpow_right₀ (by norm_num) (by omega)
    _ = 1 := zpow_zero _

lemma candidate_le_one {x : ℚ} (h0 : 0 < x) (h1 : x < 1) {digits : ℕ} {p : ℕ × ℤ}
    (h : candidate x digits = some p) : (p.1 : ℚ)*10^p.2 ≤ 1 := by
  simp only [candidate] at h
  split_ifs at h
  · obtain rfl := Option.some.inj h
    exact neighbour_le_one h0 h1 digits (Nat.le_succ _)
  · obtain rfl := Option.some.inj h
    exact neighbour_le_one h0 h1 digits le_rfl

lemma nearest_one : nearest 1 = some 1 := by
  have hulp : ulp 1 = 2^(-52 : ℤ) := by
    rw [ulp,Int.log_one_right]
    norm_num
  have hround : roundHalfEven (1 / ulp 1) = 2^52 := by
    rw [hulp]
    norm_num [roundHalfEven]
  have hvalue : ((2^52 : ℤ) : ℚ)*2^(-52 : ℤ) = 1 := by norm_num
  have hlt : (1 : ℚ) < 2^(1024 : ℕ) := one_lt_pow₀ (by norm_num) (by norm_num)
  simp only [nearest]
  rw [hround,hulp,hvalue,if_pos hlt]

lemma shortest_one : shortest 1 = (1,0) := by
  have hscale : scale 1 1 = 0 := by
    rw [scale,Int.log_one_right]
    norm_num
  have hc : candidate 1 (0+1) = some (1,0) := by
    norm_num [candidate,hscale,nearest_one]
  rw [shortest,show List.range 17 = 0 :: (List.range 16).map Nat.succ by decide,
    List.findSome?_cons,hc]
  rfl

/-- A magnitude in the unit interval is printed as a decimal in the unit interval. -/
theorem decimalOf_le_one {x : ℚ} (h0 : 0 ≤ x) (h1 : x ≤ 1) :
    ((decimalOf x).1 : ℚ)*10^(decimalOf x).2 ≤ 1 := by
  unfold decimalOf
  split_ifs with hz
  · norm_num
  · have hpos := lt_of_le_of_ne h0 (Ne.symm hz)
    cases h1.lt_or_eq with
    | inr he =>
      rw [he,shortest_one]
      norm_num
    | inl hlt =>
      unfold shortest
      cases hf : (List.range 17).findSome? (fun d => candidate x (d+1)) with
      | none => exact neighbour_le_one hpos hlt 17 (Nat.le_succ _)
      | some p =>
        obtain ⟨d,-,hd⟩ := List.exists_of_findSome?_eq_some hf
        exact candidate_le_one hpos hlt hd

end Bounds

section Overflow

lemma le_roundHalfEven {x : ℚ} {k : ℤ} (h : (k : ℚ) ≤ x) : k ≤ roundHalfEven x := by
  have hf : k ≤ ⌊x⌋ := Int.le_floor.mpr h
  simp only [roundHalfEven]
  split_ifs <;> omega

lemma roundHalfEven_le {x : ℚ} {k : ℤ} (h : x ≤ k) : roundHalfEven x ≤ k := by
  have hfloor := Int.floor_le x
  have hf : ⌊x⌋ ≤ k := by exact_mod_cast hfloor.trans h
  by_cases he : ⌊x⌋ = k
  · have hx : x - ⌊x⌋ < 1/2 := by
      rw [he]
      linarith
    simp only [roundHalfEven]
    rw [if_pos hx]
    exact hf
  · simp only [roundHalfEven]
    split_ifs <;> omega

/-- A tie below an even number goes up to it. -/
lemma roundHalfEven_lt_iff {x : ℚ} {k : ℤ} (hk : k % 2 = 0) (h : x < k) :
    roundHalfEven x < k ↔ x < k - 1/2 := by
  have hf : ⌊x⌋ < k := Int.floor_lt.mpr h
  have hlt := Int.lt_floor_add_one x
  have hle := Int.floor_le x
  by_cases he : ⌊x⌋ = k-1
  · have hcast : (⌊x⌋ : ℚ) = k - 1 := by
      rw [he]
      push_cast
      rfl
    simp only [roundHalfEven]
    split_ifs with h1 h2 h3
    · exact iff_of_true hf (by linarith)
    · exact iff_of_false (by omega) (by linarith)
    · omega
    · exact iff_of_false (by omega) (by linarith)
  · have hsmall : ((⌊x⌋ + 2 : ℤ) : ℚ) ≤ k := by
      have hint : ⌊x⌋ + 2 ≤ k := by omega
      exact_mod_cast hint
    push_cast at hsmall
    refine iff_of_true ?_ (by linarith)
    simp only [roundHalfEven]
    split_ifs <;> omega

/-- From one on, the spacing is `2^-52` of the leading power of two. -/
lemma ulp_of_log {x : ℚ} {k : ℕ} (h : Int.log 2 x = k) : ulp x = 2^((k : ℤ) - 52) := by
  rw [ulp,h,max_eq_left (by omega)]

lemma log_of_one_le {x : ℚ} (h : 1 ≤ x) :
    ∃ k : ℕ, Int.log 2 x = k ∧ (2 : ℚ)^k ≤ x ∧ x < 2^(k+1) := by
  have hx : 0 < x := lt_of_lt_of_le one_pos h
  have hlo := Int.zpow_log_le_self (b := 2) (by norm_num) hx
  have hhi := Int.lt_zpow_succ_log_self (b := 2) (by norm_num) x
  have hnonneg : 0 ≤ Int.log 2 x := by
    rw [← Int.zpow_le_iff_le_log (by norm_num) hx]
    simpa using h
  obtain ⟨k,hk⟩ := Int.eq_ofNat_of_zero_le hnonneg
  rw [hk] at hlo hhi
  refine ⟨k,hk,?_,?_⟩
  · exact_mod_cast hlo
  · exact_mod_cast hhi

lemma two_pow_mul (m k : ℕ) : ((2 : ℚ)^m)*2^((k : ℤ) - 52) = 2^((k : ℤ) + m - 52) := by
  rw [← zpow_natCast,← zpow_add₀ (by norm_num : (2 : ℚ) ≠ 0)]
  congr 1
  ring

lemma low_mantissa_mul (k : ℕ) : (2 : ℚ)^52*2^((k : ℤ) - 52) = 2^k := by
  rw [two_pow_mul,← zpow_natCast]
  congr 1
  push_cast
  ring

lemma high_mantissa_mul (k : ℕ) : (2 : ℚ)^53*2^((k : ℤ) - 52) = 2^(k+1) := by
  rw [two_pow_mul,← zpow_natCast]
  congr 1
  push_cast
  ring

/-- A magnitude with leading power `2^k` in units of its spacing. -/
lemma scaled_bounds {x : ℚ} {k : ℕ} (hlo : (2 : ℚ)^k ≤ x) (hhi : x < 2^(k+1)) :
    (2^52 : ℚ) ≤ x / 2^((k : ℤ) - 52) ∧ x / 2^((k : ℤ) - 52) < 2^53 := by
  have hpos : (0 : ℚ) < 2^((k : ℤ) - 52) := zpow_pos (by norm_num) _
  constructor
  · rw [le_div_iff₀ hpos,low_mantissa_mul]
    exact hlo
  · rw [div_lt_iff₀ hpos,high_mantissa_mul]
    exact hhi

/-- The candidate value of a magnitude of at least one stays within its leading power of two and
the next. -/
lemma rounded_bounds {x : ℚ} {k : ℕ} (hlog : Int.log 2 x = k) (hlo : (2 : ℚ)^k ≤ x)
    (hhi : x < 2^(k+1)) :
    (2 : ℚ)^k ≤ roundHalfEven (x / ulp x)*ulp x ∧ roundHalfEven (x / ulp x)*ulp x ≤ 2^(k+1) := by
  obtain ⟨h52,h53⟩ := scaled_bounds hlo hhi
  have hpos : (0 : ℚ) < 2^((k : ℤ) - 52) := zpow_pos (by norm_num) _
  rw [ulp_of_log hlog]
  have hm : (2^52 : ℤ) ≤ roundHalfEven (x / 2^((k : ℤ) - 52)) :=
    le_roundHalfEven (by push_cast; exact h52)
  have hM : roundHalfEven (x / 2^((k : ℤ) - 52)) ≤ (2^53 : ℤ) :=
    roundHalfEven_le (by push_cast; exact h53.le)
  have hmq : ((2 : ℚ)^52) ≤ roundHalfEven (x / 2^((k : ℤ) - 52)) := by exact_mod_cast hm
  have hMq : (roundHalfEven (x / 2^((k : ℤ) - 52)) : ℚ) ≤ 2^53 := by exact_mod_cast hM
  constructor
  · calc (2 : ℚ)^k = 2^52*2^((k : ℤ) - 52) := (low_mantissa_mul k).symm
      _ ≤ _ := mul_le_mul_of_nonneg_right hmq hpos.le
  · calc _ ≤ (2 : ℚ)^53*2^((k : ℤ) - 52) := mul_le_mul_of_nonneg_right hMq hpos.le
      _ = 2^(k+1) := high_mantissa_mul k

/-- Between the last two powers of two the spacing is `2^971`, and the last half of it overflows. -/
lemma top_binade {x : ℚ} (hlog : Int.log 2 x = (1023 : ℕ)) (hlo : (2 : ℚ)^1023 ≤ x)
    (hhi : x < 2^1024) :
    roundHalfEven (x / ulp x)*ulp x < 2^1024 ↔ x < 2^1024 - 2^970 := by
  have hulp : ulp x = 2^971 := by
    rw [ulp_of_log hlog,← zpow_natCast]
    congr 1
  obtain ⟨-,h53⟩ := scaled_bounds hlo hhi
  rw [show ((1023 : ℕ) : ℤ) - 52 = (971 : ℕ) by norm_num,zpow_natCast] at h53
  have hpos : (0 : ℚ) < 2^971 := by positivity
  have htop : (2 : ℚ)^1024 = 2^53*2^971 := by rw [← pow_add]
  have hhalf : ((2 : ℚ)^53 - 1/2)*2^971 = 2^1024 - 2^970 := by
    have hdouble : (2 : ℚ)^971 = 2*2^970 := pow_succ' 2 970
    have hone : (1/2 : ℚ)*2^971 = 2^970 := by
      rw [hdouble]
      field_simp
    rw [sub_mul,hone,htop]
  have hround := roundHalfEven_lt_iff (x := x / 2^971) (k := 2^53) (by norm_num)
    (by push_cast; exact h53)
  rw [hulp,htop,mul_lt_mul_iff_left₀ hpos,← htop,← hhalf,← div_lt_iff₀ hpos]
  have hcast : ((roundHalfEven (x / 2^971) : ℤ) : ℚ) < 2^53 ↔ roundHalfEven (x / 2^971) < 2^53 := by
    exact_mod_cast Iff.rfl
  rw [hcast,hround]
  push_cast
  rfl

/-- Overflow starts half a spacing below `2^1024`. -/
theorem nearest_eq_none_iff {x : ℚ} (h : 1 ≤ x) : nearest x = none ↔ 2^1024 - 2^970 ≤ x := by
  obtain ⟨k,hlog,hlo,hhi⟩ := log_of_one_le h
  obtain ⟨hge,hle⟩ := rounded_bounds hlog hlo hhi
  have hnone : nearest x = none ↔ ¬roundHalfEven (x / ulp x)*ulp x < 2^1024 := by
    simp only [nearest]
    split_ifs with hv <;> simp [hv]
  have hmono : ∀ {m n : ℕ}, m ≤ n → (2 : ℚ)^m ≤ 2^n :=
    fun hmn => pow_le_pow_right₀ (by norm_num) hmn
  have hsmall : (2 : ℚ)^1023 ≤ 2^1024 - 2^970 := by
    have h1 : (2 : ℚ)^1024 = 2^1023*2 := pow_succ 2 1023
    have h2 : (2 : ℚ)^970 ≤ 2^1023 := hmono (by norm_num)
    rw [h1,le_sub_iff_add_le,mul_two]
    exact add_le_add_right h2 _
  have hpos : (0 : ℚ) < 2^970 := pow_pos (by norm_num) 970
  have hbelow : (2 : ℚ)^1024 - 2^970 < 2^1024 := sub_lt_self _ hpos
  rw [hnone]
  rcases lt_trichotomy k 1023 with hk | rfl | hk
  · have hb : (2 : ℚ)^(k+1) ≤ 2^1023 := hmono (by omega)
    have hx : x < 2^1024 - 2^970 := hhi.trans_le (hb.trans hsmall)
    have hv := (hle.trans hb).trans hsmall
    exact iff_of_false (not_not.mpr (hv.trans_lt hbelow)) (not_le.mpr hx)
  · rw [top_binade hlog hlo hhi,not_lt]
  · have hb : (2 : ℚ)^1024 ≤ 2^k := hmono (by omega)
    exact iff_of_true (not_lt.mpr (hb.trans hge)) (hbelow.le.trans (hb.trans hlo))

/-- Rounding keeps a magnitude above a power of two it is above. -/
lemma le_nearest {x v : ℚ} (h : 2 ≤ x) (hv : nearest x = some v) : 2 ≤ v := by
  obtain ⟨k,hlog,hlo,hhi⟩ := log_of_one_le (by linarith)
  obtain ⟨hge,-⟩ := rounded_bounds hlog hlo hhi
  simp only [nearest] at hv
  split_ifs at hv
  obtain rfl := Option.some.inj hv
  have hk : 1 ≤ k := by
    by_contra hz
    obtain rfl : k = 0 := by omega
    norm_num at hhi
    linarith
  calc (2 : ℚ) = 2^1 := by norm_num
    _ ≤ 2^k := pow_le_pow_right₀ (by norm_num) hk
    _ ≤ _ := hge

lemma nearest_zero : nearest 0 = some 0 := by
  have hround : roundHalfEven 0 = 0 := by norm_num [roundHalfEven]
  have hlt : (0 : ℚ) < 2^(1024 : ℕ) := by positivity
  simp only [nearest]
  rw [zero_div,hround,Int.cast_zero,zero_mul,if_pos hlt]

/-- An integer as a binary64 number: infinite from the overflow threshold on, else a magnitude on
the same side of one. -/
theorem ofDecimal_nat (neg : Bool) (n : ℕ) :
    (2^1024 ≤ n + 2^970 ∧ 2 ≤ n ∧ ofDecimal neg n 0 = .inf neg) ∨
      (¬2^1024 ≤ n + 2^970 ∧ ∃ mag, ofDecimal neg n 0 = .finite neg mag ∧
        (n = 0 → mag = 0) ∧ (n = 1 → mag = 1) ∧ (2 ≤ n → 1 < mag)) := by
  have hexp : ((n : ℚ))*10^(0 : ℤ) = n := by rw [zpow_zero,mul_one]
  have hpowers : ∀ k m : ℕ, k < m → (2 : ℕ)^k < 2^m := fun _ _ => Nat.pow_lt_pow_right (by norm_num)
  rw [ofDecimal,hexp]
  rcases Nat.eq_zero_or_pos n with rfl | hn
  · right
    rw [Nat.cast_zero,nearest_zero,Nat.zero_add]
    exact ⟨not_le_of_gt (hpowers 970 1024 (by norm_num)),_,rfl,by simp,by simp,by simp⟩
  · have hone : (1 : ℚ) ≤ n := by exact_mod_cast hn
    have hwide : (2 : ℚ)^1024 - 2^970 ≤ n ↔ 2^1024 ≤ n + 2^970 := by
      rw [sub_le_iff_le_add]
      exact_mod_cast Iff.rfl
    cases hv : nearest n with
    | none =>
      refine .inl ⟨hwide.mp ((nearest_eq_none_iff hone).mp hv),?_,rfl⟩
      by_contra hlt
      obtain rfl : n = 1 := by omega
      rw [Nat.cast_one,nearest_one] at hv
      cases hv
    | some v =>
      refine .inr ⟨fun hc => ?_,_,rfl,by omega,fun he => ?_,fun h2 => ?_⟩
      · rw [(nearest_eq_none_iff hone).mpr (hwide.mpr hc)] at hv
        cases hv
      · subst he
        rw [Nat.cast_one,nearest_one] at hv
        obtain rfl := Option.some.inj hv
        simp
      · have hge := le_nearest (by exact_mod_cast h2) hv
        rw [← NNRat.coe_lt_coe,Rat.coe_toNNRat _ (by linarith),NNRat.coe_one]
        linarith

end Overflow

end Binary64
end Kswarm
