import Kswarm.Lib.Rounding
import Mathlib.Data.ENat.Basic

/-! Arithmetic of the Number type on non-negative values: every operation rounds its exact result
to the nearest binary64 number, and a result past the largest one is infinite. -/
namespace Kswarm

/-- A non-negative integer that is a Number. -/
structure IntegerNumber where
  value : ℕ
  representable : Binary64.nearest value = some (value : ℚ)

namespace IntegerNumber

def one : IntegerNumber := ⟨1,by simpa using Binary64.nearest_one⟩

/-- Every natural below `2^53` is a Number. -/
def ofNat (n : ℕ) (h : n < 2^53) : IntegerNumber := ⟨n,Binary64.nearest_natCast h⟩

/-- `n || d`. -/
def orElse (n : Option IntegerNumber) (d : IntegerNumber) : IntegerNumber :=
  match n with
  | some n => if n.value = 0 then d else n
  | none => d

end IntegerNumber

namespace Number

/-- `x * y` of a positive factor; infinity stays infinite. -/
def times (x : Option ℚ) (y : ℚ) : Option ℚ := x.bind (fun x => Binary64.nearest (x*y))

/-- `x / y`, for a positive divisor. -/
def dividedBy (x : Option ℚ) (y : ℚ) : Option ℚ := x.bind (fun x => Binary64.nearest (x/y))

/-- `Math.floor`. -/
def floor : Option ℚ → ℕ∞
  | some x => (⌊x⌋₊ : ℕ)
  | none => ⊤

/-- `Math.max(1, x)`. -/
def atLeastOne : ℕ∞ → ℕ∞
  | (x : ℕ) => (max 1 x : ℕ)
  | ⊤ => ⊤

@[simp] lemma atLeastOne_natCast (x : ℕ) : atLeastOne x = (max 1 x : ℕ) := rfl

lemma one_le_atLeastOne (x : ℕ∞) : 1 ≤ atLeastOne x := by
  cases x with
  | top => exact le_top
  | coe x =>
    rw [atLeastOne_natCast]
    exact_mod_cast le_max_left 1 x

lemma le_atLeastOne (x : ℕ∞) : x ≤ atLeastOne x := by
  cases x with
  | top => exact le_top
  | coe x => exact Nat.cast_le.mpr (le_max_right 1 x)

lemma atLeastOne_of_one_le {x : ℕ∞} (h : 1 ≤ x) : atLeastOne x = x := by
  cases x with
  | top => rfl
  | coe x =>
    have hx : 1 ≤ x := by exact_mod_cast h
    rw [atLeastOne_natCast,max_eq_right hx]

/-- Nothing below `a`; infinity is above every bound. -/
def AtLeast (x : Option ℚ) (a : ℚ) : Prop := ∀ v, x = some v → a ≤ v

lemma atLeast_nearest {x a : ℚ} (h : a ≤ Binary64.rounded x) : AtLeast (Binary64.nearest x) a := by
  intro v hv
  rw [Binary64.eq_rounded hv]
  exact h

/-- Rounding takes at most `2^-53` of a value of at least one. -/
lemma atLeast_nearest_mul {x a : ℚ} (h : a ≤ x) (ha : 1 ≤ a) :
    AtLeast (Binary64.nearest x) (a*(1 - 2^(-53 : ℤ))) := by
  refine atLeast_nearest ?_
  have herr := (abs_le.mp (Binary64.rounded_error (ha.trans h))).1
  have hunit : (0 : ℚ) ≤ 1 - 2^(-53 : ℤ) := by norm_num
  have hmul := mul_le_mul_of_nonneg_right h hunit
  linarith

lemma AtLeast.times {x : Option ℚ} {a y : ℚ} (h : AtLeast x a) (hy : 0 ≤ y) (h1 : 1 ≤ a*y) :
    AtLeast (times x y) (a*y*(1 - 2^(-53 : ℤ))) := by
  cases x with
  | none => exact fun v hv => by cases hv
  | some x => exact atLeast_nearest_mul (mul_le_mul_of_nonneg_right (h x rfl) hy) h1

lemma AtLeast.dividedBy {x : Option ℚ} {a y : ℚ} (h : AtLeast x a) (hy : 0 ≤ y) (h1 : 1 ≤ a/y) :
    AtLeast (dividedBy x y) (a/y*(1 - 2^(-53 : ℤ))) := by
  cases x with
  | none => exact fun v hv => by cases hv
  | some x => exact atLeast_nearest_mul (div_le_div_of_nonneg_right (h x rfl) hy) h1

lemma atLeast_some (x : ℚ) : AtLeast (some x) x := fun _ hv => (Option.some.inj hv).le

lemma AtLeast.mono {x : Option ℚ} {a b : ℚ} (h : AtLeast x b) (hab : a ≤ b) : AtLeast x a :=
  fun v hv => hab.trans (h v hv)

/-- The three roundings of `b * m * w / n` take less than `2^-51` of it. -/
lemma atLeast_quotient {b m w n : ℚ} (hm : 0 ≤ m) (hw : 0 ≤ w) (hn : 0 < n) (h1 : 2 ≤ b*m)
    (h2 : 2 ≤ b*m*w) (h3 : 2 ≤ b*m*w/n) :
    AtLeast (Number.dividedBy (Number.times (Number.times (some b) m) w) n)
      (b*m*w/n*(1 - 2^(-51 : ℤ))) := by
  have hfirst := (atLeast_some b).times hm (by linarith)
  have hsecond := hfirst.times hw (by
    rw [mul_right_comm]
    norm_num
    linarith)
  have hsame : b*m*(1 - 2^(-53 : ℤ))*w*(1 - 2^(-53 : ℤ))/n =
      b*m*w/n*((1 - 2^(-53 : ℤ))*(1 - 2^(-53 : ℤ))) := by
    ring
  have hthird := hsecond.dividedBy hn.le (by
    rw [hsame]
    norm_num
    linarith)
  refine hthird.mono ?_
  rw [hsame,mul_assoc (b*m*w/n)]
  exact mul_le_mul_of_nonneg_left (by norm_num) (by linarith)

/-- Multiplication by a factor of at least one keeps a natural below. -/
lemma AtLeast.times_natCast {x : Option ℚ} {j : ℕ} {y : ℚ} (h : AtLeast x j) (hj : 1 ≤ j)
    (hj' : j ≤ 2^53) (hy : 1 ≤ y) : AtLeast (Number.times x y) j := by
  cases x with
  | none => exact fun v hv => by cases hv
  | some x =>
    have hjq : (1 : ℚ) ≤ j := by exact_mod_cast hj
    have hx : (j : ℚ) ≤ x := h x rfl
    have hxy : x ≤ x*y := le_mul_of_one_le_right (by linarith) hy
    exact atLeast_nearest (Binary64.natCast_le_rounded hj' (by linarith) (hx.trans hxy))

lemma AtLeast.dividedBy_one {x : Option ℚ} {y : ℚ} (h : AtLeast x y) (hy : 0 < y) :
    AtLeast (Number.dividedBy x y) 1 := by
  cases x with
  | none => exact fun v hv => by cases hv
  | some x =>
    have hx : 1 ≤ x/y := (one_le_div hy).mpr (h x rfl)
    refine atLeast_nearest ?_
    exact_mod_cast Binary64.natCast_le_rounded (j := 1) (by norm_num) hx (by exact_mod_cast hx)

lemma AtLeast.le_floor {x : Option ℚ} {a : ℚ} (h : AtLeast x a) : (⌊a⌋₊ : ℕ∞) ≤ floor x := by
  cases x with
  | none => exact le_top
  | some x => exact Nat.cast_le.mpr (Nat.floor_mono (h x rfl))

end Number
end Kswarm
