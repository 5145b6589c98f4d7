import Mathlib.Data.Nat.Digits.Defs
import Mathlib.Data.Nat.Digits.Lemmas
import Mathlib.Tactic.Common

/-! The decimal rendering of integers, and reading it back. -/
namespace Kswarm

def digitChar (d : ℕ) : Char := Char.ofNat (48+d)

/-- The decimal digits of `n`, most significant first and without leading zeros. -/
def decimal (n : ℕ) : List Char :=
  if n = 0 then ['0'] else (Nat.digits 10 n).reverse.map digitChar

def decimalInt : ℤ → List Char
  | .ofNat n => decimal n
  | .negSucc n => '-' :: decimal (n+1)

/-- Value of a digit string, read from the left. -/
def digitsValue (cs : List Char) : ℕ := cs.foldl (fun a c => 10*a + (c.toNat-48)) 0

def isDigit (c : Char) : Bool := decide (48 ≤ c.toNat ∧ c.toNat ≤ 57)

lemma digitChar_toNat {d : ℕ} (h : d < 10) : (digitChar d).toNat = 48+d := by
  interval_cases d <;> rfl

lemma isDigit_digitChar {d : ℕ} (h : d < 10) : isDigit (digitChar d) = true := by
  simp only [isDigit,digitChar_toNat h,decide_eq_true_eq]
  omega

theorem decimal_ne_nil (n : ℕ) : decimal n ≠ [] := by
  unfold decimal
  split_ifs with h
  · simp
  · simpa using Nat.digits_ne_nil_iff_ne_zero.mpr h

theorem isDigit_of_mem_decimal {n : ℕ} {c : Char} (h : c ∈ decimal n) : isDigit c = true := by
  unfold decimal at h
  split_ifs at h with h0
  · simp only [List.mem_singleton] at h
    subst h
    rfl
  · obtain ⟨d,hd,rfl⟩ := List.mem_map.mp h
    exact isDigit_digitChar (Nat.digits_lt_base (by decide) (List.mem_reverse.mp hd))

lemma digitsValue_reverse_map (ds : List ℕ) (h : ∀ d ∈ ds, d < 10) :
    digitsValue (ds.reverse.map digitChar) = Nat.ofDigits 10 ds := by
  induction ds with
  | nil => rfl
  | cons d ds ih =>
    have hd := digitChar_toNat (h d (by simp))
    have ht := ih (fun e he => h e (by simp [he]))
    simp only [digitsValue,List.reverse_cons,List.map_append,List.map_cons,List.map_nil,
      List.foldl_append,List.foldl_cons,List.foldl_nil,Nat.ofDigits_cons] at ht ⊢
    rw [ht,hd]
    simp only [Nat.add_sub_cancel_left]
    omega

/-- The rendering reads back. -/
@[simp] theorem digitsValue_decimal (n : ℕ) : digitsValue (decimal n) = n := by
  unfold decimal
  split_ifs with h
  · subst h; rfl
  · rw [digitsValue_reverse_map _ (fun d hd => Nat.digits_lt_base (by decide) hd),
      Nat.ofDigits_digits]

theorem decimal_injective : Function.Injective decimal := by
  intro a b h
  rw [← digitsValue_decimal a,← digitsValue_decimal b,h]

/-- A rendering starts with the digit zero only when it is the number zero. -/
theorem decimal_head_zero {n : ℕ} {cs : List Char} (h : decimal n = '0'::cs) : cs = [] := by
  unfold decimal at h
  split_ifs at h with h0
  · simpa using h.symm
  · exfalso
    obtain ⟨ds,d,hd⟩ : ∃ ds d, Nat.digits 10 n = ds ++ [d] :=
      ⟨_,_,(List.dropLast_append_getLast (Nat.digits_ne_nil_iff_ne_zero.mpr h0)).symm⟩
    have hlast := Nat.getLast_digit_ne_zero 10 h0
    have hlt : d < 10 := Nat.digits_lt_base (b := 10) (m := n) (by decide) (by simp [hd])
    simp only [hd,List.getLast_append_singleton,ne_eq] at hlast
    simp only [hd,List.reverse_append,List.reverse_cons,List.reverse_nil,List.nil_append,
      List.cons_append,List.map_cons,List.cons.injEq] at h
    have hc := congrArg Char.toNat h.1
    rw [digitChar_toNat hlt] at hc
    change 48+d = 48 at hc
    omega

/-- A rendering ends where the digits end. -/
theorem decimal_append_inj {m n : ℕ} {c : Char} {x y : List Char} (hc : isDigit c = false)
    (h : decimal m ++ c::x = decimal n ++ c::y) : m = n ∧ x = y := by
  have htake : ∀ k z, (decimal k ++ c::z).takeWhile isDigit = decimal k := by
    intro k z
    rw [List.takeWhile_append_of_pos (fun d hd => isDigit_of_mem_decimal hd)]
    simp [hc]
  have hmn : m = n := decimal_injective ((htake m x).symm.trans ((congrArg _ h).trans (htake n y)))
  subst hmn
  simpa using h

end Kswarm
