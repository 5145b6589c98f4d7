import Kswarm.Lib.LittleEndian

/-! Comparison of two numbers byte by byte, from the most significant end: the loop every
implementation writes over arrays that store the bytes in an order of their own. -/
namespace Kswarm
variable (value modulus : ℕ → UInt8)

/-- The first difference decides, and equal numbers are not below one another. The functions read
the byte of a given significance. -/
def belowFrom : ℕ → Bool
  | 0 => false
  | index+1 =>
    if value index ≠ modulus index then decide (value index < modulus index)
    else belowFrom index

/-- The number the `n` bytes of least significance spell. -/
def numberOf (digit : ℕ → UInt8) : ℕ → ℕ
  | 0 => 0
  | n+1 => numberOf digit n + (digit n).toNat * 256^n

lemma numberOf_lt (digit : ℕ → UInt8) (n : ℕ) : numberOf digit n < 256^n := by
  induction n with
  | zero => simp [numberOf]
  | succ n ih =>
    have hb := (digit n).toNat_lt
    have hmul : (digit n).toNat * 256^n ≤ 255 * 256^n := Nat.mul_le_mul_right _ (by omega)
    rw [numberOf,pow_succ]
    omega

/-- A higher byte outweighs every byte below it. -/
lemma numberOf_lt_of_byte {n : ℕ} (h : value n < modulus n) :
    numberOf value (n+1) < numberOf modulus (n+1) := by
  have hlow := numberOf_lt value n
  have hbyte : (value n).toNat + 1 ≤ (modulus n).toNat := UInt8.lt_iff_toNat_lt.mp h
  have hmul := Nat.mul_le_mul_right (256^n) hbyte
  rw [Nat.add_mul,Nat.one_mul] at hmul
  rw [numberOf,numberOf]
  omega

/-- The loop compares the numbers. -/
theorem belowFrom_iff (n : ℕ) :
    belowFrom value modulus n = true ↔ numberOf value n < numberOf modulus n := by
  induction n with
  | zero => simp [belowFrom,numberOf]
  | succ n ih =>
    rw [belowFrom]
    split_ifs with hne
    · rw [decide_eq_true_eq]
      constructor
      · exact numberOf_lt_of_byte value modulus
      · intro hlt
        by_contra hnot
        have hgt : modulus n < value n := by
          have hne' : (value n).toNat ≠ (modulus n).toNat := fun he => hne (UInt8.toNat_inj.mp he)
          rw [UInt8.lt_iff_toNat_lt] at hnot ⊢
          omega
        exact lt_asymm hlt (numberOf_lt_of_byte modulus value hgt)
    · obtain he := not_not.mp hne
      rw [ih,numberOf,numberOf,he]
      omega

/-- Reading an array by index reads its little-endian number. -/
theorem numberOf_getD (bytes : Bytes) :
    numberOf (fun index => bytes.getD index 0) bytes.length = ofLe bytes := by
  have hstep : ∀ (b : UInt8) (bs : Bytes) (n : ℕ),
      numberOf (fun index => (b::bs).getD index 0) (n+1) =
        b.toNat + 256 * numberOf (fun index => bs.getD index 0) n := by
    intro b bs n
    induction n with
    | zero => simp [numberOf]
    | succ n ih =>
      rw [numberOf,ih,List.getD_cons_succ,numberOf,pow_succ]
      ring
  induction bytes with
  | nil => rfl
  | cons b bs ih => rw [List.length_cons,hstep,ih,ofLe]

end Kswarm
