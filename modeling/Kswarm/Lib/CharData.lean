import Kswarm.Lib.Decimal

/-! The character tables a Unicode-aware runtime ships: which characters are alphanumeric, which
are whitespace, which are printable, and the value of the decimal digits. Inside ASCII they are
fixed. -/
namespace Kswarm

def asciiLetter (c : Char) : Bool :=
  decide ((65 ≤ c.toNat ∧ c.toNat ≤ 90) ∨ (97 ≤ c.toNat ∧ c.toNat ≤ 122))

/-- Tab to carriage return, the four separators from `0x1c`, and the blank. -/
def asciiSpace (c : Char) : Bool :=
  decide ((9 ≤ c.toNat ∧ c.toNat ≤ 13) ∨ (28 ≤ c.toNat ∧ c.toNat ≤ 32))

def asciiPrintable (c : Char) : Bool := decide (32 ≤ c.toNat ∧ c.toNat < 127)

def asciiDigit (c : Char) : Option ℕ := if isDigit c then some (c.toNat-48) else none

lemma asciiDigit_lt {c : Char} {d : ℕ} (h : asciiDigit c = some d) : d < 10 := by
  unfold asciiDigit at h
  split at h
  · rename_i hd
    simp only [isDigit,decide_eq_true_eq] at hd
    have := Option.some.inj h
    omega
  · cases h

class CharData where
  isAlnum : Char → Bool
  isSpace : Char → Bool
  isPrintable : Char → Bool
  digit : Char → Option ℕ
  isAlnum_ascii : ∀ c : Char, c.toNat < 128 → isAlnum c = (isDigit c || asciiLetter c)
  isSpace_ascii : ∀ c : Char, c.toNat < 128 → isSpace c = asciiSpace c
  isPrintable_ascii : ∀ c : Char, c.toNat < 128 → isPrintable c = asciiPrintable c
  digit_ascii : ∀ c : Char, c.toNat < 128 → digit c = asciiDigit c
  digit_lt : ∀ c d, digit c = some d → d < 10

/-- Tables that know no character beyond ASCII. -/
@[reducible] def CharData.ascii : CharData where
  isAlnum c := isDigit c || asciiLetter c
  isSpace c := asciiSpace c
  isPrintable c := asciiPrintable c
  digit c := asciiDigit c
  isAlnum_ascii _ _ := rfl
  isSpace_ascii _ _ := rfl
  isPrintable_ascii _ _ := rfl
  digit_ascii _ _ := rfl
  digit_lt _ _ := asciiDigit_lt

/-- `str.isalnum`: non-empty and alphanumeric throughout. -/
def isalnum [CharData] (s : List Char) : Bool := !s.isEmpty && s.all CharData.isAlnum

end Kswarm
