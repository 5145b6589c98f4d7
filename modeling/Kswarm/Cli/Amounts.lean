import Kswarm.Cli.Swarm
import Kswarm.Lib.DecimalContext

/-! Human amounts and base units (`encoding.py`): what a parsed amount is next to the number that
was typed, and that a displayed amount parses back. -/
namespace Kswarm.Cli.Swarm

section Truncation
variable [CharData] {value : String} {negative : Bool} {c decimals n : ℕ} {e : ℤ}

lemma parseBaseUnits_eq_ok (hvalue : decimalOf value.toList = some (negative,c,e))
    (hnonneg : negative = true → c = 0) :
    parseBaseUnits value decimals = .ok n ↔
      (n : ℤ) = ⌊scaled (roundContext c (e + decimals)).1 (roundContext c (e + decimals)).2⌋ ∧
        n < 10^contextDigits := by
  simp only [parseBaseUnits,hvalue,bind_eq_ok,require_eq_ok,failIf_eq_ok,pure_eq_ok,
    Option.some.injEq,exists_eq_left',quantizeDown_eq_some]
  constructor
  · rintro ⟨amount,hamount,_,-,rfl⟩
    exact hamount
  · intro hn
    refine ⟨n,hn,(),?_,rfl⟩
    rintro ⟨hneg,hpos⟩
    have hzero : roundContext 0 (e + decimals) = (0,e + decimals) := rfl
    rw [hnonneg hneg,hzero] at hn
    simp only [scaled,Nat.cast_zero,zero_mul,Int.floor_zero] at hn
    omega

/-- A parsed amount is the floor of the typed one exactly when the rounding to 28 digits does not
take it up to the next integer; from `10^28` on nothing is parsed. -/
theorem parseBaseUnits_floor_iff (hvalue : decimalOf value.toList = some (negative,c,e))
    (hnonneg : negative = true → c = 0) :
    (∀ n, parseBaseUnits value decimals = .ok n → (n : ℤ) = ⌊scaled c (e + decimals)⌋) ↔
      ¬(RoundsUp (scaled c (e + decimals)) ∧ ⌊scaled c (e + decimals)⌋ + 1 < 10^contextDigits) := by
  have hparse : ∀ n, parseBaseUnits value decimals = .ok n ↔ _ :=
    fun n => parseBaseUnits_eq_ok hvalue hnonneg
  have hfloor : 0 ≤ ⌊scaled c (e + decimals)⌋ := Int.floor_nonneg.mpr (scaled_nonneg _ _)
  simp only [hparse]
  by_cases hlarge : scaled c (e + decimals) < 10^contextDigits
  · rcases floor_roundContext hlarge with ⟨hup,hrounded⟩ | ⟨hup,hrounded⟩
    · rw [hrounded]
      constructor
      · rintro h ⟨-,hfits⟩
        obtain ⟨m,hm⟩ := Int.eq_ofNat_of_zero_le hfloor
        have := h (m+1) ⟨by rw [hm]; push_cast; rfl,by rw [hm] at hfits; exact_mod_cast hfits⟩
        rw [hm] at this
        push_cast at this
        omega
      · rintro h n ⟨hn,hfits⟩
        refine absurd ⟨hup,?_⟩ h
        rw [← hn]
        exact_mod_cast hfits
    · rw [hrounded]
      constructor
      · intro _ h
        exact hup h.1
      · intro _ n hn
        exact hn.1
  · have hbig := le_roundContext (not_lt.mp hlarge)
    have hint : (10^contextDigits : ℤ) ≤ ⌊scaled c (e + decimals)⌋ :=
      Int.le_floor.mpr (by exact_mod_cast not_lt.mp hlarge)
    have hint' : (10^contextDigits : ℤ) ≤
        ⌊scaled (roundContext c (e + decimals)).1 (roundContext c (e + decimals)).2⌋ :=
      Int.le_floor.mpr (by exact_mod_cast hbig)
    constructor
    · rintro - ⟨-,hfits⟩
      omega
    · rintro - n ⟨hn,hfits⟩
      rw [← hn] at hint'
      exact absurd (by exact_mod_cast hint') (not_le.mpr hfits)

end Truncation

section Typed

local instance : CharData := CharData.ascii

/-- Seven decimals typed for a mint with six are cut. -/
theorem seventh_decimal_cut :
    parseBaseUnits "1.2345678" 6 = .ok 1234567 ∧
    ((∀ n, parseBaseUnits "1.2345678" 6 = .ok n → (n : ℤ) = ⌊scaled 12345678 (-7 + (6 : ℕ))⌋) ↔
      ¬(RoundsUp (scaled 12345678 (-7 + (6 : ℕ))) ∧
        ⌊scaled 12345678 (-7 + (6 : ℕ))⌋ + 1 < 10^contextDigits)) := by
  have hread : decimalOf "1.2345678".toList = some (false,12345678,-7) := by decide +kernel
  exact ⟨by decide +kernel,parseBaseUnits_floor_iff hread (fun h => nomatch h)⟩

/-- Thirty nines with one of them before the point: the product rounds to ten million base units,
and one more is spent than the typed amount holds. -/
theorem thirty_nines_round_up :
    decimalOf "9.99999999999999999999999999999".toList = some (false,10^30 - 1,-29) ∧
    parseBaseUnits "9.99999999999999999999999999999" 6 = .ok 10000000 ∧
    ¬((10000000 : ℕ) : ℤ) = ⌊scaled (10^30 - 1) (-29 + (6 : ℕ))⌋ := by
  refine ⟨by decide +kernel,by decide +kernel,?_⟩
  decide +kernel

end Typed

section Display

/-- `format_token_amount`. The divisor is a power of ten, so the quotient is the amount with its
exponent moved, rounded in the context. -/
def formatTokenAmount (amount decimals : ℕ) : String :=
  let (coefficient,exponent) := roundContext amount (-decimals)
  let (digits,exponent) := normalizeDigits coefficient exponent
  String.ofList (formatFixed digits exponent)

lemma short_of_lt {c : ℕ} (h : c < 10^contextDigits) :
    (Nat.digits 10 c).length ≤ contextDigits :=
  (Nat.digits_length_le_iff (by norm_num) c).mpr h

lemma formatTokenAmount_short {amount : ℕ} (h : amount < 10^contextDigits) (decimals : ℕ) :
    formatTokenAmount amount decimals =
      String.ofList (formatFixed (normalizeDigits amount (-decimals)).1
        (normalizeDigits amount (-decimals)).2) := by
  rw [formatTokenAmount,roundContext_short _ (short_of_lt h)]

variable [CharData]

/-- A numeral that stands for a whole number of base units, with few enough digits, is parsed to
that number. -/
lemma parseBaseUnits_exact {value : String} {c decimals n : ℕ} {e : ℤ}
    (hvalue : decimalOf value.toList = some (false,c,e)) (hc : c < 10^contextDigits)
    (hexact : scaled c (e + decimals) = n) (hn : n < 10^contextDigits) :
    parseBaseUnits value decimals = .ok n := by
  rw [parseBaseUnits_eq_ok hvalue (fun h => nomatch h),roundContext_short _ (short_of_lt hc)]
  dsimp only
  rw [hexact,Int.floor_natCast]
  exact ⟨rfl,hn⟩

/-- A displayed amount parses back to itself: nothing is rounded on the way, as a `u64` has twenty
digits at most. -/
theorem parse_formatTokenAmount (amount : UInt64) (decimals : UInt8) :
    parseBaseUnits (formatTokenAmount amount.toNat decimals.toNat) decimals.toNat =
      .ok amount.toNat := by
  have hamount : amount.toNat < 10^contextDigits :=
    lt_trans amount.toNat_lt (by norm_num [contextDigits])
  generalize amount.toNat = n at hamount
  generalize decimals.toNat = d
  obtain ⟨hdigits,hne,hvalue,hle⟩ := normalizeDigits_value n (-d)
  obtain ⟨c,f,hread,hsame,hshape⟩ := decimalOf_formatFixed _ hdigits hne
  rw [formatTokenAmount_short hamount]
  have hexact : scaled c (f + d) = n := by
    have hpow : ((10 : ℚ)^d) ≠ 0 := by positivity
    calc scaled c (f + d) = scaled c f * 10^d := by
          rw [scaled,scaled,ten_zpow_add,zpow_natCast,mul_assoc]
      _ = (n : ℚ) / (10^d : ℕ) * 10^d := by rw [hsame,hvalue,scaled_negExp]
      _ = n := by
          push_cast
          exact div_mul_cancel₀ _ hpow
  have hc : c ≤ n := by
    rcases hshape with rfl | rfl
    · exact hle
    · have hquot : (c : ℚ) = (n : ℚ) / (10^d : ℕ) := by
        rw [← scaled_negExp,← hvalue,← hsame,scaled,zpow_zero,mul_one]
      have hone : (1 : ℚ) ≤ (10^d : ℕ) := by exact_mod_cast Nat.one_le_pow d 10 (by norm_num)
      have hle : (c : ℚ) ≤ n := by
        rw [hquot]
        exact div_le_self n.cast_nonneg hone
      exact_mod_cast hle
  apply parseBaseUnits_exact _ (hc.trans_lt hamount) hexact hamount
  rw [String.toList_ofList]
  exact hread

end Display

end Kswarm.Cli.Swarm
