import Kswarm.Lib.Sha256
import Mathlib.Algebra.Order.Ring.Nat
import Mathlib.Tactic.Ring
import Mathlib.Tactic.Linarith

/-! Little-endian integers of a fixed byte width, the length frame built from them, and the
splitting facts every fixed layout rests on. -/
namespace Kswarm

/-- The low `w` bytes of `n`, least significant first. -/
def leBytes : ℕ → ℕ → Bytes
  | 0,_ => []
  | w+1,n => UInt8.ofNat (n % 256) :: leBytes w (n / 256)

/-- The number a little-endian byte string spells. -/
def ofLe : Bytes → ℕ
  | [] => 0
  | b::bs => b.toNat + 256*ofLe bs

@[simp] theorem leBytes_length (w n : ℕ) : (leBytes w n).length = w := by
  induction w generalizing n with
  | zero => rfl
  | succ w ih => simp [leBytes,ih]

theorem ofLe_leBytes (w n : ℕ) : ofLe (leBytes w n) = n % 256^w := by
  induction w generalizing n with
  | zero => simp [leBytes,ofLe,Nat.mod_one]
  | succ w ih =>
    have hb : (UInt8.ofNat (n % 256)).toNat = n % 256 := by simp
    rw [leBytes,ofLe,ih,hb,pow_succ,Nat.mul_comm (256^w),Nat.mod_mul]

/-- In range, the encoding loses nothing. -/
theorem ofLe_leBytes_of_lt {w n : ℕ} (h : n < 256^w) : ofLe (leBytes w n) = n := by
  rw [ofLe_leBytes,Nat.mod_eq_of_lt h]

theorem leBytes_ofLe (bs : Bytes) : leBytes bs.length (ofLe bs) = bs := by
  induction bs with
  | nil => rfl
  | cons b bs ih =>
    have hb := b.toNat_lt
    have hm : (b.toNat + 256*ofLe bs) % 256 = b.toNat := by omega
    have hd : (b.toNat + 256*ofLe bs) / 256 = ofLe bs := by omega
    simp only [List.length_cons,ofLe,leBytes,hm,hd,ih,UInt8.ofNat_toNat]

theorem ofLe_lt (bs : Bytes) : ofLe bs < 256^bs.length := by
  induction bs with
  | nil => simp [ofLe]
  | cons b bs ih =>
    have hb := b.toNat_lt
    simp only [ofLe,List.length_cons,pow_succ]
    omega

theorem leBytes_inj {w m n : ℕ} (hm : m < 256^w) (hn : n < 256^w)
    (h : leBytes w m = leBytes w n) : m = n := by
  rw [← ofLe_leBytes_of_lt hm,← ofLe_leBytes_of_lt hn,h]

/-- A length prefix of eight bytes, then the payload. -/
def lengthFrame (payload : Bytes) : Bytes := leBytes 8 payload.length ++ payload

/-- The frame determines its payload, whatever the length. -/
theorem lengthFrame_injective : Function.Injective lengthFrame := by
  intro a b h
  exact (List.append_inj h (by simp)).2

end Kswarm
