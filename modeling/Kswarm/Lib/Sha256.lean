import Mathlib.Algebra.Order.Ring.Nat
import Mathlib.Data.List.Basic

/-! SHA-256 on byte lists. The rounds walk a sliding window of sixteen schedule words, so one
fold over the round constants is a whole compression. -/
namespace Kswarm

/-- A byte string. -/
abbrev Bytes := List UInt8

/-- A 32-byte array. -/
abbrev Digest := { b : Bytes // b.length = 32 }

namespace Sha256

/-- The eight working words. -/
structure Words where
  a : UInt32
  b : UInt32
  c : UInt32
  d : UInt32
  e : UInt32
  f : UInt32
  g : UInt32
  h : UInt32

def initial : Words :=
  ⟨0x6a09e667,0xbb67ae85,0x3c6ef372,0xa54ff53a,0x510e527f,0x9b05688c,0x1f83d9ab,0x5be0cd19⟩

def roundConstants : List UInt32 := [
  0x428a2f98,0x71374491,0xb5c0fbcf,0xe9b5dba5,0x3956c25b,0x59f111f1,0x923f82a4,0xab1c5ed5,
  0xd807aa98,0x12835b01,0x243185be,0x550c7dc3,0x72be5d74,0x80deb1fe,0x9bdc06a7,0xc19bf174,
  0xe49b69c1,0xefbe4786,0x0fc19dc6,0x240ca1cc,0x2de92c6f,0x4a7484aa,0x5cb0a9dc,0x76f988da,
  0x983e5152,0xa831c66d,0xb00327c8,0xbf597fc7,0xc6e00bf3,0xd5a79147,0x06ca6351,0x14292967,
  0x27b70a85,0x2e1b2138,0x4d2c6dfc,0x53380d13,0x650a7354,0x766a0abb,0x81c2c92e,0x92722c85,
  0xa2bfe8a1,0xa81a664b,0xc24b8b70,0xc76c51a3,0xd192e819,0xd6990624,0xf40e3585,0x106aa070,
  0x19a4c116,0x1e376c08,0x2748774c,0x34b0bcb5,0x391c0cb3,0x4ed8aa4a,0x5b9cca4f,0x682e6ff3,
  0x748f82ee,0x78a5636f,0x84c87814,0x8cc70208,0x90befffa,0xa4506ceb,0xbef9a3f7,0xc67178f2]

def rotr (x n : UInt32) : UInt32 := (x >>> n) ||| (x <<< (32-n))

/-- One round on the working words with the current schedule word. -/
def round (s : Words) (k w : UInt32) : Words :=
  let s1 := rotr s.e 6 ^^^ rotr s.e 11 ^^^ rotr s.e 25
  let ch := (s.e &&& s.f) ^^^ (~~~s.e &&& s.g)
  let t1 := s.h + s1 + ch + k + w
  let s0 := rotr s.a 2 ^^^ rotr s.a 13 ^^^ rotr s.a 22
  let maj := (s.a &&& s.b) ^^^ (s.a &&& s.c) ^^^ (s.b &&& s.c)
  ⟨t1 + s0 + maj,s.a,s.b,s.c,s.d + t1,s.e,s.f,s.g⟩

/-- Drop the oldest schedule word and append the one sixteen places later. -/
def advance (win : List UInt32) : List UInt32 :=
  let w1 := win.getD 1 0
  let w14 := win.getD 14 0
  let s0 := rotr w1 7 ^^^ rotr w1 18 ^^^ (w1 >>> 3)
  let s1 := rotr w14 17 ^^^ rotr w14 19 ^^^ (w14 >>> 10)
  win.drop 1 ++ [win.getD 0 0 + s0 + win.getD 9 0 + s1]

def compress (s : Words) (block : List UInt32) : Words :=
  let t := (roundConstants.foldl
    (fun (p : Words × List UInt32) k => (round p.1 k (p.2.getD 0 0),advance p.2)) (s,block)).1
  ⟨s.a+t.a,s.b+t.b,s.c+t.c,s.d+t.d,s.e+t.e,s.f+t.f,s.g+t.g,s.h+t.h⟩

/-- The message with its `0x80` marker, zero padding and big-endian bit length. -/
def pad (m : Bytes) : Bytes :=
  m ++ [0x80] ++ List.replicate ((119 - m.length % 64) % 64) 0 ++
    (List.range 8).reverse.map (fun i => UInt8.ofNat (8*m.length / 256^i))

/-- Big-endian words of a padded message. -/
def words : Bytes → List UInt32
  | a::b::c::d::rest =>
    UInt32.ofNat (((a.toNat*256 + b.toNat)*256 + c.toNat)*256 + d.toNat) :: words rest
  | _ => []

/-- Absorb `n` blocks of sixteen words. -/
def absorb : ℕ → Words → List UInt32 → Words
  | 0,s,_ => s
  | n+1,s,ws => absorb n (compress s (ws.take 16)) (ws.drop 16)

def wordBytes (x : UInt32) : Bytes :=
  [UInt8.ofNat (x.toNat / 16777216),UInt8.ofNat (x.toNat / 65536),
    UInt8.ofNat (x.toNat / 256),UInt8.ofNat x.toNat]

def Words.bytes (s : Words) : Bytes :=
  wordBytes s.a ++ wordBytes s.b ++ wordBytes s.c ++ wordBytes s.d ++
    wordBytes s.e ++ wordBytes s.f ++ wordBytes s.g ++ wordBytes s.h

lemma Words.bytes_length (s : Words) : s.bytes.length = 32 := by simp [bytes,wordBytes]

end Sha256

/-- SHA-256 as a fixed array. It stays folded: nothing below depends on its value. -/
@[irreducible] def sha256 (m : Bytes) : Digest :=
  let s := Sha256.absorb ((Sha256.pad m).length / 64) Sha256.initial (Sha256.words (Sha256.pad m))
  ⟨s.bytes,s.bytes_length⟩

/-- A published vector over ten bytes, computed independently. -/
example : (sha256 [2,0,0,0,0,0,0,0,97,98]).val =
    [0x5d,0xff,0x2b,0x3f,0xa7,0x97,0x21,0xa8,0x18,0x1b,0x9b,0xeb,0x1d,0xb6,0xbc,0xce,
     0x93,0xb4,0x82,0xf9,0xaa,0x3a,0x5c,0x9b,0x86,0x4f,0xc4,0x42,0x9e,0x31,0xd5,0xf2] := by
  decide +kernel

end Kswarm
