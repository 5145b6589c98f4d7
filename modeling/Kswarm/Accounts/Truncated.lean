import Kswarm.Accounts.Job

/-! The remaining account decoders of both clients, and which of the six notice that an account was
cut short. Slices are silently short where the data ends, so a decoder notices a cut when a checked
read follows it. -/
namespace Kswarm.Accounts

section Config

structure ProtocolConfigAccount where
  bump : UInt8
  admin : Digest
  paymentMint : Digest
  tokenProgram : Digest
  paymentDecimals : UInt8
  tierOneStakeFloor : UInt64
  tierTwoStakeFloor : UInt64
  tierThreeStakeFloor : UInt64
  verifierStakeFloor : UInt64
  minChallengeWindowSeconds : UInt32
  deriving DecidableEq

/-- `sha256("account:ProtocolConfig")[:8]`. -/
def configDisc : Bytes := (sha256 (utf8 "account:ProtocolConfig".toList)).val.take 8

open Py in
/-- `decode_config`. -/
def decodeConfig (fromBytes : Bytes → Option Digest) (data : Bytes) :
    Except PyError ProtocolConfigAccount := do
  failIf (data.take 8 ≠ configDisc) .unexpectedDiscriminator
  let (bump,offset) ← readU8 data 8
  let (admin,offset) ← readPubkey fromBytes data offset
  let (paymentMint,offset) ← readPubkey fromBytes data offset
  let (tokenProgram,offset) ← readPubkey fromBytes data offset
  let (paymentDecimals,offset) ← readU8 data offset
  let (tierOneStakeFloor,offset) ← readU64 data offset
  let (tierTwoStakeFloor,offset) ← readU64 data offset
  let (tierThreeStakeFloor,offset) ← readU64 data offset
  let (verifierStakeFloor,offset) ← readU64 data offset
  let (minChallengeWindowSeconds,_) ← readU32 data offset
  pure {
    bump,admin,paymentMint,tokenProgram,paymentDecimals,tierOneStakeFloor,tierTwoStakeFloor
    tierThreeStakeFloor,verifierStakeFloor,minChallengeWindowSeconds }

def configLayout : List Slot := [
  .fixed 1,.fixed 32,.fixed 32,.fixed 32,.fixed 1,.fixed 8,.fixed 8,.fixed 8,.fixed 8,.fixed 4]

end Config

section Worker

structure WorkerAccount where
  bump : UInt8
  authority : Digest
  stakeVault : Digest
  lockedStake : UInt64
  activeClaims : UInt16
  registeredAt : Int64
  status : UInt8
  role : UInt8
  capabilityClassHash : Bytes
  softwareDigest : Bytes
  deriving DecidableEq

/-- `sha256("account:Worker")[:8]`. -/
def workerDisc : Bytes := (sha256 (utf8 "account:Worker".toList)).val.take 8

namespace Py

def readU16 : Reader PyError UInt16 := readU16Of .structError

end Py

open Py in
/-- `decode_worker`. -/
def decodeWorkerPy (fromBytes : Bytes → Option Digest) (data : Bytes) :
    Except PyError WorkerAccount := do
  failIf (data.take 8 ≠ workerDisc) .unexpectedDiscriminator
  let (bump,offset) ← readU8 data 8
  let (authority,offset) ← readPubkey fromBytes data offset
  let (stakeVault,offset) ← readPubkey fromBytes data offset
  let (lockedStake,offset) ← readU64 data offset
  let (activeClaims,offset) ← readU16 data offset
  let (registeredAt,offset) ← readI64 data offset
  let (status,offset) ← readU8 data offset
  let (role,offset) ← readU8 data offset
  let (capabilityClassHash,offset) ← readBytes 32 data offset
  let (softwareDigest,_) ← readBytes 32 data offset
  pure {
    bump,authority,stakeVault,lockedStake,activeClaims,registeredAt,status,role
    capabilityClassHash,softwareDigest }

namespace Js

def readU16 : Reader JsError UInt16 := readU16Of .rangeError

end Js

open Js in
/-- `decodeWorker`; its two keys are built at the end. -/
def decodeWorkerJs (publicKey : Bytes → Option Digest) (data : Bytes) :
    Except JsError WorkerAccount := do
  failIf (data.take 8 ≠ workerDisc) .unexpectedDiscriminator
  let (bump,offset) ← readU8 data 8
  let (authority,offset) ← readBytes 32 data offset
  let (stakeVault,offset) ← readBytes 32 data offset
  let (lockedStake,offset) ← readU64 data offset
  let (activeClaims,offset) ← readU16 data offset
  let (registeredAt,offset) ← readI64 data offset
  let (status,offset) ← readU8 data offset
  let (role,offset) ← readU8 data offset
  let (capabilityClassHash,offset) ← readBytes 32 data offset
  let (softwareDigest,_) ← readBytes 32 data offset
  let authority ← makeKey publicKey authority
  let stakeVault ← makeKey publicKey stakeVault
  pure {
    bump,authority,stakeVault,lockedStake,activeClaims,registeredAt,status,role
    capabilityClassHash,softwareDigest }

def workerLayout : List Slot := [
  .fixed 1,.fixed 32,.fixed 32,.fixed 8,.fixed 2,.fixed 8,.fixed 1,.fixed 1,.fixed 32,.fixed 32]

end Worker

section Marker

structure BonsolAggregateVerificationAccount where
  bump : UInt8
  aggregateJob : Digest
  executionId : Bytes
  imageId : Bytes
  inputDigest : Bytes
  outputDigest : Bytes
  journalHash : Bytes
  callbackUnix : Int64
  status : UInt8
  deriving DecidableEq

/-- `sha256("account:BonsolAggregateVerification")[:8]`. -/
def markerDisc : Bytes :=
  (sha256 (utf8 "account:BonsolAggregateVerification".toList)).val.take 8

open Py in
/-- `decode_marker`. -/
def decodeMarker (fromBytes : Bytes → Option Digest) (data : Bytes) :
    Except PyError BonsolAggregateVerificationAccount := do
  failIf (data.take 8 ≠ markerDisc) .unexpectedDiscriminator
  let (bump,offset) ← readU8 data 8
  let (aggregateJob,offset) ← readPubkey fromBytes data offset
  let (executionId,offset) ← readBytes 32 data offset
  let (imageId,offset) ← readBytes 32 data offset
  let (inputDigest,offset) ← readBytes 32 data offset
  let (outputDigest,offset) ← readBytes 32 data offset
  let (journalHash,offset) ← readBytes 32 data offset
  let (callbackUnix,offset) ← readI64 data offset
  let (status,_) ← readU8 data offset
  pure {
    bump,aggregateJob,executionId,imageId,inputDigest,outputDigest,journalHash,callbackUnix
    status }

def markerLayout : List Slot := [
  .fixed 1,.fixed 32,.fixed 32,.fixed 32,.fixed 32,.fixed 32,.fixed 32,.fixed 8,.fixed 1]

end Marker

def jobLayout : List Slot := [
  .fixed 1,.fixed 8,.fixed 32,.fixed 32,.fixed 1,.fixed 8,.fixed 8,.fixed 1,.fixed 1,.fixed 1,
  .fixed 32,.fixed 32,.fixed 8,.fixed 8,.fixed 4,.fixed 8,.fixed 4,.fixed 8,.fixed 8,.fixed 32,
  .fixed 1,.fixed 1,.fixed 1,.fixed 1,.fixed 32,.fixed 32,.fixed 32,.sized,.sized,.sized,
  .option (.fixed 32),.option (.fixed 32),.option .sized,.option (.fixed 8),
  .option (.fixed 32),.option (.fixed 8),.fixed 1]

/-- The discriminator and every part of the layout behind it lie inside the data. -/
def Whole (layout : List Slot) (data : Bytes) : Prop :=
  ∀ s ∈ layoutSpans (.fixed 8 :: layout) data 0, s.2 ≤ data.length

section Covered
variable {fromBytes : Bytes → Option Digest} {data : Bytes}

lemma whole_of_end {layout : List Slot} (h : layoutEnd layout data 8 ≤ data.length) :
    Whole layout data :=
  fun s hs => (layoutSpans_le (.fixed 8 :: layout) data 0 s hs).trans h

lemma py_walks_pubkey : Walks (Py.readPubkey fromBytes) (.fixed 32) := by
  intro data offset d offset' h
  simp only [Py.readPubkey,bind_eq_ok] at h
  obtain ⟨⟨raw,middle⟩,hraw,_,-,h⟩ := h
  rw [← (Prod.mk.inj (pure_eq_ok.mp h)).2]
  exact walks_slice 32 data offset raw middle hraw

lemma py_walks_string : Walks Py.readString .sized := by
  intro data offset s offset' h
  simp only [Py.readString,bind_eq_ok] at h
  obtain ⟨⟨raw,middle⟩,hraw,_,-,h⟩ := h
  rw [← (Prod.mk.inj (pure_eq_ok.mp h)).2]
  exact walks_sized data offset raw middle hraw

lemma js_walks_string : Walks Js.readString .sized :=
  walks_sized.map (fun raw => String.ofList (decodeReplacing raw))

lemma py_walks_option {α : Type} {read : Reader PyError α} {f : Slot} (h : Walks read f) :
    Walks (Py.readOption read) (.option f) := walks_option h

lemma js_walks_option {α : Type} {read : Reader JsError α} {f : Slot} (h : Walks read f) :
    Walks (Js.readOption read) (.option f) := walks_option h

lemma js_walks_pubkey : Walks (Js.readOptionPubkey fromBytes) (.option (.fixed 32)) := by
  unfold Js.readOptionPubkey
  apply js_walks_option
  intro data offset d offset' h
  simp only [bind_eq_ok] at h
  obtain ⟨⟨raw,middle⟩,hraw,_,-,h⟩ := h
  rw [← (Prod.mk.inj (pure_eq_ok.mp h)).2]
  exact walks_slice 32 data offset raw middle hraw

lemma decodeConfig_whole {c : ProtocolConfigAccount} (h : decodeConfig fromBytes data = .ok c) :
    Whole configLayout data := by
  obtain ⟨_,-,h⟩ := bind_eq_ok.mp h
  refine whole_of_end ((?_ : Covers configLayout data 8 _) c h)
  refine Covers.slot walks_byte fun _ => ?_
  refine Covers.slot py_walks_pubkey fun _ => ?_
  refine Covers.slot py_walks_pubkey fun _ => ?_
  refine Covers.slot py_walks_pubkey fun _ => ?_
  refine Covers.slot walks_byte fun _ => ?_
  refine Covers.slot walks_u64 fun _ => ?_
  refine Covers.slot walks_u64 fun _ => ?_
  refine Covers.slot walks_u64 fun _ => ?_
  refine Covers.slot walks_u64 fun _ => ?_
  exact Covers.last walks_u32 checks_u32

lemma decodeMarker_whole {m : BonsolAggregateVerificationAccount}
    (h : decodeMarker fromBytes data = .ok m) : Whole markerLayout data := by
  obtain ⟨_,-,h⟩ := bind_eq_ok.mp h
  refine whole_of_end ((?_ : Covers markerLayout data 8 _) m h)
  refine Covers.slot walks_byte fun _ => ?_
  refine Covers.slot py_walks_pubkey fun _ => ?_
  refine Covers.slot (walks_slice 32) fun _ => ?_
  refine Covers.slot (walks_slice 32) fun _ => ?_
  refine Covers.slot (walks_slice 32) fun _ => ?_
  refine Covers.slot (walks_slice 32) fun _ => ?_
  refine Covers.slot (walks_slice 32) fun _ => ?_
  refine Covers.slot walks_i64 fun _ => ?_
  exact Covers.last walks_byte checks_byte

/-- Both job decoders end with a checked byte, behind the options that a missing tag leaves out. -/
lemma decodeJobPy_whole {j : JobAccount} (h : decodeJobPy fromBytes data = .ok j) :
    Whole jobLayout data := by
  obtain ⟨_,-,h⟩ := bind_eq_ok.mp h
  refine whole_of_end ((?_ : Covers jobLayout data 8 _) j h)
  refine Covers.slot walks_byte fun _ => ?_
  refine Covers.slot walks_u64 fun _ => ?_
  refine Covers.slot py_walks_pubkey fun _ => ?_
  refine Covers.slot py_walks_pubkey fun _ => ?_
  refine Covers.slot walks_byte fun _ => ?_
  refine Covers.slot walks_u64 fun _ => ?_
  refine Covers.slot walks_u64 fun _ => ?_
  refine Covers.slot walks_byte fun _ => ?_
  refine Covers.slot walks_byte fun _ => ?_
  refine Covers.slot walks_byte fun _ => ?_
  refine Covers.slot (walks_slice 32) fun _ => ?_
  refine Covers.slot (walks_slice 32) fun _ => ?_
  refine Covers.slot walks_i64 fun _ => ?_
  refine Covers.slot walks_i64 fun _ => ?_
  refine Covers.slot walks_u32 fun _ => ?_
  refine Covers.slot walks_i64 fun _ => ?_
  refine Covers.slot walks_u32 fun _ => ?_
  refine Covers.slot walks_i64 fun _ => ?_
  refine Covers.slot walks_u64 fun _ => ?_
  refine Covers.slot py_walks_pubkey fun _ => ?_
  refine Covers.slot walks_byte fun _ => ?_
  refine Covers.slot walks_byte fun _ => ?_
  refine Covers.slot walks_byte fun _ => ?_
  refine Covers.slot walks_byte fun _ => ?_
  refine Covers.slot (walks_slice 32) fun _ => ?_
  refine Covers.slot (walks_slice 32) fun _ => ?_
  refine Covers.slot (walks_slice 32) fun _ => ?_
  refine Covers.slot py_walks_string fun _ => ?_
  refine Covers.slot py_walks_string fun _ => ?_
  refine Covers.slot walks_sized fun _ => ?_
  refine Covers.slot (py_walks_option py_walks_pubkey) fun _ => ?_
  refine Covers.slot (py_walks_option (walks_slice 32)) fun _ => ?_
  refine Covers.slot (py_walks_option py_walks_string) fun _ => ?_
  refine Covers.slot (py_walks_option walks_i64) fun _ => ?_
  refine Covers.slot (py_walks_option py_walks_pubkey) fun _ => ?_
  refine Covers.slot (py_walks_option walks_i64) fun _ => ?_
  exact Covers.last walks_byte checks_byte

lemma decodeJobJs_whole {j : JobAccount} (h : decodeJobJs fromBytes data = .ok j) :
    Whole jobLayout data := by
  obtain ⟨_,-,h⟩ := bind_eq_ok.mp h
  refine whole_of_end ((?_ : Covers jobLayout data 8 _) j h)
  refine Covers.slot walks_byte fun _ => ?_
  refine Covers.slot walks_u64 fun _ => ?_
  refine Covers.slot (walks_slice 32) fun _ => ?_
  refine Covers.slot (walks_slice 32) fun _ => ?_
  refine Covers.slot walks_byte fun _ => ?_
  refine Covers.slot walks_u64 fun _ => ?_
  refine Covers.slot walks_u64 fun _ => ?_
  refine Covers.slot walks_byte fun _ => ?_
  refine Covers.slot walks_byte fun _ => ?_
  refine Covers.slot walks_byte fun _ => ?_
  refine Covers.slot (walks_slice 32) fun _ => ?_
  refine Covers.slot (walks_slice 32) fun _ => ?_
  refine Covers.slot walks_i64 fun _ => ?_
  refine Covers.slot walks_i64 fun _ => ?_
  refine Covers.slot walks_u32 fun _ => ?_
  refine Covers.slot walks_i64 fun _ => ?_
  refine Covers.slot walks_u32 fun _ => ?_
  refine Covers.slot walks_i64 fun _ => ?_
  refine Covers.slot walks_u64 fun _ => ?_
  refine Covers.slot (walks_slice 32) fun _ => ?_
  refine Covers.slot walks_byte fun _ => ?_
  refine Covers.slot walks_byte fun _ => ?_
  refine Covers.slot walks_byte fun _ => ?_
  refine Covers.slot walks_byte fun _ => ?_
  refine Covers.slot (walks_slice 32) fun _ => ?_
  refine Covers.slot (walks_slice 32) fun _ => ?_
  refine Covers.slot (walks_slice 32) fun _ => ?_
  refine Covers.slot js_walks_string fun _ => ?_
  refine Covers.slot js_walks_string fun _ => ?_
  refine Covers.slot walks_sized fun _ => ?_
  refine Covers.slot js_walks_pubkey fun _ => ?_
  refine Covers.slot (js_walks_option (walks_slice 32)) fun _ => ?_
  refine Covers.slot (js_walks_option js_walks_string) fun _ => ?_
  refine Covers.slot (js_walks_option walks_i64) fun _ => ?_
  refine Covers.slot js_walks_pubkey fun _ => ?_
  refine Covers.slot (js_walks_option walks_i64) fun _ => ?_
  exact Covers.last walks_byte checks_byte

end Covered

section Workers
variable {fromBytes : Bytes → Option Digest} {data : Bytes}

/-- The slots of a worker account up to its role, the last one that is checked. -/
def workerHead : List Slot := workerLayout.take 8

lemma whole_worker_iff : Whole workerLayout data ↔ 157 ≤ data.length := by
  constructor
  · intro h
    exact h (125,157) (by simp [workerLayout,layoutSpans,Slot.spans,Slot.after])
  · exact fun h => whole_of_end h

lemma decodeWorkerPy_reaches {w : WorkerAccount} (h : decodeWorkerPy fromBytes data = .ok w) :
    data.take 8 = workerDisc ∧ 93 ≤ data.length := by
  obtain ⟨_,hdisc,h⟩ := bind_eq_ok.mp h
  refine ⟨not_not.mp (failIf_eq_ok.mp hdisc),(?_ : Covers workerHead data 8 _) w h⟩
  refine Covers.slot walks_byte fun _ => ?_
  refine Covers.slot py_walks_pubkey fun _ => ?_
  refine Covers.slot py_walks_pubkey fun _ => ?_
  refine Covers.slot walks_u64 fun _ => ?_
  refine Covers.slot walks_u16 fun _ => ?_
  refine Covers.slot walks_i64 fun _ => ?_
  refine Covers.slot walks_byte fun _ => ?_
  exact Covers.last walks_byte checks_byte

lemma decodeWorkerJs_reaches {w : WorkerAccount} (h : decodeWorkerJs fromBytes data = .ok w) :
    data.take 8 = workerDisc ∧ 93 ≤ data.length := by
  obtain ⟨_,hdisc,h⟩ := bind_eq_ok.mp h
  refine ⟨not_not.mp (failIf_eq_ok.mp hdisc),(?_ : Covers workerHead data 8 _) w h⟩
  refine Covers.slot walks_byte fun _ => ?_
  refine Covers.slot (walks_slice 32) fun _ => ?_
  refine Covers.slot (walks_slice 32) fun _ => ?_
  refine Covers.slot walks_u64 fun _ => ?_
  refine Covers.slot walks_u16 fun _ => ?_
  refine Covers.slot walks_i64 fun _ => ?_
  refine Covers.slot walks_byte fun _ => ?_
  exact Covers.last walks_byte checks_byte

lemma py_serves_pubkey (hk : MakesKeys fromBytes) :
    Serves (Py.readPubkey fromBytes) 32 (fun _ => True) := by
  intro data offset hfit
  obtain ⟨raw,hread,hlen⟩ := serves_slice 32 data offset hfit
  exact ⟨⟨raw,hlen⟩,bind_eq_ok.mpr ⟨_,hread,bind_eq_ok.mpr
    ⟨_,require_eq_ok.mpr (hk ⟨raw,hlen⟩),rfl⟩⟩,trivial⟩

/-- From the role on a worker account is accepted however it ends. -/
lemma decodeWorkerPy_accepts (hk : MakesKeys fromBytes) (hdisc : data.take 8 = workerDisc)
    (hlen : 93 ≤ data.length) : ∃ w, decodeWorkerPy fromBytes data = .ok w := by
  rw [decodeWorkerPy,failIf_of_not (not_not.mpr hdisc),ok_bind]
  refine Serves.bind (serves_byte _) (by omega) fun _ _ => ?_
  refine Serves.bind (py_serves_pubkey hk) (by omega) fun _ _ => ?_
  refine Serves.bind (py_serves_pubkey hk) (by omega) fun _ _ => ?_
  refine Serves.bind (serves_u64 _) (by omega) fun _ _ => ?_
  refine Serves.bind (serves_u16 _) (by omega) fun _ _ => ?_
  refine Serves.bind (serves_i64 _) (by omega) fun _ _ => ?_
  refine Serves.bind (serves_byte _) (by omega) fun _ _ => ?_
  refine Serves.bind (serves_byte _) (by omega) fun _ _ => ?_
  exact ⟨_,rfl⟩

lemma decodeWorkerJs_accepts (hk : MakesKeys fromBytes) (hdisc : data.take 8 = workerDisc)
    (hlen : 93 ≤ data.length) : ∃ w, decodeWorkerJs fromBytes data = .ok w := by
  rw [decodeWorkerJs,failIf_of_not (not_not.mpr hdisc),ok_bind]
  refine Serves.bind (serves_byte _) (by omega) fun _ _ => ?_
  refine Serves.bind (serves_slice 32) (by omega) fun authority hauthority => ?_
  refine Serves.bind (serves_slice 32) (by omega) fun vault hvault => ?_
  refine Serves.bind (serves_u64 _) (by omega) fun _ _ => ?_
  refine Serves.bind (serves_u16 _) (by omega) fun _ _ => ?_
  refine Serves.bind (serves_i64 _) (by omega) fun _ _ => ?_
  refine Serves.bind (serves_byte _) (by omega) fun _ _ => ?_
  refine Serves.bind (serves_byte _) (by omega) fun _ _ => ?_
  have hfirst := js_makeKey hk ⟨authority,hauthority⟩
  have hsecond := js_makeKey hk ⟨vault,hvault⟩
  exact ⟨_,bind_eq_ok.mpr ⟨_,rfl,bind_eq_ok.mpr ⟨_,rfl,bind_eq_ok.mpr
    ⟨_,hfirst,bind_eq_ok.mpr ⟨_,hsecond,rfl⟩⟩⟩⟩⟩

/-- A worker account cut between its role and the end of its digests. -/
def CutWorker (data : Bytes) : Prop :=
  data.take 8 = workerDisc ∧ 93 ≤ data.length ∧ data.length < 157

/-- A decoder that accepts exactly from the role on accepts only whole accounts, unless this one
is cut. -/
lemma whole_iff_not_cut {ε : Type} {decoded : Except ε WorkerAccount}
    (hreaches : ∀ w, decoded = .ok w → data.take 8 = workerDisc ∧ 93 ≤ data.length)
    (haccepts : data.take 8 = workerDisc → 93 ≤ data.length → ∃ w, decoded = .ok w) :
    (∀ w, decoded = .ok w → Whole workerLayout data) ↔ ¬CutWorker data := by
  constructor
  · intro hwhole hcut
    obtain ⟨hdisc,hhead,hshort⟩ := hcut
    obtain ⟨w,hw⟩ := haccepts hdisc hhead
    exact absurd (whole_worker_iff.mp (hwhole w hw)) (not_le.mpr hshort)
  · intro hcut w hw
    obtain ⟨hdisc,hhead⟩ := hreaches w hw
    rw [whole_worker_iff]
    by_contra hlt
    exact hcut ⟨hdisc,hhead,not_le.mp hlt⟩

/-- An accepted configuration, job or marker is whole in both clients, and so is an accepted worker
account exactly when it is not cut inside its last two digests. -/
theorem accepted_whole_iff {publicKey : Bytes → Option Digest} (hpy : MakesKeys fromBytes)
    (hjs : MakesKeys publicKey) (data : Bytes) :
    (∀ c, decodeConfig fromBytes data = .ok c → Whole configLayout data) ∧
    (∀ j, decodeJobPy fromBytes data = .ok j → Whole jobLayout data) ∧
    (∀ m, decodeMarker fromBytes data = .ok m → Whole markerLayout data) ∧
    (∀ j, decodeJobJs publicKey data = .ok j → Whole jobLayout data) ∧
    ((∀ w, decodeWorkerPy fromBytes data = .ok w → Whole workerLayout data) ↔ ¬CutWorker data) ∧
    ((∀ w, decodeWorkerJs publicKey data = .ok w → Whole workerLayout data) ↔ ¬CutWorker data) := by
  refine ⟨fun c => decodeConfig_whole,fun j => decodeJobPy_whole,fun m => decodeMarker_whole,
    fun j => decodeJobJs_whole,?_,?_⟩
  · exact whole_iff_not_cut (fun w => decodeWorkerPy_reaches) (decodeWorkerPy_accepts hpy)
  · exact whole_iff_not_cut (fun w => decodeWorkerJs_reaches) (decodeWorkerJs_accepts hjs)

/-- A worker account of ones, of so many bytes behind the discriminator. -/
def workerOfOnes (n : ℕ) : Bytes := workerDisc ++ List.replicate n 1

lemma workerOfOnes_disc (n : ℕ) : (workerOfOnes n).take 8 = workerDisc := by
  apply List.take_left'
  rw [workerDisc,List.length_take,(sha256 _).property]
  rfl

lemma workerOfOnes_length (n : ℕ) : (workerOfOnes n).length = 8 + n := by
  rw [workerOfOnes,List.length_append,List.length_replicate,workerDisc,List.length_take,
    (sha256 _).property]
  rfl

/-- All 157 bytes of it are accepted, and they are all there. -/
theorem full_worker_accepted :
    ∃ w, decodeWorkerPy keyOfBytes (workerOfOnes 149) = .ok w ∧
      Whole workerLayout (workerOfOnes 149) := by
  have hlen := workerOfOnes_length 149
  obtain ⟨w,hw⟩ := decodeWorkerPy_accepts makesKeys_keyOfBytes (workerOfOnes_disc 149) (by omega)
  obtain ⟨-,-,-,-,hworker,-⟩ :=
    accepted_whole_iff makesKeys_keyOfBytes makesKeys_keyOfBytes (workerOfOnes 149)
  exact ⟨w,hw,hworker.mpr (fun hcut => absurd hcut.2.2 (by omega)) w hw⟩

/-- What its first 93 bytes decode to: a worker with two empty digests. -/
def cutWorker : WorkerAccount where
  bump := 1
  authority := ⟨List.replicate 32 1,rfl⟩
  stakeVault := ⟨List.replicate 32 1,rfl⟩
  lockedStake := 0x0101010101010101
  activeClaims := 0x0101
  registeredAt := 0x0101010101010101
  status := 1
  role := 1
  capabilityClassHash := []
  softwareDigest := []

/-- Both clients accept the cut account. -/
theorem cut_worker_accepted :
    decodeWorkerPy keyOfBytes (workerOfOnes 85) = .ok cutWorker ∧
    decodeWorkerJs keyOfBytes (workerOfOnes 85) = .ok cutWorker ∧
    ¬Whole workerLayout (workerOfOnes 85) := by
  refine ⟨by decide +kernel,by decide +kernel,?_⟩
  rw [whole_worker_iff,workerOfOnes_length]
  decide

end Workers

end Kswarm.Accounts
