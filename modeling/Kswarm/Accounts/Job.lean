import Kswarm.Lib.Borsh

/-! The job account and its two decoders, `decode_job` of the command line (`protocol.py`,
`encoding.py`) and `decodeJob` of the JavaScript client (`protocol.mjs`, `common.mjs`). -/
namespace Kswarm.Accounts

/-- The fields of a decoded job. Hashes are slices of the account data. -/
structure JobAccount where
  bump : UInt8
  nonce : UInt64
  customer : Digest
  worker : Digest
  status : UInt8
  rewardAmount : UInt64
  requiredStake : UInt64
  jobClass : UInt8
  requiredRole : UInt8
  requiredTier : UInt8
  requiredCapabilityClassHash : Bytes
  requiredSoftwareDigest : Bytes
  createdAt : Int64
  claimDeadline : Int64
  executionWindowSeconds : UInt32
  executeDeadline : Int64
  challengeWindowSeconds : UInt32
  challengeDeadline : Int64
  challengeBond : UInt64
  challenger : Digest
  slashSettled : Bool
  escrowRefunded : Bool
  verifierRewardPaid : Bool
  customerSlashPaid : Bool
  inputBundleHash : Bytes
  expectedResultHash : Bytes
  submittedResultHash : Bytes
  inputCid : String
  outputCid : String
  resultBytes : Bytes
  verifierAuthority : Option Digest
  verifierAttestationHash : Option Bytes
  verifierEvidenceCid : Option String
  verifierAttestationUnix : Option Int64
  assignedVerifierAuthority : Option Digest
  assignedVerifierUnix : Option Int64
  reassignmentCounter : UInt8
  deriving DecidableEq

/-- A value of the program's account type: hashes of 32 bytes, lengths that fit their prefix. -/
structure Job extends JobAccount where
  capability_length : requiredCapabilityClassHash.length = 32
  software_length : requiredSoftwareDigest.length = 32
  bundle_length : inputBundleHash.length = 32
  expected_length : expectedResultHash.length = 32
  submitted_length : submittedResultHash.length = 32
  attestation_length : ∀ h ∈ verifierAttestationHash, h.length = 32
  input_sized : Sized (utf8 inputCid.toList).length
  output_sized : Sized (utf8 outputCid.toList).length
  result_sized : Sized resultBytes.length
  evidence_sized : ∀ s ∈ verifierEvidenceCid, Sized (utf8 s.toList).length

/-- `sha256("account:Job")[:8]`. -/
def jobDisc : Bytes := (sha256 (utf8 "account:Job".toList)).val.take 8

def key (d : Digest) : Bytes := d.val

/-- The account data in the program's field order. -/
def Job.borsh (j : Job) : Bytes :=
  [j.bump] ++ (borshU64 j.nonce ++ (key j.customer ++ (key j.worker ++ ([j.status] ++
  (borshU64 j.rewardAmount ++ (borshU64 j.requiredStake ++ ([j.jobClass] ++ ([j.requiredRole] ++
  ([j.requiredTier] ++ (j.requiredCapabilityClassHash ++ (j.requiredSoftwareDigest ++
  (borshI64 j.createdAt ++ (borshI64 j.claimDeadline ++ (borshU32 j.executionWindowSeconds ++
  (borshI64 j.executeDeadline ++ (borshU32 j.challengeWindowSeconds ++
  (borshI64 j.challengeDeadline ++ (borshU64 j.challengeBond ++ (key j.challenger ++
  (borshBool j.slashSettled ++ (borshBool j.escrowRefunded ++ (borshBool j.verifierRewardPaid ++
  (borshBool j.customerSlashPaid ++ (j.inputBundleHash ++ (j.expectedResultHash ++
  (j.submittedResultHash ++ (borshString j.inputCid ++ (borshString j.outputCid ++
  (borshVec j.resultBytes ++ (borshOption key j.verifierAuthority ++
  (borshOption id j.verifierAttestationHash ++ (borshOption borshString j.verifierEvidenceCid ++
  (borshOption borshI64 j.verifierAttestationUnix ++
  (borshOption key j.assignedVerifierAuthority ++ (borshOption borshI64 j.assignedVerifierUnix ++
  [j.reassignmentCounter])))))))))))))))))))))))))))))))))))

section Python

/-- What the command line's decoder raises. -/
inductive PyError where
  | indexError
  | structError
  | unicodeDecodeError
  | badPubkey
  | invalidOptionTag (tag : UInt8)
  | unexpectedDiscriminator
  deriving DecidableEq

namespace Py

def readU8 : Reader PyError UInt8 := readByteAt .indexError

def readU32 : Reader PyError UInt32 := readU32Of .structError

def readU64 : Reader PyError UInt64 := readU64Of .structError

def readI64 : Reader PyError Int64 := readI64Of .structError

def readBytes (length : ℕ) : Reader PyError Bytes := readSlice length

def readVec : Reader PyError Bytes := readSized readU32

def readString : Reader PyError String := fun data offset => do
  let (raw,offset) ← readSized readU32 data offset
  let text ← require (decodeUtf8 raw) .unicodeDecodeError
  pure (String.ofList text,offset)

def readOption {α : Type} (read : Reader PyError α) : Reader PyError (Option α) :=
  readOptionOf readU8 .invalidOptionTag read

/-- `_read_pubkey`, over the constructor of the key library. -/
def readPubkey (fromBytes : Bytes → Option Digest) : Reader PyError Digest := fun data offset => do
  let (raw,offset) ← readBytes 32 data offset
  let key ← require (fromBytes raw) .badPubkey
  pure (key,offset)

end Py

open Py in
/-- `decode_job`. `fromBytes` is the key library's constructor. -/
def decodeJobPy (fromBytes : Bytes → Option Digest) (data : Bytes) : Except PyError JobAccount := do
  failIf (data.take 8 ≠ jobDisc) .unexpectedDiscriminator
  let (bump,offset) ← readU8 data 8
  let (nonce,offset) ← readU64 data offset
  let (customer,offset) ← readPubkey fromBytes data offset
  let (worker,offset) ← readPubkey fromBytes data offset
  let (status,offset) ← readU8 data offset
  let (rewardAmount,offset) ← readU64 data offset
  let (requiredStake,offset) ← readU64 data offset
  let (jobClass,offset) ← readU8 data offset
  let (requiredRole,offset) ← readU8 data offset
  let (requiredTier,offset) ← readU8 data offset
  let (requiredCapabilityClassHash,offset) ← readBytes 32 data offset
  let (requiredSoftwareDigest,offset) ← readBytes 32 data offset
  let (createdAt,offset) ← readI64 data offset
  let (claimDeadline,offset) ← readI64 data offset
  let (executionWindowSeconds,offset) ← readU32 data offset
  let (executeDeadline,offset) ← readI64 data offset
  let (challengeWindowSeconds,offset) ← readU32 data offset
  let (challengeDeadline,offset) ← readI64 data offset
  let (challengeBond,offset) ← readU64 data offset
  let (challenger,offset) ← readPubkey fromBytes data offset
  let (slashSettledRaw,offset) ← readU8 data offset
  let (escrowRefundedRaw,offset) ← readU8 data offset
  let (verifierRewardPaidRaw,offset) ← readU8 data offset
  let (customerSlashPaidRaw,offset) ← readU8 data offset
  let (inputBundleHash,offset) ← readBytes 32 data offset
  let (expectedResultHash,offset) ← readBytes 32 data offset
  let (submittedResultHash,offset) ← readBytes 32 data offset
  let (inputCid,offset) ← readString data offset
  let (outputCid,offset) ← readString data offset
  let (resultBytes,offset) ← readVec data offset
  let (verifierAuthority,offset) ← readOption (readPubkey fromBytes) data offset
  let (verifierAttestationHash,offset) ← readOption (readBytes 32) data offset
  let (verifierEvidenceCid,offset) ← readOption readString data offset
  let (verifierAttestationUnix,offset) ← readOption readI64 data offset
  let (assignedVerifierAuthority,offset) ← readOption (readPubkey fromBytes) data offset
  let (assignedVerifierUnix,offset) ← readOption readI64 data offset
  let (reassignmentCounter,_) ← readU8 data offset
  pure {
    bump,nonce,customer,worker,status,rewardAmount,requiredStake,jobClass,requiredRole
    requiredTier,requiredCapabilityClassHash,requiredSoftwareDigest,createdAt,claimDeadline
    executionWindowSeconds,executeDeadline,challengeWindowSeconds,challengeDeadline
    challengeBond,challenger
    slashSettled := slashSettledRaw ≠ 0,escrowRefunded := escrowRefundedRaw ≠ 0
    verifierRewardPaid := verifierRewardPaidRaw ≠ 0,customerSlashPaid := customerSlashPaidRaw ≠ 0
    inputBundleHash,expectedResultHash,submittedResultHash,inputCid,outputCid,resultBytes
    verifierAuthority,verifierAttestationHash,verifierEvidenceCid,verifierAttestationUnix
    assignedVerifierAuthority,assignedVerifierUnix,reassignmentCounter }

end Python

section JavaScript

/-- What the client's decoder throws. -/
inductive JsError where
  | rangeError
  | badPublicKey
  | invalidOptionTag (tag : UInt8)
  | unexpectedDiscriminator
  deriving DecidableEq

namespace Js

def readU8 : Reader JsError UInt8 := readByteAt .rangeError

def readU32 : Reader JsError UInt32 := readU32Of .rangeError

/-- `readBigUInt64LE`. -/
def readU64 : Reader JsError UInt64 := readU64Of .rangeError

/-- `readBigInt64LE`. -/
def readI64 : Reader JsError Int64 := readI64Of .rangeError

/-- `subarray`, which is short where the buffer ends. -/
def readBytes (length : ℕ) : Reader JsError Bytes := readSlice length

/-- `toString("utf8")` replaces malformed bytes. -/
def readString : Reader JsError String := fun data offset => do
  let (raw,offset) ← readSized readU32 data offset
  pure (String.ofList (decodeReplacing raw),offset)

def readVec : Reader JsError Bytes := readSized readU32

def readOption {α : Type} (readSome : Reader JsError α) : Reader JsError (Option α) :=
  readOptionOf readU8 .invalidOptionTag readSome

/-- `new PublicKey(value)`. -/
def makeKey (publicKey : Bytes → Option Digest) (value : Bytes) : Except JsError Digest :=
  require (publicKey value) .badPublicKey

def readOptionPubkey (publicKey : Bytes → Option Digest) : Reader JsError (Option Digest) :=
  readOption (fun data offset => do
    let (value,offset) ← readBytes 32 data offset
    let key ← makeKey publicKey value
    pure (key,offset))

def readOptionBytes32 : Reader JsError (Option Bytes) := readOption (readBytes 32)

def readOptionString : Reader JsError (Option String) := readOption readString

def readOptionI64 : Reader JsError (Option Int64) := readOption readI64

end Js

open Js in
/-- `decodeJob`. `publicKey` is the web3 library's constructor; three keys are built at the end. -/
def decodeJobJs (publicKey : Bytes → Option Digest) (data : Bytes) : Except JsError JobAccount := do
  failIf (data.take 8 ≠ jobDisc) .unexpectedDiscriminator
  let (bump,offset) ← readU8 data 8
  let (nonce,offset) ← readU64 data offset
  let (customer,offset) ← readBytes 32 data offset
  let (worker,offset) ← readBytes 32 data offset
  let (status,offset) ← readU8 data offset
  let (rewardAmount,offset) ← readU64 data offset
  let (requiredStake,offset) ← readU64 data offset
  let (jobClass,offset) ← readU8 data offset
  let (requiredRole,offset) ← readU8 data offset
  let (requiredTier,offset) ← readU8 data offset
  let (requiredCapabilityClassHash,offset) ← readBytes 32 data offset
  let (requiredSoftwareDigest,offset) ← readBytes 32 data offset
  let (createdAt,offset) ← readI64 data offset
  let (claimDeadline,offset) ← readI64 data offset
  let (executionWindowSeconds,offset) ← readU32 data offset
  let (executeDeadline,offset) ← readI64 data offset
  let (challengeWindowSeconds,offset) ← readU32 data offset
  let (challengeDeadline,offset) ← readI64 data offset
  let (challengeBond,offset) ← readU64 data offset
  let (challenger,offset) ← readBytes 32 data offset
  let (slashSettled,offset) ← readU8 data offset
  let (escrowRefunded,offset) ← readU8 data offset
  let (verifierRewardPaid,offset) ← readU8 data offset
  let (customerSlashPaid,offset) ← readU8 data offset
  let (inputBundleHash,offset) ← readBytes 32 data offset
  let (expectedResultHash,offset) ← readBytes 32 data offset
  let (submittedResultHash,offset) ← readBytes 32 data offset
  let (inputCid,offset) ← readString data offset
  let (outputCid,offset) ← readString data offset
  let (resultBytes,offset) ← readVec data offset
  let (verifierAuthority,offset) ← readOptionPubkey publicKey data offset
  let (verifierAttestationHash,offset) ← readOptionBytes32 data offset
  let (verifierEvidenceCid,offset) ← readOptionString data offset
  let (verifierAttestationUnix,offset) ← readOptionI64 data offset
  let (assignedVerifierAuthority,offset) ← readOptionPubkey publicKey data offset
  let (assignedVerifierUnix,offset) ← readOptionI64 data offset
  let (reassignmentCounter,_) ← readU8 data offset
  let customer ← makeKey publicKey customer
  let worker ← makeKey publicKey worker
  let challenger ← makeKey publicKey challenger
  pure {
    bump,nonce,customer,worker,status,rewardAmount,requiredStake,jobClass,requiredRole
    requiredTier,requiredCapabilityClassHash,requiredSoftwareDigest,createdAt,claimDeadline
    executionWindowSeconds,executeDeadline,challengeWindowSeconds,challengeDeadline
    challengeBond,challenger
    slashSettled := slashSettled ≠ 0,escrowRefunded := escrowRefunded ≠ 0
    verifierRewardPaid := verifierRewardPaid ≠ 0,customerSlashPaid := customerSlashPaid ≠ 0
    inputBundleHash,expectedResultHash,submittedResultHash,inputCid,outputCid,resultBytes
    verifierAuthority,verifierAttestationHash,verifierEvidenceCid,verifierAttestationUnix
    assignedVerifierAuthority,assignedVerifierUnix,reassignmentCounter }

end JavaScript

section Fields

lemma bool_of_borsh (b : Bool) : decide ((if b then (1 : UInt8) else 0) ≠ 0) = b := by
  cases b <;> rfl

lemma py_string {s : String} (h : Sized (utf8 s.toList).length) :
    Reads Py.readString (borshString s) s := by
  intro data offset rest hd
  obtain ⟨offset',hread,hrest⟩ := reads_sized (fun n => reads_u32 n _) h data offset rest hd
  refine ⟨offset',bind_eq_ok.mpr ⟨_,hread,?_⟩,hrest⟩
  simp only [decodeUtf8_utf8]
  simp [require,bind,Except.bind,pure,Except.pure]

lemma js_string {s : String} (h : Sized (utf8 s.toList).length) :
    Reads Js.readString (borshString s) s := by
  intro data offset rest hd
  obtain ⟨offset',hread,hrest⟩ := reads_sized (fun n => reads_u32 n _) h data offset rest hd
  refine ⟨offset',bind_eq_ok.mpr ⟨_,hread,?_⟩,hrest⟩
  simp [decodeReplacing_utf8,pure,Except.pure]

/-- The key library's constructor takes any 32 bytes as they are. -/
def MakesKeys (fromBytes : Bytes → Option Digest) : Prop :=
  ∀ d : Digest, fromBytes d.val = some d

lemma py_pubkey {fromBytes : Bytes → Option Digest} (h : MakesKeys fromBytes) (d : Digest) :
    Reads (Py.readPubkey fromBytes) (key d) d := by
  intro data offset rest hd
  obtain ⟨offset',hread,hrest⟩ := reads_slice d.property data offset rest hd
  refine ⟨offset',bind_eq_ok.mpr ⟨_,hread,?_⟩,hrest⟩
  simp only [h d]
  rfl

lemma js_makeKey {publicKey : Bytes → Option Digest} (h : MakesKeys publicKey) (d : Digest) :
    Js.makeKey publicKey (key d) = .ok d := by
  rw [Js.makeKey,key,h d]
  rfl

lemma js_key (d : Digest) : Reads (Js.readBytes 32) (key d) (key d) :=
  reads_slice d.property

lemma js_pubkey {publicKey : Bytes → Option Digest} (h : MakesKeys publicKey) (o : Option Digest) :
    Reads (Js.readOptionPubkey publicKey) (borshOption key o) o := by
  unfold Js.readOptionPubkey Js.readOption Js.readU8
  refine reads_option (fun b => reads_byte b _) _ (fun d _ => ?_)
  intro data offset rest hd
  obtain ⟨offset',hread,hrest⟩ := reads_slice d.property data offset rest hd
  exact ⟨offset',bind_eq_ok.mpr ⟨_,hread,bind_eq_ok.mpr ⟨d,js_makeKey h d,rfl⟩⟩,hrest⟩

lemma py_option {α : Type} {read : Reader PyError α} {code : α → Bytes} {o : Option α}
    (h : ∀ a ∈ o, Reads read (code a) a) : Reads (Py.readOption read) (borshOption code o) o :=
  reads_option (fun b => reads_byte b _) _ h

lemma js_option {α : Type} {read : Reader JsError α} {code : α → Bytes} {o : Option α}
    (h : ∀ a ∈ o, Reads read (code a) a) : Reads (Js.readOption read) (borshOption code o) o :=
  reads_option (fun b => reads_byte b _) _ h

end Fields
section Faithful
variable {fromBytes : Bytes → Option Digest} (j : Job) (n : ℕ)

/-- The account as the chain stores it: the value behind its discriminator, padded with zeros. -/
def Job.data (j : Job) (n : ℕ) : Bytes := jobDisc ++ j.borsh ++ List.replicate n 0

lemma jobDisc_length : jobDisc.length = 8 := by
  rw [jobDisc,List.length_take,(sha256 _).property]
  rfl

lemma data_take : (j.data n).take 8 = jobDisc := by
  rw [Job.data,List.append_assoc]
  exact List.take_left' jobDisc_length

lemma data_drop : (j.data n).drop 8 = j.borsh ++ List.replicate n 0 := by
  rw [Job.data,List.append_assoc]
  exact List.drop_left' jobDisc_length

lemma decodeJobPy_data (hk : MakesKeys fromBytes) :
    decodeJobPy fromBytes (j.data n) = .ok j.toJobAccount := by
  have hd := data_drop j n
  simp only [Job.borsh,List.append_assoc] at hd
  rw [decodeJobPy,failIf_of_not (fun h => h (data_take j n)),ok_bind]
  refine Reads.bind (reads_byte _ _) hd fun o hd => ?_
  refine Reads.bind (reads_u64 _ _) hd fun o hd => ?_
  refine Reads.bind (py_pubkey hk _) hd fun o hd => ?_
  refine Reads.bind (py_pubkey hk _) hd fun o hd => ?_
  refine Reads.bind (reads_byte _ _) hd fun o hd => ?_
  refine Reads.bind (reads_u64 _ _) hd fun o hd => ?_
  refine Reads.bind (reads_u64 _ _) hd fun o hd => ?_
  refine Reads.bind (reads_byte _ _) hd fun o hd => ?_
  refine Reads.bind (reads_byte _ _) hd fun o hd => ?_
  refine Reads.bind (reads_byte _ _) hd fun o hd => ?_
  refine Reads.bind (reads_slice j.capability_length) hd fun o hd => ?_
  refine Reads.bind (reads_slice j.software_length) hd fun o hd => ?_
  refine Reads.bind (reads_i64 _ _) hd fun o hd => ?_
  refine Reads.bind (reads_i64 _ _) hd fun o hd => ?_
  refine Reads.bind (reads_u32 _ _) hd fun o hd => ?_
  refine Reads.bind (reads_i64 _ _) hd fun o hd => ?_
  refine Reads.bind (reads_u32 _ _) hd fun o hd => ?_
  refine Reads.bind (reads_i64 _ _) hd fun o hd => ?_
  refine Reads.bind (reads_u64 _ _) hd fun o hd => ?_
  refine Reads.bind (py_pubkey hk _) hd fun o hd => ?_
  refine Reads.bind (reads_byte _ _) hd fun o hd => ?_
  refine Reads.bind (reads_byte _ _) hd fun o hd => ?_
  refine Reads.bind (reads_byte _ _) hd fun o hd => ?_
  refine Reads.bind (reads_byte _ _) hd fun o hd => ?_
  refine Reads.bind (reads_slice j.bundle_length) hd fun o hd => ?_
  refine Reads.bind (reads_slice j.expected_length) hd fun o hd => ?_
  refine Reads.bind (reads_slice j.submitted_length) hd fun o hd => ?_
  refine Reads.bind (py_string j.input_sized) hd fun o hd => ?_
  refine Reads.bind (py_string j.output_sized) hd fun o hd => ?_
  refine Reads.bind (reads_sized (fun n => reads_u32 n _) j.result_sized) hd fun o hd => ?_
  refine Reads.bind (py_option (fun d _ => py_pubkey hk d)) hd fun o hd => ?_
  refine Reads.bind (py_option (fun h hm => reads_slice (j.attestation_length h hm))) hd fun o hd => ?_
  refine Reads.bind (py_option (fun s hm => py_string (j.evidence_sized s hm))) hd fun o hd => ?_
  refine Reads.bind (py_option (fun t _ => reads_i64 t _)) hd fun o hd => ?_
  refine Reads.bind (py_option (fun d _ => py_pubkey hk d)) hd fun o hd => ?_
  refine Reads.bind (py_option (fun t _ => reads_i64 t _)) hd fun o hd => ?_
  refine Reads.bind (reads_byte _ _) hd fun o hd => ?_
  simp only [bool_of_borsh]
  rfl

lemma decodeJobJs_data (hk : MakesKeys fromBytes) :
    decodeJobJs fromBytes (j.data n) = .ok j.toJobAccount := by
  have hd := data_drop j n
  simp only [Job.borsh,List.append_assoc] at hd
  rw [decodeJobJs,failIf_of_not (fun h => h (data_take j n)),ok_bind]
  refine Reads.bind (reads_byte _ _) hd fun o hd => ?_
  refine Reads.bind (reads_u64 _ _) hd fun o hd => ?_
  refine Reads.bind (js_key _) hd fun o hd => ?_
  refine Reads.bind (js_key _) hd fun o hd => ?_
  refine Reads.bind (reads_byte _ _) hd fun o hd => ?_
  refine Reads.bind (reads_u64 _ _) hd fun o hd => ?_
  refine Reads.bind (reads_u64 _ _) hd fun o hd => ?_
  refine Reads.bind (reads_byte _ _) hd fun o hd => ?_
  refine Reads.bind (reads_byte _ _) hd fun o hd => ?_
  refine Reads.bind (reads_byte _ _) hd fun o hd => ?_
  refine Reads.bind (reads_slice j.capability_length) hd fun o hd => ?_
  refine Reads.bind (reads_slice j.software_length) hd fun o hd => ?_
  refine Reads.bind (reads_i64 _ _) hd fun o hd => ?_
  refine Reads.bind (reads_i64 _ _) hd fun o hd => ?_
  refine Reads.bind (reads_u32 _ _) hd fun o hd => ?_
  refine Reads.bind (reads_i64 _ _) hd fun o hd => ?_
  refine Reads.bind (reads_u32 _ _) hd fun o hd => ?_
  refine Reads.bind (reads_i64 _ _) hd fun o hd => ?_
  refine Reads.bind (reads_u64 _ _) hd fun o hd => ?_
  refine Reads.bind (js_key _) hd fun o hd => ?_
  refine Reads.bind (reads_byte _ _) hd fun o hd => ?_
  refine Reads.bind (reads_byte _ _) hd fun o hd => ?_
  refine Reads.bind (reads_byte _ _) hd fun o hd => ?_
  refine Reads.bind (reads_byte _ _) hd fun o hd => ?_
  refine Reads.bind (reads_slice j.bundle_length) hd fun o hd => ?_
  refine Reads.bind (reads_slice j.expected_length) hd fun o hd => ?_
  refine Reads.bind (reads_slice j.submitted_length) hd fun o hd => ?_
  refine Reads.bind (js_string j.input_sized) hd fun o hd => ?_
  refine Reads.bind (js_string j.output_sized) hd fun o hd => ?_
  refine Reads.bind (reads_sized (fun n => reads_u32 n _) j.result_sized) hd fun o hd => ?_
  refine Reads.bind (js_pubkey hk _) hd fun o hd => ?_
  refine Reads.bind (js_option (fun h hm => reads_slice (j.attestation_length h hm))) hd fun o hd => ?_
  refine Reads.bind (js_option (fun s hm => js_string (j.evidence_sized s hm))) hd fun o hd => ?_
  refine Reads.bind (js_option (fun t _ => reads_i64 t _)) hd fun o hd => ?_
  refine Reads.bind (js_pubkey hk _) hd fun o hd => ?_
  refine Reads.bind (js_option (fun t _ => reads_i64 t _)) hd fun o hd => ?_
  refine Reads.bind (reads_byte _ _) hd fun o hd => ?_
  simp only [js_makeKey hk,ok_bind,bool_of_borsh]
  rfl

/-- Both clients recover every field of every job behind any padding. -/
theorem decodeJob_faithful {publicKey : Bytes → Option Digest} (hpy : MakesKeys fromBytes)
    (hjs : MakesKeys publicKey) (j : Job) (n : ℕ) :
    decodeJobPy fromBytes (jobDisc ++ j.borsh ++ List.replicate n 0) = .ok j.toJobAccount ∧
    decodeJobJs publicKey (jobDisc ++ j.borsh ++ List.replicate n 0) = .ok j.toJobAccount :=
  ⟨decodeJobPy_data j n hpy,decodeJobJs_data j n hjs⟩

/-- A constructor that takes 32 bytes and nothing else. -/
def keyOfBytes (b : Bytes) : Option Digest := if h : b.length = 32 then some ⟨b,h⟩ else none

lemma makesKeys_keyOfBytes : MakesKeys keyOfBytes := by
  intro d
  rw [keyOfBytes,dif_pos d.property]

def someKey : Digest := ⟨List.replicate 32 9,rfl⟩

/-- A finished job with a non-ASCII path and some of its options present. -/
def finishedJob : Job where
  bump := 254
  nonce := 7
  customer := someKey
  worker := someKey
  status := 4
  rewardAmount := 1000
  requiredStake := 500
  jobClass := 1
  requiredRole := 0
  requiredTier := 2
  requiredCapabilityClassHash := List.replicate 32 3
  requiredSoftwareDigest := List.replicate 32 4
  createdAt := -1
  claimDeadline := 10
  executionWindowSeconds := 60
  executeDeadline := 70
  challengeWindowSeconds := 30
  challengeDeadline := 100
  challengeBond := 9
  challenger := someKey
  slashSettled := false
  escrowRefunded := true
  verifierRewardPaid := false
  customerSlashPaid := true
  inputBundleHash := List.replicate 32 5
  expectedResultHash := List.replicate 32 6
  submittedResultHash := List.replicate 32 7
  inputCid := "bafyé"
  outputCid := ""
  resultBytes := [0,1,255]
  verifierAuthority := some someKey
  verifierAttestationHash := none
  verifierEvidenceCid := some "é"
  verifierAttestationUnix := none
  assignedVerifierAuthority := none
  assignedVerifierUnix := some 12
  reassignmentCounter := 1
  capability_length := rfl
  software_length := rfl
  bundle_length := rfl
  expected_length := rfl
  submitted_length := rfl
  attestation_length := by simp
  input_sized := by decide
  output_sized := by decide
  result_sized := by decide
  evidence_sized := by decide

theorem decodeJob_faithful_finished :
    decodeJobPy keyOfBytes (jobDisc ++ finishedJob.borsh ++ List.replicate 3 0) =
      .ok finishedJob.toJobAccount ∧
    decodeJobJs keyOfBytes (jobDisc ++ finishedJob.borsh ++ List.replicate 3 0) =
      .ok finishedJob.toJobAccount :=
  decodeJob_faithful makesKeys_keyOfBytes makesKeys_keyOfBytes finishedJob 3

end Faithful
end Kswarm.Accounts
