import Kswarm.Accounts.Truncated

/-! The accounts of the program as a cluster lists them, and what the clients make of a listing
(`protocol.py`, `protocol.mjs`, `main.py`). Four kinds of account are told apart by their first
eight bytes; accounts of other kinds may stand between them. -/
namespace Kswarm.Accounts
open Accounts.Py Accounts.Js

/-- A value of the worker account type. -/
structure Worker extends WorkerAccount where
  capability_length : capabilityClassHash.length = 32
  software_length : softwareDigest.length = 32

/-- A value of the marker account type. -/
structure Marker extends BonsolAggregateVerificationAccount where
  execution_length : executionId.length = 32
  image_length : imageId.length = 32
  input_length : inputDigest.length = 32
  output_length : outputDigest.length = 32
  journal_length : journalHash.length = 32

def borshU16 (n : UInt16) : Bytes := leBytes 2 n.toNat

def ProtocolConfigAccount.borsh (c : ProtocolConfigAccount) : Bytes :=
  [c.bump] ++ (key c.admin ++ (key c.paymentMint ++ (key c.tokenProgram ++ ([c.paymentDecimals] ++
  (borshU64 c.tierOneStakeFloor ++ (borshU64 c.tierTwoStakeFloor ++
  (borshU64 c.tierThreeStakeFloor ++ (borshU64 c.verifierStakeFloor ++
  borshU32 c.minChallengeWindowSeconds))))))))

def Worker.borsh (w : Worker) : Bytes :=
  [w.bump] ++ (key w.authority ++ (key w.stakeVault ++ (borshU64 w.lockedStake ++
  (borshU16 w.activeClaims ++ (borshI64 w.registeredAt ++ ([w.status] ++ ([w.role] ++
  (w.capabilityClassHash ++ w.softwareDigest))))))))

def Marker.borsh (m : Marker) : Bytes :=
  [m.bump] ++ (key m.aggregateJob ++ (m.executionId ++ (m.imageId ++ (m.inputDigest ++
  (m.outputDigest ++ (m.journalHash ++ (borshI64 m.callbackUnix ++ [m.status])))))))

inductive AccountKind where
  | config
  | worker
  | job
  | marker
  deriving DecidableEq

namespace AccountKind

/-- The first eight bytes of an account of the kind. -/
def disc : AccountKind → Bytes
  | config => configDisc
  | worker => workerDisc
  | job => jobDisc
  | marker => markerDisc

/-- The discriminators, evaluated. -/
def discBytes : AccountKind → Bytes
  | config => [0xcf,0x5b,0xfa,0x1c,0x98,0xb3,0xd7,0xd1]
  | worker => [0xe0,0x9e,0x61,0x05,0xe0,0xf1,0x43,0x92]
  | job => [0x4b,0x7c,0x50,0xcb,0xa1,0xb4,0xca,0x50]
  | marker => [0x38,0xfd,0x61,0x1b,0xae,0x27,0x44,0xb6]

lemma disc_eq (k : AccountKind) : k.disc = k.discBytes := by
  cases k <;> decide +kernel

@[simp] lemma disc_length (k : AccountKind) : k.disc.length = 8 := by
  rw [disc_eq]
  cases k <;> rfl

/-- No kind is mistaken for another one. -/
lemma disc_injective : Function.Injective disc := by
  intro k l h
  rw [disc_eq,disc_eq] at h
  cases k <;> cases l <;> first | rfl | exact absurd h (by decide)

end AccountKind

/-- An account of the program. -/
inductive ProgramAccount where
  | config (c : ProtocolConfigAccount)
  | worker (w : Worker)
  | job (j : Job)
  | marker (m : Marker)
  | other (body : Bytes) (h : ∀ k : AccountKind, body.take 8 ≠ k.disc)

namespace ProgramAccount

def kind? : ProgramAccount → Option AccountKind
  | config _ => some .config
  | worker _ => some .worker
  | job _ => some .job
  | marker _ => some .marker
  | other .. => none

def config? : ProgramAccount → Option ProtocolConfigAccount
  | config c => some c
  | _ => none

def worker? : ProgramAccount → Option WorkerAccount
  | worker w => some w.toWorkerAccount
  | _ => none

def job? : ProgramAccount → Option JobAccount
  | job j => some j.toJobAccount
  | _ => none

def marker? : ProgramAccount → Option BonsolAggregateVerificationAccount
  | marker m => some m.toBonsolAggregateVerificationAccount
  | _ => none

end ProgramAccount

/-- One account of a listing, with the zeros it is padded with. -/
structure Listed where
  pubkey : Digest
  account : ProgramAccount
  padding : ℕ

namespace Listed

/-- The account data: the value behind its discriminator, padded with zeros. -/
def data (l : Listed) : Bytes :=
  match l.account with
  | .config c => configDisc ++ (c.borsh ++ List.replicate l.padding 0)
  | .worker w => workerDisc ++ (w.borsh ++ List.replicate l.padding 0)
  | .job j => j.data l.padding
  | .marker m => markerDisc ++ (m.borsh ++ List.replicate l.padding 0)
  | .other body _ => body

def entry (l : Listed) : Digest × Bytes := (l.pubkey,l.data)

end Listed

section Clients

/-- `iter_program_accounts`, of the decoded answer. -/
def iterProgramAccounts (entries : List (Digest × Bytes)) (discriminator : Bytes) :
    List (Digest × Bytes) :=
  entries.filter (fun p => discriminator.isPrefixOf p.2)

/-- The accounts that were picked, each decoded. -/
def decodeEach {ε α : Type} (decode : Bytes → Except ε α) (entries : List (Digest × Bytes)) :
    Except ε (List (Digest × α)) :=
  entries.mapM (fun p => do
    let account ← decode p.2
    pure (p.1,account))

def fetchAllJobs (fromBytes : Bytes → Option Digest) (entries : List (Digest × Bytes)) :
    Except PyError (List (Digest × JobAccount)) :=
  decodeEach (decodeJobPy fromBytes) (iterProgramAccounts entries jobDisc)

def fetchAllMarkers (fromBytes : Bytes → Option Digest) (entries : List (Digest × Bytes)) :
    Except PyError (List (Digest × BonsolAggregateVerificationAccount)) :=
  decodeEach (decodeMarker fromBytes) (iterProgramAccounts entries markerDisc)

/-- `fetchAllJobs` of the JavaScript client. -/
def fetchAllJobsJs (publicKey : Bytes → Option Digest) (entries : List (Digest × Bytes)) :
    Except JsError (List (Digest × JobAccount)) :=
  decodeEach (decodeJobJs publicKey) (entries.filter (fun p => p.2.take 8 = jobDisc))

/-- What `settle-aggregate` raises before it sends anything. -/
inductive MarkerError where
  | decoding (e : PyError)
  | notFound (jobKey : Digest)
  | multiple (jobKey : Digest)

/-- `_find_marker_for_job`. -/
def findMarkerForJob (fromBytes : Bytes → Option Digest) (entries : List (Digest × Bytes))
    (jobKey : Digest) : Except MarkerError Digest := do
  let markers ← (fetchAllMarkers fromBytes entries).mapError .decoding
  match (markers.filter (fun p => p.2.aggregateJob = jobKey)).map Prod.fst with
  | [] => .error (.notFound jobKey)
  | [marker] => .ok marker
  | _ => .error (.multiple jobKey)

end Clients

section Decoders
variable {fromBytes : Bytes → Option Digest}

lemma reads_u16 {ε : Type} (n : UInt16) (short : ε) :
    Reads (readU16Of short) (borshU16 n) n := by
  have h := (reads_le (by decide : 0 < 2) n.toNat_lt short).map UInt16.ofNat
  rwa [UInt16.ofNat_toNat] at h

lemma decodeConfig_data (hk : MakesKeys fromBytes) (c : ProtocolConfigAccount) {data r : Bytes}
    (ht : data.take 8 = configDisc) (hd : data.drop 8 = c.borsh ++ r) :
    decodeConfig fromBytes data = .ok c := by
  simp only [ProtocolConfigAccount.borsh,List.append_assoc] at hd
  rw [decodeConfig,failIf_of_not (fun h => h ht),ok_bind]
  refine Reads.bind (reads_byte _ _) hd fun o hd => ?_
  refine Reads.bind (py_pubkey hk _) hd fun o hd => ?_
  refine Reads.bind (py_pubkey hk _) hd fun o hd => ?_
  refine Reads.bind (py_pubkey hk _) hd fun o hd => ?_
  refine Reads.bind (reads_byte _ _) hd fun o hd => ?_
  refine Reads.bind (reads_u64 _ _) hd fun o hd => ?_
  refine Reads.bind (reads_u64 _ _) hd fun o hd => ?_
  refine Reads.bind (reads_u64 _ _) hd fun o hd => ?_
  refine Reads.bind (reads_u64 _ _) hd fun o hd => ?_
  refine Reads.bind (reads_u32 _ _) hd fun o hd => ?_
  rfl

lemma decodeWorkerPy_data (hk : MakesKeys fromBytes) (w : Worker) {data r : Bytes}
    (ht : data.take 8 = workerDisc) (hd : data.drop 8 = w.borsh ++ r) :
    decodeWorkerPy fromBytes data = .ok w.toWorkerAccount := by
  simp only [Worker.borsh,List.append_assoc] at hd
  rw [decodeWorkerPy,failIf_of_not (fun h => h ht),ok_bind]
  refine Reads.bind (reads_byte _ _) hd fun o hd => ?_
  refine Reads.bind (py_pubkey hk _) hd fun o hd => ?_
  refine Reads.bind (py_pubkey hk _) hd fun o hd => ?_
  refine Reads.bind (reads_u64 _ _) hd fun o hd => ?_
  refine Reads.bind (reads_u16 _ _) hd fun o hd => ?_
  refine Reads.bind (reads_i64 _ _) hd fun o hd => ?_
  refine Reads.bind (reads_byte _ _) hd fun o hd => ?_
  refine Reads.bind (reads_byte _ _) hd fun o hd => ?_
  refine Reads.bind (reads_slice w.capability_length) hd fun o hd => ?_
  refine Reads.bind (reads_slice w.software_length) hd fun o hd => ?_
  rfl

lemma decodeWorkerJs_data (hk : MakesKeys fromBytes) (w : Worker) {data r : Bytes}
    (ht : data.take 8 = workerDisc) (hd : data.drop 8 = w.borsh ++ r) :
    decodeWorkerJs fromBytes data = .ok w.toWorkerAccount := by
  simp only [Worker.borsh,List.append_assoc] at hd
  rw [decodeWorkerJs,failIf_of_not (fun h => h ht),ok_bind]
  refine Reads.bind (reads_byte _ _) hd fun o hd => ?_
  refine Reads.bind (js_key _) hd fun o hd => ?_
  refine Reads.bind (js_key _) hd fun o hd => ?_
  refine Reads.bind (reads_u64 _ _) hd fun o hd => ?_
  refine Reads.bind (reads_u16 _ _) hd fun o hd => ?_
  refine Reads.bind (reads_i64 _ _) hd fun o hd => ?_
  refine Reads.bind (reads_byte _ _) hd fun o hd => ?_
  refine Reads.bind (reads_byte _ _) hd fun o hd => ?_
  refine Reads.bind (reads_slice w.capability_length) hd fun o hd => ?_
  refine Reads.bind (reads_slice w.software_length) hd fun o hd => ?_
  simp only [js_makeKey hk,ok_bind]
  rfl

lemma decodeMarker_data (hk : MakesKeys fromBytes) (m : Marker) {data r : Bytes}
    (ht : data.take 8 = markerDisc) (hd : data.drop 8 = m.borsh ++ r) :
    decodeMarker fromBytes data = .ok m.toBonsolAggregateVerificationAccount := by
  simp only [Marker.borsh,List.append_assoc] at hd
  rw [decodeMarker,failIf_of_not (fun h => h ht),ok_bind]
  refine Reads.bind (reads_byte _ _) hd fun o hd => ?_
  refine Reads.bind (py_pubkey hk _) hd fun o hd => ?_
  refine Reads.bind (reads_slice m.execution_length) hd fun o hd => ?_
  refine Reads.bind (reads_slice m.image_length) hd fun o hd => ?_
  refine Reads.bind (reads_slice m.input_length) hd fun o hd => ?_
  refine Reads.bind (reads_slice m.output_length) hd fun o hd => ?_
  refine Reads.bind (reads_slice m.journal_length) hd fun o hd => ?_
  refine Reads.bind (reads_i64 _ _) hd fun o hd => ?_
  refine Reads.bind (reads_byte _ _) hd fun o hd => ?_
  rfl

end Decoders

section Kinds
variable {fromBytes publicKey : Bytes → Option Digest}

lemma take_disc (k : AccountKind) (body : Bytes) : (k.disc ++ body).take 8 = k.disc :=
  List.take_left' k.disc_length

lemma drop_disc (k : AccountKind) (body : Bytes) : (k.disc ++ body).drop 8 = body :=
  List.drop_left' k.disc_length

/-- An account of a known kind starts with the discriminator of its kind. -/
lemma take_data {l : Listed} {k : AccountKind} (h : l.account.kind? = some k) :
    l.data.take 8 = k.disc := by
  obtain ⟨pubkey,account,padding⟩ := l
  cases account with
  | config c =>
    obtain rfl := Option.some.inj h
    exact take_disc .config _
  | worker w =>
    obtain rfl := Option.some.inj h
    exact take_disc .worker _
  | marker m =>
    obtain rfl := Option.some.inj h
    exact take_disc .marker _
  | job j =>
    obtain rfl := Option.some.inj h
    exact Accounts.data_take j padding
  | other body hbody => cases h

/-- And no account starts with another one. -/
lemma take_data_iff (l : Listed) (k : AccountKind) :
    l.data.take 8 = k.disc ↔ l.account.kind? = some k := by
  refine ⟨fun hk => ?_,take_data⟩
  cases hkind : l.account.kind? with
  | some k' =>
    rw [take_data hkind] at hk
    rw [AccountKind.disc_injective hk]
  | none =>
    obtain ⟨pubkey,account,padding⟩ := l
    cases account with
    | other body hbody => exact absurd hk (hbody k)
    | config | worker | job | marker => cases hkind

lemma isPrefixOf_iff_take (k : AccountKind) (data : Bytes) :
    k.disc.isPrefixOf data = true ↔ data.take 8 = k.disc := by
  rw [List.isPrefixOf_iff_prefix,List.prefix_iff_eq_take,k.disc_length]
  exact eq_comm

/-- A decoder of one kind, which the accounts of that kind are picked for. -/
structure DecodesKind {ε α : Type} (decode : Bytes → Except ε α)
    (pick : ProgramAccount → Option α) (k : AccountKind) : Prop where
  refuses : ∀ data a, decode data = .ok a → data.take 8 = k.disc
  picks : ∀ a, (pick a).isSome = true ↔ a.kind? = some k
  reads : ∀ l a, pick (Listed.account l) = some a → decode l.data = .ok a

section Decode
variable {ε α : Type} {decode : Bytes → Except ε α} {pick : ProgramAccount → Option α}
  {k : AccountKind}

/-- It accepts the accounts of its kind, with their values, and no others. -/
lemma DecodesKind.eq_ok_iff (h : DecodesKind decode pick k) (l : Listed) (a : α) :
    decode l.data = .ok a ↔ pick l.account = some a := by
  constructor
  · intro hok
    have hkind := (take_data_iff l k).mp (h.refuses l.data a hok)
    obtain ⟨b,hb⟩ := Option.isSome_iff_exists.mp ((h.picks l.account).mpr hkind)
    rw [h.reads l b hb] at hok
    rwa [← Except.ok.inj hok]
  · exact h.reads l a

/-- Of a listing, it reads those accounts in their order, whatever stands between them. -/
lemma DecodesKind.listing (h : DecodesKind decode pick k) {p : Digest × Bytes → Bool}
    (hp : ∀ e, p e = true ↔ e.2.take 8 = k.disc) (listing : List Listed) :
    decodeEach decode ((listing.map Listed.entry).filter p) =
      .ok (listing.filterMap (fun l => (pick l.account).map (Prod.mk l.pubkey))) := by
  unfold decodeEach
  induction listing with
  | nil => rfl
  | cons l listing ih =>
    have hpick : p l.entry = (pick l.account).isSome := by
      rw [Bool.eq_iff_iff,hp,h.picks]
      exact take_data_iff l k
    cases hsome : pick l.account with
    | none =>
      rw [hsome] at hpick
      rw [List.map_cons,List.filter_cons_of_neg (by simp [hpick]),ih]
      simp [hsome]
    | some a =>
      rw [hsome] at hpick
      have hread : decode l.entry.2 = .ok a := h.reads l a hsome
      rw [List.map_cons,List.filter_cons_of_pos hpick,List.mapM_cons,ih,hread]
      simp only [ok_bind,pure_bind,hsome,List.filterMap_cons,Option.map_some]
      rfl

end Decode

lemma config_kind (hk : MakesKeys fromBytes) :
    DecodesKind (decodeConfig fromBytes) ProgramAccount.config? .config where
  refuses data a h := by
    obtain ⟨_,hdisc,-⟩ := bind_eq_ok.mp h
    exact not_not.mp (failIf_eq_ok.mp hdisc)
  picks a := by cases a <;> simp [ProgramAccount.config?,ProgramAccount.kind?]
  reads := by
    rintro ⟨pubkey,account,padding⟩ a h
    cases account with
    | config c =>
      obtain rfl := Option.some.inj h
      exact decodeConfig_data hk c (take_disc .config _) (drop_disc .config _)
    | worker | job | marker | other => cases h

lemma worker_kind (hk : MakesKeys fromBytes) :
    DecodesKind (decodeWorkerPy fromBytes) ProgramAccount.worker? .worker where
  refuses data a h := by
    obtain ⟨_,hdisc,-⟩ := bind_eq_ok.mp h
    exact not_not.mp (failIf_eq_ok.mp hdisc)
  picks a := by cases a <;> simp [ProgramAccount.worker?,ProgramAccount.kind?]
  reads := by
    rintro ⟨pubkey,account,padding⟩ a h
    cases account with
    | worker w =>
      obtain rfl := Option.some.inj h
      exact decodeWorkerPy_data hk w (take_disc .worker _) (drop_disc .worker _)
    | config | job | marker | other => cases h

lemma workerJs_kind (hk : MakesKeys publicKey) :
    DecodesKind (decodeWorkerJs publicKey) ProgramAccount.worker? .worker where
  refuses data a h := by
    obtain ⟨_,hdisc,-⟩ := bind_eq_ok.mp h
    exact not_not.mp (failIf_eq_ok.mp hdisc)
  picks a := by cases a <;> simp [ProgramAccount.worker?,ProgramAccount.kind?]
  reads := by
    rintro ⟨pubkey,account,padding⟩ a h
    cases account with
    | worker w =>
      obtain rfl := Option.some.inj h
      exact decodeWorkerJs_data hk w (take_disc .worker _) (drop_disc .worker _)
    | config | job | marker | other => cases h

lemma job_kind (hk : MakesKeys fromBytes) :
    DecodesKind (decodeJobPy fromBytes) ProgramAccount.job? .job where
  refuses data a h := by
    obtain ⟨_,hdisc,-⟩ := bind_eq_ok.mp h
    exact not_not.mp (failIf_eq_ok.mp hdisc)
  picks a := by cases a <;> simp [ProgramAccount.job?,ProgramAccount.kind?]
  reads := by
    rintro ⟨pubkey,account,padding⟩ a h
    cases account with
    | job j =>
      obtain rfl := Option.some.inj h
      exact decodeJobPy_data j padding hk
    | config | worker | marker | other => cases h

lemma jobJs_kind (hk : MakesKeys publicKey) :
    DecodesKind (decodeJobJs publicKey) ProgramAccount.job? .job where
  refuses data a h := by
    obtain ⟨_,hdisc,-⟩ := bind_eq_ok.mp h
    exact not_not.mp (failIf_eq_ok.mp hdisc)
  picks a := by cases a <;> simp [ProgramAccount.job?,ProgramAccount.kind?]
  reads := by
    rintro ⟨pubkey,account,padding⟩ a h
    cases account with
    | job j =>
      obtain rfl := Option.some.inj h
      exact decodeJobJs_data j padding hk
    | config | worker | marker | other => cases h

lemma marker_kind (hk : MakesKeys fromBytes) :
    DecodesKind (decodeMarker fromBytes) ProgramAccount.marker? .marker where
  refuses data a h := by
    obtain ⟨_,hdisc,-⟩ := bind_eq_ok.mp h
    exact not_not.mp (failIf_eq_ok.mp hdisc)
  picks a := by cases a <;> simp [ProgramAccount.marker?,ProgramAccount.kind?]
  reads := by
    rintro ⟨pubkey,account,padding⟩ a h
    cases account with
    | marker m =>
      obtain rfl := Option.some.inj h
      exact decodeMarker_data hk m (take_disc .marker _) (drop_disc .marker _)
    | config | worker | job | other => cases h

end Kinds

section Listings
variable {fromBytes publicKey : Bytes → Option Digest}

/-- The jobs of a listing. -/
def jobsOf (listing : List Listed) : List (Digest × JobAccount) :=
  listing.filterMap (fun l => l.account.job?.map (Prod.mk l.pubkey))

/-- The markers of a listing that were recorded for a job. -/
def markersFor (listing : List Listed) (jobKey : Digest) : List Digest :=
  listing.filterMap (fun l =>
    (l.account.marker?.filter (fun m => m.aggregateJob = jobKey)).map (fun _ => l.pubkey))

lemma markers_for (listing : List Listed) (jobKey : Digest) :
    ((listing.filterMap (fun l => l.account.marker?.map (Prod.mk l.pubkey))).filter
      (fun p => p.2.aggregateJob = jobKey)).map Prod.fst = markersFor listing jobKey := by
  rw [List.filter_filterMap,List.map_filterMap,markersFor]
  refine List.filterMap_congr fun l _ => ?_
  cases hmarker : l.account.marker? with
  | none => rfl
  | some m => by_cases hjob : m.aggregateJob = jobKey <;> simp [Option.filter,hjob]

/-- Of any listing both clients read the jobs, in their order and with every field, a marker is
found for a job exactly when the listing holds exactly one, and every decoder accepts the accounts
of its own kind, with their values, and no others. -/
theorem listing_reads_back (hpy : MakesKeys fromBytes) (hjs : MakesKeys publicKey)
    (listing : List Listed) (jobKey : Digest) :
    fetchAllJobs fromBytes (listing.map Listed.entry) = .ok (jobsOf listing) ∧
    fetchAllJobsJs publicKey (listing.map Listed.entry) = .ok (jobsOf listing) ∧
    (∀ marker, findMarkerForJob fromBytes (listing.map Listed.entry) jobKey = .ok marker ↔
      markersFor listing jobKey = [marker]) ∧
    ∀ l ∈ listing,
      (∀ c, decodeConfig fromBytes l.data = .ok c ↔ l.account.config? = some c) ∧
      (∀ w, decodeWorkerPy fromBytes l.data = .ok w ↔ l.account.worker? = some w) ∧
      (∀ w, decodeWorkerJs publicKey l.data = .ok w ↔ l.account.worker? = some w) ∧
      (∀ j, decodeJobPy fromBytes l.data = .ok j ↔ l.account.job? = some j) ∧
      (∀ j, decodeJobJs publicKey l.data = .ok j ↔ l.account.job? = some j) ∧
      (∀ m, decodeMarker fromBytes l.data = .ok m ↔ l.account.marker? = some m) := by
  refine ⟨?_,?_,?_,?_⟩
  · exact (job_kind hpy).listing (fun e => isPrefixOf_iff_take .job e.2) listing
  · exact (jobJs_kind hjs).listing (fun e => decide_eq_true_iff) listing
  · intro marker
    have hlist := (marker_kind hpy).listing (fun e => isPrefixOf_iff_take .marker e.2) listing
    have hfetch : fetchAllMarkers fromBytes (listing.map Listed.entry) = .ok _ := hlist
    rw [findMarkerForJob,hfetch]
    simp only [Except.mapError,ok_bind,markers_for]
    rcases markersFor listing jobKey with _ | ⟨first,_ | ⟨second,rest⟩⟩
    · simp
    · simp
    · simp
  · exact fun l _ => ⟨(config_kind hpy).eq_ok_iff l,(worker_kind hpy).eq_ok_iff l,
      (workerJs_kind hjs).eq_ok_iff l,(job_kind hpy).eq_ok_iff l,(jobJs_kind hjs).eq_ok_iff l,
      (marker_kind hpy).eq_ok_iff l⟩

/-- A marker recorded for a job. -/
def sampleMarker : Marker where
  bump := 255
  aggregateJob := someKey
  executionId := List.replicate 32 201
  imageId := List.replicate 32 202
  inputDigest := List.replicate 32 203
  outputDigest := List.replicate 32 204
  journalHash := List.replicate 32 205
  callbackUnix := 1700000000
  status := 1
  execution_length := rfl
  image_length := rfl
  input_length := rfl
  output_length := rfl
  journal_length := rfl

def noBytes : ProgramAccount := .other [] fun k h => by
  have := congrArg List.length h
  simp at this

def sampleListing : List Listed :=
  [⟨someKey,noBytes,0⟩,⟨someKey,.job finishedJob,3⟩,⟨someKey,.marker sampleMarker,40⟩]

theorem listing_reads_back_sample :
    fetchAllJobs keyOfBytes (sampleListing.map Listed.entry) =
      .ok [(someKey,finishedJob.toJobAccount)] ∧
    findMarkerForJob keyOfBytes (sampleListing.map Listed.entry) someKey = .ok someKey := by
  have h := listing_reads_back makesKeys_keyOfBytes makesKeys_keyOfBytes sampleListing someKey
  exact ⟨h.1,(h.2.2.1 someKey).mpr rfl⟩

end Listings

end Kswarm.Accounts
