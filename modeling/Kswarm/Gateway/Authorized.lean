import Kswarm.Gateway.Upload
import Kswarm.Lib.Collision
import Kswarm.Mirror.Encoding

/-! What the gateway has pinned was authorized. The signed message determines the job, the route, the
digest and the time, so a signature is worth nothing for another job, another route, other bytes or
another time; and an upload of the client is pinned exactly when the job on chain allows it. -/
namespace Kswarm.Gateway
open Accounts Legacy.Node

/-- A call of `uploadArtifact`. -/
structure Signing where
  job : CodeUnits
  kind : CodeUnits
  payload : Bytes
  /-- `Date.now()`. -/
  time : ℕ
  time_lt : time < 2^53

def Signing.timestamp (s : Signing) : Doc := .number (.finite false s.time)

/-- What `signArtifactAuthorization` signs. -/
def Signing.message (R : Runtime) (s : Signing) : List Char :=
  R.message (some (.text s.job)) (some (.text s.kind))
    (some (.text (hexUnits (sha256 s.payload).val))) (some s.timestamp)

/-- What the holder of a key signed: its uploads, and messages that do not start like an object, such
as transactions. -/
structure Signed where
  uploads : List Signing
  others : List Bytes
  apart : ∀ message ∈ others, message.head? ≠ some 123

def Signed.messages (R : Runtime) (signed : Signed) : List Bytes :=
  signed.uploads.map (fun s => utf8 (s.message R)) ++ signed.others

/-- The request carries a valid signature of the key on a message that was never signed. -/
def Forges (R : Runtime) (k : Digest) (signed : Signed) (req : Upload) : Prop :=
  ∃ doc auth, req.auth = some doc ∧ Authorization.read doc = .ok auth ∧
    R.verify (utf8 (R.message auth.job auth.kind auth.sha256 auth.timestamp)) k auth.signature =
      some true ∧
    utf8 (R.message auth.job auth.kind auth.sha256 auth.timestamp) ∉ signed.messages R

section Message
variable {R : Runtime}

/-- The end of a message. -/
def Runtime.messageEnd (R : Runtime) : Option Doc → List Char
  | none => ['\x7d']
  | some v => ',' :: (JsValue.quote (utf16 "timestamp".toList) ++ ':' :: (R.docText v ++ ['\x7d']))

/-- The message over three texts, member by member. -/
lemma message_texts (job kind sha256 : CodeUnits) (timestamp : Option Doc) :
    R.message (some (.text job)) (some (.text kind)) (some (.text sha256)) timestamp =
      '\x7b' :: (JsValue.quote (utf16 "job".toList) ++ ':' :: (JsValue.quote job ++
        ',' :: (JsValue.quote (utf16 "kind".toList) ++ ':' :: (JsValue.quote kind ++
        ',' :: (JsValue.quote (utf16 "sha256".toList) ++ ':' :: (JsValue.quote sha256 ++
        R.messageEnd timestamp)))))) := by
  cases timestamp <;>
    simp [Runtime.message,Runtime.memberText,Runtime.messageEnd,Json.joined,Runtime.docText]

/-- Only the number itself is printed as the digits of a natural. -/
lemma docText_digits {v : Doc} {n : ℕ} (hn : n < 2^53)
    (hv : ∀ neg mag, v = .number (.finite neg mag) →
      Binary64.nearest (mag : ℚ) = some (mag : ℚ))
    (h : R.docText v = decimal n) :
    ∃ neg mag, v = .number (.finite neg mag) ∧ (if neg then -(mag : ℚ) else mag) = n := by
  have hdigit : ∀ c ∈ R.docText v, isDigit c = true := by
    intro c hc
    rw [h] at hc
    exact isDigit_of_mem_decimal hc
  cases v with
  | number x =>
    cases x with
    | finite neg mag =>
      simp only [Runtime.docText,Binary64.isFinite,if_true,Binary64.numberText] at h hdigit
      split_ifs at h hdigit with hneg
      · exact absurd (hdigit '-' List.mem_cons_self) (by decide)
      · have hmag := Binary64.eq_of_magnitudeText (hv neg mag rfl) (NNRat.cast_nonneg mag) hn h
        refine ⟨neg,mag,rfl,?_⟩
        cases neg with
        | false => exact hmag
        | true =>
          have hzero : mag = 0 := by simpa using hneg
          rw [hzero] at hmag ⊢
          simpa using hmag
    | inf neg => exact absurd (hdigit 'n' List.mem_cons_self) (by decide)
    | nan => exact absurd (hdigit 'n' List.mem_cons_self) (by decide)
  | null => exact absurd (hdigit 'n' List.mem_cons_self) (by decide)
  | bool b =>
    cases b with
    | true => exact absurd (hdigit 't' List.mem_cons_self) (by decide)
    | false => exact absurd (hdigit 'f' List.mem_cons_self) (by decide)
  | text s => exact absurd (hdigit '"' List.mem_cons_self) (by decide)
  | arr xs => exact absurd (hdigit '[' List.mem_cons_self) (by decide)
  | obj entries => exact absurd (hdigit '\x7b' List.mem_cons_self) (by decide)

/-- The text of a signing's time. -/
lemma docText_timestamp (s : Signing) : R.docText s.timestamp = decimal s.time := by
  have h := Binary64.magnitudeText_natCast s.time_lt
  simpa [Signing.timestamp,Runtime.docText,Binary64.isFinite,Binary64.numberText] using h

/-- A message over texts that is one of an upload has its job, route, digest and time. -/
lemma message_inj {job kind sha256' : CodeUnits} {timestamp : Option Doc} {s : Signing}
    (hv : ∀ neg mag, timestamp = some (.number (.finite neg mag)) →
      Binary64.nearest (mag : ℚ) = some (mag : ℚ))
    (h : R.message (some (.text job)) (some (.text kind)) (some (.text sha256')) timestamp =
      s.message R) :
    job = s.job ∧ kind = s.kind ∧ sha256' = hexUnits (sha256 s.payload).val ∧
      ∃ neg mag, timestamp = some (.number (.finite neg mag)) ∧
        (if neg then -(mag : ℚ) else mag) = s.time := by
  rw [Signing.message,message_texts,message_texts] at h
  have hjob := List.append_cancel_left (List.cons.inj h).2
  obtain ⟨rfl,hkind⟩ := JsValue.quote_inj (List.cons.inj hjob).2
  have hkind := List.append_cancel_left (List.cons.inj hkind).2
  obtain ⟨rfl,hdigest⟩ := JsValue.quote_inj (List.cons.inj hkind).2
  have hdigest := List.append_cancel_left (List.cons.inj hdigest).2
  obtain ⟨rfl,hend⟩ := JsValue.quote_inj (List.cons.inj hdigest).2
  refine ⟨rfl,rfl,rfl,?_⟩
  cases timestamp with
  | none => exact absurd (List.cons.inj hend).1 (by decide)
  | some v =>
    have htime := List.append_cancel_left (List.cons.inj hend).2
    have htext := List.append_cancel_right (List.cons.inj htime).2
    rw [docText_timestamp] at htext
    obtain ⟨neg,mag,rfl,hvalue⟩ := docText_digits s.time_lt
      (fun neg mag h => hv neg mag (congrArg some h)) htext
    exact ⟨neg,mag,rfl,hvalue⟩

end Message

/-- How far two clocks are apart. -/
def apart (a b : ℕ) : ℕ := max a b - min a b

/-- A number that is a natural is stale when it is more than five minutes away. -/
lemma stale_finite {now n : ℕ} {neg : Bool} {mag : ℚ≥0}
    (h : (if neg then -(mag : ℚ) else mag) = n) :
    stale now (.finite neg mag) = false ↔ apart now n ≤ 5*60*1000 := by
  have habs : |(now : ℚ) - n| = (apart now n : ℕ) := by
    rcases le_total now n with hle | hle
    · rw [apart,max_eq_right hle,min_eq_left hle,abs_sub_comm,Nat.cast_sub hle,abs_of_nonneg]
      exact sub_nonneg.mpr (by exact_mod_cast hle)
    · rw [apart,max_eq_left hle,min_eq_right hle,Nat.cast_sub hle,abs_of_nonneg]
      exact sub_nonneg.mpr (by exact_mod_cast hle)
  simp only [stale]
  rw [h,habs]
  by_cases hsmall : apart now n < 2^53
  · rw [Binary64.nearest_natCast hsmall]
    simp only [decide_eq_false_iff_not,not_lt]
    exact_mod_cast Iff.rfl
  · have hwide : ((2^53 : ℕ) : ℚ) ≤ (apart now n : ℕ) := by exact_mod_cast not_lt.mp hsmall
    have hfar : ¬apart now n ≤ 5*60*1000 := by omega
    refine iff_of_false ?_ hfar
    cases hnear : Binary64.nearest ((apart now n : ℕ) : ℚ) with
    | none => simp
    | some delta =>
      have hle := Binary64.natCast_le_rounded le_rfl (le_trans (by norm_num) hwide) hwide
      rw [← Binary64.eq_rounded hnear] at hle
      have hlate : (5*60*1000 : ℚ) < delta := lt_of_lt_of_le (by norm_num) hle
      simp [hlate]

/-- The two handlers. -/
inductive Kind where
  | input
  | output

def Kind.route : Kind → Route
  | .input => inputRoute
  | .output => outputRoute

def Kind.post (R : Runtime) (req : Upload) : Kind → Handler Artifact
  | .input => postInput R req
  | .output => postOutput R req

/-- The text that names the handler in an authorization. -/
def Kind.text (kind : Kind) : CodeUnits := utf16 kind.route.kind.toList

/-- The job lets the key upload these bytes. -/
def Kind.Allows (job : JobAccount) (k : Digest) (payload : Bytes) : Kind → Prop
  | .input => job.customer = k ∧ job.status = 1 ∧ (sha256 payload).val = job.inputBundleHash
  | .output => job.worker = k ∧ (job.status = 3 ∨ job.status = 4)

lemma hexUnits_injective : Function.Injective hexUnits := by
  intro a b h
  exact Mirror.encodeHex_injective (String.toList_inj.mp (utf16_injective h))

lemma isText_eq {value : Option Doc} {text : CodeUnits} :
    isText value text = true ↔ value = some (.text text) := by
  unfold isText
  split
  · simp
  · rename_i hne
    constructor
    · simp
    · intro h
      exact absurd h (hne text)

section Handler
variable {R : Runtime} {kind : Kind} {req : Upload} {log : Log} {name : CodeUnits} {payload : Bytes}

lemma post_eq (R : Runtime) (kind : Kind) (req : Upload) :
    kind.post R req = upload R kind.route req := by
  cases kind <;> rfl

/-- A request that passed every check, and what the handler was told on the way. -/
def Cleared (R : Runtime) (kind : Kind) (req : Upload) (log : Log) (name : CodeUnits)
    (payload : Bytes) : Prop :=
  ∃ original auth now job, readUpload R req = .ok ((original,payload),auth) ∧
    log = [⟨.clock,now⟩,⟨.fetchJob req.address,.ok (some job)⟩] ∧
    requireFreshTimestamp R now auth.timestamp = .ok () ∧
    kind.route.check job auth req.address (sha256 payload) = .ok () ∧
    name = kind.route.nameOf original

lemma upload_safe : Safe (transcript Op Ans) (fun _ => True)
    (fun o log => ∀ name payload, o = .addBytes name payload → Cleared R kind req log name payload)
    (fun _ _ => True) (upload R kind.route req) [] := by
  unfold upload
  apply Safe.lift ?_ (fun _ _ => Safe.sayRaise trivial trivial)
  rintro ⟨⟨original,buffer⟩,auth⟩ hread
  apply Safe.say trivial (fun _ _ h => nomatch h)
  intro now
  apply Safe.lift ?_ (fun _ _ => Safe.sayRaise trivial trivial)
  rintro ⟨⟩ hfresh
  apply Safe.say trivial (fun _ _ h => nomatch h)
  intro answer
  apply Safe.lift ?_ (fun _ _ => Safe.sayRaise trivial trivial)
  rintro state rfl
  apply Safe.lift ?_ (fun _ _ => Safe.sayRaise trivial trivial)
  intro job hstate
  obtain rfl := require_eq_ok.mp hstate
  apply Safe.lift ?_ (fun _ _ => Safe.sayRaise trivial trivial)
  rintro ⟨⟩ hcheck
  apply Safe.say trivial
  · rintro name payload h
    obtain ⟨rfl,rfl⟩ := Op.addBytes.inj h
    exact ⟨original,auth,now,job,hread,rfl,hfresh,hcheck,rfl⟩
  · intro added
    exact Safe.sayLift trivial trivial

lemma reaches_lift {α β : Type} {x : Except String α} {f : α → Handler β} {a : α} {w v : Log}
    {q : Handler β} (hx : x = .ok a) (h : Reaches (transcript Op Ans) w (f a) v q) :
    Reaches (transcript Op Ans) w (Process.lift x >>= f) v q := by
  subst hx
  exact h

lemma reaches_query {β : Type} {o : Op} {f : Ans o → Handler β} {a : Ans o} {w v : Log}
    {q : Handler β} (h : Reaches (transcript Op Ans) (w ++ [⟨o,a⟩]) (f a) v q) :
    Reaches (transcript Op Ans) w (Process.query o >>= f) v q := Reaches.step rfl h

/-- The handler asks for the pin exactly when the request is cleared. -/
lemma pins_iff : (∃ next, Reaches (transcript Op Ans) [] (kind.post R req) log
      (.ask (.addBytes name payload) next)) ↔ Cleared R kind req log name payload := by
  rw [post_eq]
  constructor
  · rintro ⟨next,h⟩
    exact (Safe.reaches upload_safe h).mayAsk _ _ rfl
  · rintro ⟨original,auth,now,job,hread,rfl,hfresh,hcheck,rfl⟩
    refine ⟨fun added => .lift added,?_⟩
    apply reaches_lift hread
    apply reaches_query (a := now)
    apply reaches_lift hfresh
    apply reaches_query (o := .fetchJob req.address) (a := Except.ok (some job))
    apply reaches_lift rfl
    apply reaches_lift (a := job) rfl
    exact reaches_lift hcheck .start

/-- The checks of a route, one by one. -/
lemma check_eq_ok {job : JobAccount} {auth : Authorization} {address : CodeUnits}
    {observed : Digest} : kind.route.check job auth address observed = .ok () ↔
      auth.signer = some (.text (keyUnits (kind.route.owner job))) ∧
      kind.route.admits job = true ∧ kind.route.accepts job observed = true ∧
      auth.sha256 = some (.text (hexUnits observed.val)) ∧ auth.kind = some (.text kind.text) ∧
      auth.job = some (.text address) := by
  simp only [Route.check,bind_eq_ok,failIf_eq_ok,exists_const,not_or,Bool.not_eq_false,isText_eq,
    Kind.text]

/-- The checks that do not look at the authorization. -/
lemma allows_iff {job : JobAccount} {k : Digest} {payload : Bytes} :
    kind.Allows job k payload ↔ kind.route.owner job = k ∧ kind.route.admits job = true ∧
      kind.route.accepts job (sha256 payload) = true := by
  cases kind with
  | input => simp [Kind.Allows,Kind.route,inputRoute,hexUnits_injective.eq_iff]
  | output => simp [Kind.Allows,Kind.route,outputRoute]

lemma publicKey_keyUnits (k : Digest) : R.publicKey (some (.text (keyUnits k))) = some k := by
  rw [Runtime.publicKey,keyUnits,scalars_utf16,String.ofList_toList,readKey_keyText]

lemma verifySignedPayload_eq_ok {auth : Authorization} {k : Digest}
    (hsigner : auth.signer = some (.text (keyUnits k))) :
    verifySignedPayload R auth = .ok () ↔
      R.verify (utf8 (R.message auth.job auth.kind auth.sha256 auth.timestamp)) k auth.signature =
        some true := by
  simp [verifySignedPayload,hsigner,publicKey_keyUnits]

lemma readUpload_eq_ok {original : CodeUnits} {auth : Authorization} :
    readUpload R req = .ok ((original,payload),auth) ↔ req.file = some (original,payload) ∧
      ∃ doc, req.auth = some doc ∧ Authorization.read doc = .ok auth ∧
        verifySignedPayload R auth = .ok () := by
  simp only [readUpload,bind_eq_ok,require_eq_ok,pure_eq_ok,Prod.mk.injEq]
  constructor
  · rintro ⟨_,hfile,doc,hdoc,_,hread,_,hverify,rfl,rfl⟩
    exact ⟨hfile,doc,hdoc,hread,hverify⟩
  · rintro ⟨hfile,doc,hdoc,hread,hverify⟩
    exact ⟨_,hfile,doc,hdoc,_,hread,(),hverify,rfl,rfl⟩

/-- A timestamp that is a number is a binary64 number. -/
lemma represented_timestamp {doc : Doc} {auth : Authorization} (hdoc : req.auth = some doc)
    (hread : Authorization.read doc = .ok auth) (neg : Bool) (mag : ℚ≥0)
    (h : auth.timestamp = some (.number (.finite neg mag))) :
    Binary64.nearest (mag : ℚ) = some (mag : ℚ) := by
  cases doc with
  | obj o =>
    obtain rfl := Except.ok.inj hread
    exact req.represented o neg mag hdoc h
  | null => cases hread
  | bool _ | number _ | text _ | arr _ =>
    obtain rfl := Except.ok.inj hread
    cases h

lemma fresh_iff {now n : ℕ} {timestamp : Option Doc} {neg : Bool} {mag : ℚ≥0}
    (h : timestamp = some (.number (.finite neg mag)))
    (hn : (if neg then -(mag : ℚ) else mag) = n) :
    requireFreshTimestamp R now timestamp = .ok () ↔ apart now n ≤ 5*60*1000 := by
  rw [← stale_finite hn]
  simp [requireFreshTimestamp,h,Runtime.number]

end Handler

section Client
variable {R : Runtime} {kind : Kind}

/-- The authorization `uploadArtifact` posts. -/
def Signing.auth (s : Signing) (k : Digest) (signature : Doc) : Doc := .obj [
  (utf16 "job".toList,.text s.job),
  (utf16 "kind".toList,.text s.kind),
  (utf16 "sha256".toList,.text (hexUnits (sha256 s.payload).val)),
  (utf16 "timestamp".toList,s.timestamp),
  (utf16 "signature".toList,signature),
  (utf16 "signer".toList,.text (keyUnits k))]

lemma Signing.read_auth (s : Signing) (k : Digest) (signature : Doc) :
    Authorization.read (s.auth k signature) = .ok {
      job := some (.text s.job)
      kind := some (.text s.kind)
      sha256 := some (.text (hexUnits (Kswarm.sha256 s.payload).val))
      timestamp := some s.timestamp
      signer := some (.text (keyUnits k))
      signature := some signature } := by
  rfl

/-- The file that `upload.single("artifact")` of multer finds in a form with these fields; none
where it refuses the form. -/
abbrev Multer := CodeUnits → Bytes → Doc → Option (CodeUnits × Bytes)

/-- A letter or a digit. -/
def isWordUnit (u : UInt16) : Bool :=
  decide (48 ≤ u ∧ u ≤ 57) || decide (65 ≤ u ∧ u ≤ 90) || decide (97 ≤ u ∧ u ≤ 122)

/-- A file name such as `output.json`: a letter or a digit, then only such and dots, hyphens and
underscores. -/
def plainName : CodeUnits → Bool
  | [] => false
  | first::rest => isWordUnit first &&
      rest.all (fun u => isWordUnit u || u = 45 || u = 46 || u = 95)

/-- A form that nothing on the way rewrites or refuses: a plain file name, and no long text. -/
structure PlainForm (s : Signing) (signature filename : CodeUnits) : Prop where
  name : plainName filename = true
  name_short : filename.length ≤ 255
  job_short : s.job.length ≤ 2^14
  kind_short : s.kind.length ≤ 2^14
  signature_short : signature.length ≤ 2^14

/-- What multer documents of plain forms: their file has the name and the bytes that were sent. -/
def Multer.KeepsPlain (m : Multer) : Prop :=
  ∀ (s : Signing) (k : Digest) (signature filename : CodeUnits), PlainForm s signature filename →
    m filename s.payload (s.auth k (.text signature)) = some (filename,s.payload)

/-- The request the gateway has of a call of `uploadArtifact`. -/
def Signing.upload (m : Multer) (s : Signing) (k : Digest) (signature address filename : CodeUnits) :
    Upload where
  address := address
  file := m filename s.payload (s.auth k (.text signature))
  auth := some (s.auth k (.text signature))
  represented := by
    intro o neg mag ho hget
    obtain rfl := Doc.obj.inj (Option.some.inj ho)
    have htime : some s.timestamp = some (.number (.finite neg mag)) := hget
    obtain ⟨-,rfl⟩ := by simpa [Signing.timestamp] using htime
    simpa using Binary64.nearest_natCast s.time_lt

lemma nameOf_plain {filename : CodeUnits} (h : plainName filename = true) :
    kind.route.nameOf filename = filename := by
  cases filename with
  | nil => cases h
  | cons first rest => exact if_neg (List.cons_ne_nil first rest)

/-- The handler finds the time of a signing fresh when the clocks agree within five minutes. -/
lemma Signing.fresh (s : Signing) (now : ℕ) :
    requireFreshTimestamp R now (some s.timestamp) = .ok () ↔ apart now s.time ≤ 5*60*1000 :=
  fresh_iff rfl (by simp)

/-- The client's upload is cleared when the job allows it and the clocks agree. -/
lemma Signing.cleared {m : Multer} {s : Signing} {k : Digest} {signature filename : CodeUnits}
    {now : ℕ} {job : JobAccount} (hkeeps : m.KeepsPlain) (hform : PlainForm s signature filename)
    (hverify : R.verify (utf8 (s.message R)) k (some (.text signature)) = some true)
    (hkind : s.kind = kind.text) (hallows : kind.Allows job k s.payload)
    (hclose : apart now s.time ≤ 5*60*1000) :
    Cleared R kind (s.upload m k signature s.job filename)
      [⟨.clock,now⟩,⟨.fetchJob s.job,.ok (some job)⟩] filename s.payload := by
  obtain ⟨rfl,hadmits,haccepts⟩ := allows_iff.mp hallows
  have hfile := hkeeps s (kind.route.owner job) signature filename hform
  refine ⟨filename,_,now,job,readUpload_eq_ok.mpr ⟨hfile,_,rfl,s.read_auth _ _,?_⟩,rfl,
    (s.fresh now).mpr hclose,?_,(nameOf_plain hform.name).symm⟩
  · exact (verifySignedPayload_eq_ok rfl).mpr hverify
  · exact check_eq_ok.mpr ⟨rfl,hadmits,haccepts,rfl,by rw [hkind],rfl⟩

end Client

/-- A worker's key. -/
def sampleSigner : Digest := ⟨[3,161,7,191,243,206,16,190,29,112,221,24,231,75,192,153,103,228,214,
  48,155,165,13,95,29,220,134,100,18,85,49,184],rfl⟩

/-- Its upload of an empty object. -/
def sampleSigning : Signing where
  job := utf16 "LbUiWL3xVV8hTFYBVdbTNrpDo41NKS6o3LHHuDzjfcY".toList
  kind := Kind.output.text
  payload := [123,125]
  time := 1700000000000
  time_lt := by decide

/-- The Ed25519 signature of the message. -/
def sampleSignature : CodeUnits :=
  utf16 ("74txd4R9IPgOncMKqAgZSUaUE755z5dYYRITHOikNU2yjFbckQFMRm05mNwC5ubbiXqI" ++
    "IzvxQPBkrbU1+HrFBg==").toList

/-- The message the key signed. -/
def sampleMessage : Bytes :=
  utf8 (sampleSigning.message ⟨fun _ => [],fun _ => none,fun _ => none,fun _ _ _ => none⟩)

/-- A runtime in which one signature is valid. -/
def sampleRuntime : Runtime where
  nested _ := []
  coerce _ := none
  otherKey _ := none
  verify message key signature := match signature with
    | some (.text s) =>
      some (decide (message = sampleMessage ∧ key = sampleSigner ∧ s = sampleSignature))
    | _ => none

/-- The job of the worker. -/
def sampleJob : JobAccount := { finishedJob.toJobAccount with worker := sampleSigner }

lemma sample_verify :
    sampleRuntime.verify (utf8 (sampleSigning.message sampleRuntime)) sampleSigner
      (some (.text sampleSignature)) = some true :=
  congrArg some (decide_eq_true ⟨rfl,rfl,rfl⟩)

lemma sample_allows : Kind.output.Allows sampleJob sampleSigner sampleSigning.payload :=
  ⟨rfl,.inr rfl⟩

/-- The name it uploads them under. -/
def sampleName : CodeUnits := utf16 "output.json".toList

/-- Multer, as it takes a name without directories. -/
def sampleMulter : Multer := fun filename payload _ =>
  if filename = [] then none else some (filename,payload)

lemma sampleMulter_keeps : sampleMulter.KeepsPlain := by
  intro s k signature filename hform
  refine if_neg ?_
  rintro rfl
  cases hform.name

lemma sample_form : PlainForm sampleSigning sampleSignature sampleName :=
  ⟨by decide,by decide,by decide,by decide,by decide⟩

/-- The request of that upload. -/
def sampleUpload : Upload :=
  sampleSigning.upload sampleMulter sampleSigner sampleSignature sampleSigning.job sampleName

/-- Bytes are pinned for a job only while the job allows it, and only if the wallet it names asked
for them: its holder uploaded these very bytes for this job on this route, within five minutes by
the two clocks, or two payloads collide, or the request forges a signature. -/
theorem pinned_upload_is_authorized (R : Runtime) (kind : Kind) (req : Upload) (log : Log)
    (name : CodeUnits) (payload : Bytes) (next : Except String Artifact → Handler Artifact)
    (h : Reaches (transcript Op Ans) [] (kind.post R req) log
      (.ask (.addBytes name payload) next)) :
    ∃ now job k, log = [⟨.clock,now⟩,⟨.fetchJob req.address,.ok (some job)⟩] ∧
      (∃ original, req.file = some (original,payload)) ∧ kind.Allows job k payload ∧
      ∀ signed : Signed, Forges R k signed req ∨ ∃ s ∈ signed.uploads, s.job = req.address ∧
        s.kind = kind.text ∧ apart now s.time ≤ 5*60*1000 ∧
        (s.payload = payload ∨ Collision sha256 [s.payload,payload]) := by
  obtain ⟨original,auth,now,job,hread,rfl,hfresh,hcheck,-⟩ := pins_iff.mp ⟨next,h⟩
  obtain ⟨hsigner,hadmits,haccepts,hdigest,hkind,hjob⟩ := check_eq_ok.mp hcheck
  obtain ⟨hfile,doc,hdoc,hauth,hverify⟩ := readUpload_eq_ok.mp hread
  refine ⟨now,job,kind.route.owner job,rfl,⟨original,hfile⟩,
    allows_iff.mpr ⟨rfl,hadmits,haccepts⟩,?_⟩
  intro signed
  rw [verifySignedPayload_eq_ok hsigner] at hverify
  by_cases hsigned : utf8 (R.message auth.job auth.kind auth.sha256 auth.timestamp) ∈
      signed.messages R
  · right
    rw [hjob,hkind,hdigest] at hsigned
    rcases List.mem_append.mp hsigned with hupload | hother
    · obtain ⟨s,hs,hmessage⟩ := List.mem_map.mp hupload
      obtain ⟨hjob',hkind',hdigest',neg,mag,htime,hvalue⟩ :=
        message_inj (represented_timestamp hdoc hauth) (utf8_injective hmessage.symm)
      have hsame : sha256 s.payload = sha256 payload :=
        (Subtype.ext (hexUnits_injective hdigest')).symm
      exact ⟨s,hs,hjob'.symm,hkind'.symm,(fresh_iff htime hvalue).mp hfresh,
        eq_or_collision (by simp) (by simp) hsame⟩
    · refine absurd ?_ (signed.apart _ hother)
      rw [message_texts]
      rfl
  · exact .inl ⟨doc,auth,hdoc,hauth,hverify,hsigned⟩

/-- A worker's own upload, by a worker that signed nothing else. -/
theorem pinned_upload_is_authorized_sample :
    ∃ next, Reaches (transcript Op Ans) [] (Kind.output.post sampleRuntime sampleUpload)
      [⟨.clock,1700000000500⟩,⟨.fetchJob sampleSigning.job,.ok (some sampleJob)⟩]
      (.ask (.addBytes sampleName sampleSigning.payload) next) ∧
    ∃ s ∈ [sampleSigning], s.job = sampleSigning.job ∧ s.kind = Kind.output.text ∧
      apart 1700000000500 s.time ≤ 5*60*1000 ∧
      (s.payload = sampleSigning.payload ∨
        Collision sha256 [s.payload,sampleSigning.payload]) := by
  have hclose : apart 1700000000500 sampleSigning.time ≤ 5*60*1000 := by decide
  obtain ⟨next,hpin⟩ := pins_iff.mpr (Signing.cleared sampleMulter_keeps sample_form sample_verify
    rfl sample_allows hclose)
  obtain ⟨now,job,k,hlog,-,hallows,hsigned⟩ := pinned_upload_is_authorized _ _ _ _ _ _ _ hpin
  obtain ⟨rfl,rfl⟩ : now = 1700000000500 ∧ job = sampleJob := by
    simpa [Signing.upload,eq_comm] using hlog
  obtain rfl : sampleSigner = k := hallows.1
  refine ⟨next,hpin,?_⟩
  refine (hsigned ⟨[sampleSigning],[],by simp⟩).resolve_left ?_
  rintro ⟨doc,auth,hdoc,hauth,-,hunsigned⟩
  obtain rfl := Option.some.inj hdoc
  obtain rfl := Except.ok.inj ((sampleSigning.read_auth _ _).symm.trans hauth)
  exact hunsigned (List.mem_append_left _ (List.mem_singleton_self _))

/-- The client's own upload is pinned exactly when the job on chain lets its wallet upload these
bytes, the authorization is for that job and route, and the clocks agree within five minutes. -/
theorem upload_pinned_iff (R : Runtime) (kind : Kind) (m : Multer) (s : Signing) (k : Digest)
    (signature address filename : CodeUnits) (log : Log) (name : CodeUnits) (payload : Bytes)
    (hkeeps : m.KeepsPlain) (hform : PlainForm s signature filename)
    (hverify : R.verify (utf8 (s.message R)) k (some (.text signature)) = some true) :
    (∃ next, Reaches (transcript Op Ans) []
      (kind.post R (s.upload m k signature address filename)) log
      (.ask (.addBytes name payload) next)) ↔
      payload = s.payload ∧ name = filename ∧ s.job = address ∧ s.kind = kind.text ∧
      ∃ now job, log = [⟨.clock,now⟩,⟨.fetchJob address,.ok (some job)⟩] ∧
        kind.Allows job k payload ∧ apart now s.time ≤ 5*60*1000 := by
  rw [pins_iff]
  constructor
  · rintro ⟨original,auth,now,job,hread,rfl,hfreshness,hcheck,rfl⟩
    obtain ⟨hfile,doc,hdoc,hauth,-⟩ := readUpload_eq_ok.mp hread
    have hsent := (hkeeps s k signature filename hform).symm.trans hfile
    obtain ⟨rfl,rfl⟩ := Prod.mk.inj (Option.some.inj hsent)
    obtain rfl := Option.some.inj hdoc
    obtain rfl := Except.ok.inj ((s.read_auth k (.text signature)).symm.trans hauth)
    obtain ⟨hsigner,hadmits,haccepts,-,hkind,hjob⟩ := check_eq_ok.mp hcheck
    have hkey : keyUnits k = keyUnits (kind.route.owner job) := by simpa using hsigner
    have howner := keyText_injective (String.toList_inj.mp (utf16_injective hkey))
    refine ⟨rfl,nameOf_plain hform.name,Doc.text.inj (Option.some.inj hjob),
      Doc.text.inj (Option.some.inj hkind),now,job,rfl,?_,?_⟩
    · exact allows_iff.mpr ⟨howner.symm,hadmits,haccepts⟩
    · exact (s.fresh now).mp hfreshness
  · rintro ⟨rfl,rfl,rfl,hkind,now,job,rfl,hallows,hclose⟩
    exact Signing.cleared hkeeps hform hverify hkind hallows hclose

theorem upload_pinned_iff_sample :
    ∃ next, Reaches (transcript Op Ans) [] (Kind.output.post sampleRuntime sampleUpload)
      [⟨.clock,1700000000500⟩,⟨.fetchJob sampleSigning.job,.ok (some sampleJob)⟩]
      (.ask (.addBytes sampleName sampleSigning.payload) next) := by
  apply (upload_pinned_iff sampleRuntime .output sampleMulter sampleSigning sampleSigner
    sampleSignature sampleSigning.job sampleName _ _ _ sampleMulter_keeps sample_form
    sample_verify).mpr
  exact ⟨rfl,rfl,rfl,rfl,1700000000500,sampleJob,rfl,sample_allows,by decide⟩

end Kswarm.Gateway
