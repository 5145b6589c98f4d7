import Kswarm.Lib.Collision
import Kswarm.Legacy.Digest

/-! The binding of a verified zkVM journal to a branch output manifest (`proof-binding.mjs`). Four
objects name one branch: the result of the manifest, its top level, the verified journal and the
journal recorded beside the proof. The checks pass when all of them name one tuple. -/
namespace Kswarm.Legacy

namespace Node

/-- What `JSON.parse` returns. -/
inductive Doc where
  | null
  | bool (b : Bool)
  | number (x : Binary64)
  | text (s : CodeUnits)
  | arr (xs : List Doc)
  | obj (entries : List (CodeUnits × Doc))

/-- The properties of an object. -/
abbrev Properties := List (CodeUnits × Doc)

namespace Properties

/-- A property; none is `undefined`. -/
def get (o : Properties) (key : String) : Option Doc := o.lookup (utf16 key.toList)

/-- What the checks tell apart in a property. -/
def value (o : Properties) (key : String) : Value :=
  match o.get key with
  | some (.text s) => .text s
  | some (.number x) => .number x
  | _ => .other

/-- The properties a digest reads. -/
def argument (o : Properties) : Argument where
  branchKey := o.value "branch_key"
  childJobId := o.value "child_job_id"
  parentRequestId := o.value "parent_request_id"
  scoreHex := o.value "score_hex"
  lineCount := o.value "line_count"
  wordCount := o.value "word_count"

end Properties

def branchOutputManifestVersion : String := "kswarm-branch-output-v1"
def zkvmBundleVersion : String := "kswarm-zkvm-receipt-v1"

def zkvmJournalFields : List String := ["branch_key","child_job_id","line_count",
  "parent_request_id","reducer_digest","score_hex","word_count"]

/-- `value === true`. -/
def isTrue : Option Doc → Bool
  | some (.bool true) => true
  | _ => false

def requireObject (value : Option Doc) (label : String) : Except ProofBindingError Properties :=
  match value with
  | some (.obj entries) => .ok entries
  | _ => .error ⟨label ++ " must be an object"⟩

/-- `===` on numbers; the zeros are equal, and nothing equals NaN. -/
def sameNumber : Binary64 → Binary64 → Bool
  | .finite neg mag,.finite neg' mag' => mag = mag' && (neg = neg' || mag = 0)
  | .inf neg,.inf neg' => neg = neg'
  | _,_ => false

/-- `===`. One side is always a text or a number where the checks compare. -/
def strictEq : Value → Value → Bool
  | .text s,.text s' => s = s'
  | .number x,.number x' => sameNumber x x'
  | _,_ => false

def requireEqual (actual expected : Value) (label : String) : Except ProofBindingError Unit :=
  failIf (strictEq actual expected = false) ⟨label ++ " mismatch"⟩

/-- The values every proof must bind to. -/
def manifestClaim (manifest : Doc) : Except ProofBindingError Argument := do
  let m ← requireObject manifest "manifest"
  requireEqual (m.value "bundle_version") (.text (utf16 branchOutputManifestVersion.toList))
    "manifest.bundle_version"
  let result ← requireObject (m.get "result") "manifest.result"
  let branchKey ← requireString (result.value "branch_key") "manifest.result.branch_key"
  let childJobId ← requireString (result.value "child_job_id") "manifest.result.child_job_id"
  let parentRequestId ← requireString (result.value "parent_request_id")
    "manifest.result.parent_request_id"
  let _ ← requireU32 (result.value "line_count") "manifest.result.line_count"
  let _ ← requireU32 (result.value "word_count") "manifest.result.word_count"
  requireEqual (m.value "branch_key") (.text branchKey) "manifest.branch_key"
  requireEqual (m.value "child_job_id") (.text childJobId) "manifest.child_job_id"
  requireEqual (m.value "parent_request_id") (.text parentRequestId) "manifest.parent_request_id"
  let _ ← requireObject (m.get "proofs") "manifest.proofs"
  let _ ← decodeScoreFelt (result.value "score_hex") "manifest.result.score_hex"
  pure result.argument

/-- The keys that no journal has. -/
def unexpected (journal : Properties) : List CodeUnits :=
  (journal.map Prod.fst).filter (fun key => key ∉ zkvmJournalFields.map (fun f => utf16 f.toList))

/-- `extra.sort().join(", ")`. -/
def sortedKeys (extra : List CodeUnits) : String :=
  ", ".intercalate ((extra.insertionSort (fun a b => a.map UInt16.toNat ≤ b.map UInt16.toNat)).map
    (fun key => String.ofList (scalars key)))

def checkJournalShape (journal : Option Doc) (label : String) :
    Except ProofBindingError Properties := do
  let j ← requireObject journal label
  failIf (unexpected j ≠ []) ⟨label ++ " has unexpected fields: " ++ sortedKeys (unexpected j)⟩
  let _ ← requireString (j.value "branch_key") (label ++ ".branch_key")
  let _ ← requireString (j.value "child_job_id") (label ++ ".child_job_id")
  let _ ← requireString (j.value "parent_request_id") (label ++ ".parent_request_id")
  let _ ← requireU32 (j.value "line_count") (label ++ ".line_count")
  let _ ← requireU32 (j.value "word_count") (label ++ ".word_count")
  let _ ← decodeScoreFelt (j.value "score_hex") (label ++ ".score_hex")
  let _ ← requireHex64 (j.value "reducer_digest") (label ++ ".reducer_digest") feltHexPattern
  pure j

/-- The claim of the manifest and the journal bound to it. -/
def bindZkvmJournalToManifest (manifest verification : Doc) :
    Except ProofBindingError (Argument × Properties) := do
  let claim ← manifestClaim manifest
  let m ← requireObject manifest "manifest"
  let proofs ← requireObject (m.get "proofs") "manifest.proofs"
  let zkvm ← requireObject (proofs.get "zkvm") "manifest.proofs.zkvm"
  let verified ← requireObject verification "zkvm verification"
  failIf (isTrue (verified.get "verified") = false)
    ⟨"zkvm verification.verified must be true"⟩
  requireEqual (verified.value "bundle_version") (.text (utf16 zkvmBundleVersion.toList))
    "zkvm verification.bundle_version"
  let _ ← requireHex64 (verified.value "image_id_hex") "zkvm verification.image_id_hex"
    feltHexPattern
  requireEqual (zkvm.value "image_id_hex") (verified.value "image_id_hex") "zkvm image id"
  let journal ← checkJournalShape (verified.get "journal") "zkvm verification.journal"
  requireEqual (journal.value "branch_key") claim.branchKey "zkvm journal.branch_key"
  requireEqual (journal.value "child_job_id") claim.childJobId "zkvm journal.child_job_id"
  requireEqual (journal.value "parent_request_id") claim.parentRequestId
    "zkvm journal.parent_request_id"
  requireEqual (journal.value "line_count") claim.lineCount "zkvm journal.line_count"
  requireEqual (journal.value "word_count") claim.wordCount "zkvm journal.word_count"
  requireEqual (journal.value "score_hex") claim.scoreHex "zkvm journal.score_hex"
  let digest ← computeReducerDigest journal.argument
  requireEqual (journal.value "reducer_digest") (.text (utf16 digest.toList))
    "zkvm journal.reducer_digest"
  let recorded ← checkJournalShape (zkvm.get "journal") "manifest.proofs.zkvm.journal"
  zkvmJournalFields.forM (fun field =>
    requireEqual (recorded.value field) (journal.value field)
      ("manifest.proofs.zkvm.journal." ++ field))
  pure (claim,journal)

/-- The value is the count `n`; zero may carry a sign. -/
def Value.Counts (v : Value) (n : UInt32) : Prop := v.isU32 = true ∧ v.toNat = n.toNat

/-- The argument names the tuple. -/
structure Carries (a : Argument) (t : Tuple CodeUnits) : Prop where
  branchKey : a.branchKey = .text t.branchKey
  childJobId : a.childJobId = .text t.childJobId
  parentRequestId : a.parentRequestId = .text t.parentRequestId
  scoreHex : a.scoreHex = .text (utf16 t.score)
  lineCount : a.lineCount.Counts t.lineCount
  wordCount : a.wordCount.Counts t.wordCount

lemma isU32_iff (v : Value) : v.isU32 = true ↔ ∃ neg mag, v = .number (.finite neg mag) ∧
    mag.den = 1 ∧ (neg = false ∨ mag = 0) ∧ mag ≤ 0xffffffff := by
  cases v with
  | text s => simp [Value.isU32]
  | other => simp [Value.isU32]
  | number x =>
    cases x with
    | inf neg => simp [Value.isU32]
    | nan => simp [Value.isU32]
    | finite neg mag => simp [Value.isU32,and_assoc]

lemma num_of_den {mag : ℚ≥0} (h : mag.den = 1) : (mag.num : ℚ≥0) = mag := by
  have := NNRat.num_div_den mag
  rwa [h,Nat.cast_one,div_one] at this

lemma counts_of_isU32 {v : Value} (h : v.isU32 = true) : ∃ n : UInt32, v.Counts n := by
  obtain ⟨neg,mag,rfl,hden,-,hle⟩ := (isU32_iff v).mp h
  have hnum : mag.num < 2^32 := by
    have hcast := NNRat.coe_le_coe.mpr hle
    rw [← num_of_den hden,NNRat.coe_natCast] at hcast
    have hle' : mag.num ≤ 0xffffffff := Nat.cast_le.mp hcast
    omega
  refine ⟨UInt32.ofNat mag.num,h,?_⟩
  rw [Value.toNat,UInt32.toNat_ofNat',Nat.mod_eq_of_lt hnum]

/-- Between two counts `===` compares the integers. -/
lemma strictEq_counts {v v' : Value} {n : UInt32} (hv : v.isU32 = true) (hn : v'.Counts n) :
    strictEq v v' = true ↔ v.Counts n := by
  obtain ⟨neg,mag,rfl,hden,hneg,-⟩ := (isU32_iff v).mp hv
  obtain ⟨neg',mag',rfl,hden',hneg',-⟩ := (isU32_iff v').mp hn.1
  have hval : mag'.num = n.toNat := hn.2
  constructor
  · intro h
    simp only [strictEq,sameNumber,Bool.and_eq_true,decide_eq_true_eq] at h
    exact ⟨hv,by rw [Value.toNat,h.1,hval]⟩
  · intro h
    have hnum : mag.num = mag'.num := Eq.trans h.2 hval.symm
    obtain rfl : mag = mag' := by rw [← num_of_den hden,← num_of_den hden',hnum]
    simp only [strictEq,sameNumber,Bool.and_eq_true,decide_eq_true_eq,Bool.or_eq_true]
    grind

@[simp] theorem strictEq_text {v : Value} {s : CodeUnits} :
    strictEq v (.text s) = true ↔ v = .text s := by
  cases v with
  | text s' => simp [strictEq]
  | number x => simp [strictEq]
  | other => simp [strictEq]

@[simp] theorem requireEqual_eq_ok {v v' : Value} {label : String} {u : Unit} :
    requireEqual v v' label = .ok u ↔ strictEq v v' = true := by
  rw [requireEqual,failIf_eq_ok,Bool.not_eq_false]

@[simp] theorem requireObject_eq_ok {value : Option Doc} {label : String} {o : Properties} :
    requireObject value label = .ok o ↔ value = some (.obj o) := by
  unfold requireObject
  split
  · simp
  · simp_all

@[simp] theorem requireU32_eq_ok {v : Value} {label : String} {n : ℕ} :
    requireU32 v label = .ok n ↔ v.isU32 = true ∧ v.toNat = n := by
  simp only [requireU32,bind_eq_ok,failIf_eq_ok,pure_eq_ok,exists_const,Bool.not_eq_false]

lemma decodes_iff {v : Value} {label : String} :
    (∃ bytes, decodeScoreFelt v label = .ok bytes) ↔
      ∃ digits, v = .text (utf16 digits) ∧ IsScore digits := by
  simp only [decodeScoreFelt_eq_ok,spells_iff]
  constructor
  · rintro ⟨bytes,digits,hv,hscore,-⟩
    exact ⟨digits,hv,hscore⟩
  · rintro ⟨digits,hv,hscore⟩
    exact ⟨_,digits,hv,hscore,rfl⟩

lemma isTrue_iff {value : Option Doc} : isTrue value = true ↔ value = some (.bool true) := by
  unfold isTrue
  split
  · simp
  · simp_all

end Node

namespace Tuple

/-- The bytes behind the reducer digest of the tuple. -/
def digestBytes (t : Tuple CodeUnits) : Bytes :=
  utf8 (t.ids scalars []) ++ (utf8 t.score ++ (leBytes 4 t.lineCount.toNat ++
    leBytes 4 t.wordCount.toNat))

/-- The digest as the journal writes it. -/
def digest (t : Tuple CodeUnits) : String := Reducer.encodeHex (sha256 t.digestBytes).val

end Tuple

namespace Node

/-- Every argument with ids, counts and a score names a tuple. -/
lemma exists_carries {a : Argument} {b c p : CodeUnits} {s : List Char}
    (hb : a.branchKey = .text b) (hc : a.childJobId = .text c) (hp : a.parentRequestId = .text p)
    (hs : a.scoreHex = .text (utf16 s)) (hscore : IsScore s) (hl : a.lineCount.isU32 = true)
    (hw : a.wordCount.isU32 = true) : ∃ t : Tuple CodeUnits, Carries a t := by
  obtain ⟨l,hl⟩ := counts_of_isU32 hl
  obtain ⟨w,hw⟩ := counts_of_isU32 hw
  exact ⟨⟨b,c,p,s,hscore,l,w⟩,hb,hc,hp,hs,hl,hw⟩

lemma Carries.digest {a : Argument} {t : Tuple CodeUnits} (h : Carries a t) :
    computeReducerDigest a = .ok t.digest := by
  have hl : ∀ label, requireU32 a.lineCount label = .ok t.lineCount.toNat :=
    fun label => requireU32_eq_ok.mpr h.lineCount
  have hw : ∀ label, requireU32 a.wordCount label = .ok t.wordCount.toNat :=
    fun label => requireU32_eq_ok.mpr h.wordCount
  have hinput : reducerDigestInput a = .ok t.digestBytes := by
    simp only [reducerDigestInput,h.branchKey,h.childJobId,h.parentRequestId,h.scoreHex,
      requireString,ok_bind,hl,hw,bufferFromUtf8,scalars_utf16,Tuple.digestBytes,Tuple.ids,
      utf8_append,List.append_nil,List.append_assoc]
    rfl
  rw [computeReducerDigest,hinput,ok_bind]
  rfl

/-- A journal object that names a tuple, with the digest of the tuple and no further property. -/
structure IsJournal (j : Properties) (t : Tuple CodeUnits) : Prop where
  carries : Carries j.argument t
  digest : j.value "reducer_digest" = .text (utf16 t.digest.toList)
  only : ∀ entry ∈ j, ∃ field ∈ zkvmJournalFields, entry.1 = utf16 field.toList

lemma unexpected_eq_nil {j : Properties} : unexpected j = [] ↔
    ∀ entry ∈ j, ∃ field ∈ zkvmJournalFields, entry.1 = utf16 field.toList := by
  rw [unexpected,List.filter_eq_nil_iff,List.forall_mem_map]
  simp only [decide_eq_true_eq,not_not,List.mem_map]
  simp only [eq_comm]

/-- What the shape check asks of a journal. -/
structure Shaped (j : Properties) (t : Tuple CodeUnits) : Prop where
  carries : Carries j.argument t
  hex : ∃ text, j.value "reducer_digest" = .text text ∧ feltHexPattern text = true
  only : unexpected j = []

lemma checkJournalShape_eq_ok {journal : Option Doc} {label : String} {j : Properties} :
    checkJournalShape journal label = .ok j ↔ journal = some (.obj j) ∧ ∃ t, Shaped j t := by
  simp only [checkJournalShape,bind_eq_ok,requireObject_eq_ok,failIf_eq_ok,requireString_eq_ok,
    requireU32_eq_ok,requireHex64,pure_eq_ok,exists_and_left,exists_const,not_not,
    Bool.not_eq_false]
  constructor
  · rintro ⟨o,hj,honly,b,hb,c,hc,p,hp,_,⟨hl,-⟩,_,⟨hw,-⟩,bytes,hs,_,⟨text,ht,hpat,-⟩,rfl⟩
    obtain ⟨s,hs,hscore⟩ := decodes_iff.mp ⟨bytes,hs⟩
    obtain ⟨t,hcarries⟩ := exists_carries (a := o.argument) hb hc hp hs hscore hl hw
    exact ⟨hj,t,hcarries,⟨text,ht,hpat⟩,honly⟩
  · rintro ⟨hj,t,⟨hb,hc,hp,hs,hl,hw⟩,⟨text,ht,hpat⟩,honly⟩
    obtain ⟨bytes,hbytes⟩ := decodes_iff.mpr ⟨t.score,hs,t.accepted⟩
    exact ⟨j,hj,honly,_,hb,_,hc,_,hp,_,⟨hl.1,rfl⟩,_,⟨hw.1,rfl⟩,bytes,hbytes,_,⟨text,ht,hpat,rfl⟩,
      rfl⟩

lemma encodeHex_pattern (bytes : Bytes) (h : bytes.length = 32) :
    feltHexPattern (utf16 (Reducer.encodeHex bytes).toList) = true := by
  refine (feltHexPattern_iff _).mpr ⟨_,rfl,?_,?_⟩
  · have := Reducer.hexPairs_length bytes
    rw [Reducer.encodeHex,String.toList_ofList]
    omega
  · rw [Reducer.encodeHex,String.toList_ofList]
    exact (Mirror.hexPairs_facts bytes).2

lemma IsJournal.shaped {j : Properties} {t : Tuple CodeUnits} (h : IsJournal j t) : Shaped j t where
  carries := h.carries
  hex := ⟨_,h.digest,encodeHex_pattern _ (sha256 t.digestBytes).property⟩
  only := unexpected_eq_nil.mpr h.only

/-- What a manifest claims of a branch. -/
structure Claims (m : Properties) (result proofs : Properties) (t : Tuple CodeUnits) : Prop where
  version : m.value "bundle_version" = .text (utf16 branchOutputManifestVersion.toList)
  hasResult : m.get "result" = some (.obj result)
  carries : Carries result.argument t
  branchKey : m.value "branch_key" = .text t.branchKey
  childJobId : m.value "child_job_id" = .text t.childJobId
  parentRequestId : m.value "parent_request_id" = .text t.parentRequestId
  hasProofs : m.get "proofs" = some (.obj proofs)

lemma manifestClaim_eq_ok {manifest : Doc} {claim : Argument} :
    manifestClaim manifest = .ok claim ↔ ∃ m result proofs t, manifest = .obj m ∧
      Claims m result proofs t ∧ claim = result.argument := by
  simp only [manifestClaim,bind_eq_ok,requireObject_eq_ok,requireEqual_eq_ok,strictEq_text,
    requireString_eq_ok,requireU32_eq_ok,pure_eq_ok,exists_and_left,exists_const]
  constructor
  · rintro ⟨m,hm,hversion,result,hresult,b,hb,c,hc,p,hp,_,⟨hl,-⟩,_,⟨hw,-⟩,hb',hc',hp',proofs,
      hproofs,bytes,hs,rfl⟩
    obtain ⟨s,hs,hscore⟩ := decodes_iff.mp ⟨bytes,hs⟩
    obtain ⟨t,ht⟩ := exists_carries (a := result.argument) hb hc hp hs hscore hl hw
    obtain rfl := Value.text.inj (ht.branchKey.symm.trans hb)
    obtain rfl := Value.text.inj (ht.childJobId.symm.trans hc)
    obtain rfl := Value.text.inj (ht.parentRequestId.symm.trans hp)
    exact ⟨m,Option.some.inj hm,result,proofs,t,⟨hversion,hresult,ht,hb',hc',hp',hproofs⟩,rfl⟩
  · rintro ⟨m,rfl,result,proofs,t,⟨hversion,hresult,ht,hb',hc',hp',hproofs⟩,rfl⟩
    obtain ⟨bytes,hbytes⟩ := decodes_iff.mpr ⟨t.score,ht.scoreHex,t.accepted⟩
    exact ⟨m,rfl,hversion,result,hresult,_,ht.branchKey,_,ht.childJobId,_,ht.parentRequestId,
      _,⟨ht.lineCount.1,rfl⟩,_,⟨ht.wordCount.1,rfl⟩,hb',hc',hp',proofs,hproofs,bytes,hbytes,rfl⟩

/-- The comparisons of two arguments, property by property. -/
structure Equal (a c : Argument) : Prop where
  branchKey : strictEq a.branchKey c.branchKey = true
  childJobId : strictEq a.childJobId c.childJobId = true
  parentRequestId : strictEq a.parentRequestId c.parentRequestId = true
  scoreHex : strictEq a.scoreHex c.scoreHex = true
  lineCount : strictEq a.lineCount c.lineCount = true
  wordCount : strictEq a.wordCount c.wordCount = true

/-- An argument with counts equals one that names a tuple when it names the tuple too. -/
lemma equal_iff {a c : Argument} {t : Tuple CodeUnits} (hl : a.lineCount.isU32 = true)
    (hw : a.wordCount.isU32 = true) (hc : Carries c t) : Equal a c ↔ Carries a t := by
  constructor
  · rintro ⟨h1,h2,h3,h4,h5,h6⟩
    rw [hc.branchKey,strictEq_text] at h1
    rw [hc.childJobId,strictEq_text] at h2
    rw [hc.parentRequestId,strictEq_text] at h3
    rw [hc.scoreHex,strictEq_text] at h4
    exact ⟨h1,h2,h3,h4,(strictEq_counts hl hc.lineCount).mp h5,
      (strictEq_counts hw hc.wordCount).mp h6⟩
  · rintro ⟨h1,h2,h3,h4,h5,h6⟩
    refine ⟨?_,?_,?_,?_,(strictEq_counts hl hc.lineCount).mpr h5,
      (strictEq_counts hw hc.wordCount).mpr h6⟩
    · rwa [hc.branchKey,strictEq_text]
    · rwa [hc.childJobId,strictEq_text]
    · rwa [hc.parentRequestId,strictEq_text]
    · rwa [hc.scoreHex,strictEq_text]

/-- A manifest and a verification bound to each other, with the tuple that all their objects
name. -/
structure Bound (manifest verification : Doc) where
  m : Properties
  result : Properties
  proofs : Properties
  zkvm : Properties
  verified : Properties
  journal : Properties
  recorded : Properties
  tuple : Tuple CodeUnits
  image : CodeUnits
  isManifest : manifest = .obj m
  isVerification : verification = .obj verified
  claims : Claims m result proofs tuple
  hasProof : proofs.get "zkvm" = some (.obj zkvm)
  isVerified : verified.get "verified" = some (.bool true)
  version : verified.value "bundle_version" = .text (utf16 zkvmBundleVersion.toList)
  imageId : verified.value "image_id_hex" = .text image
  imageHex : feltHexPattern image = true
  sameImage : zkvm.value "image_id_hex" = .text image
  hasJournal : verified.get "journal" = some (.obj journal)
  isJournal : IsJournal journal tuple
  hasRecorded : zkvm.get "journal" = some (.obj recorded)
  isRecorded : IsJournal recorded tuple

/-- The loop over the fields compares the journals as arguments, and their digests. -/
lemma recorded_iff {r j : Properties} {label : String → String} {u : Unit} :
    zkvmJournalFields.forM (fun field =>
        requireEqual (r.value field) (j.value field) (label field)) = .ok u ↔
      Equal r.argument j.argument ∧
        strictEq (r.value "reducer_digest") (j.value "reducer_digest") = true := by
  rw [show Except.ok u = (Except.ok () : Except ProofBindingError Unit) from rfl,forM_eq_ok]
  simp only [zkvmJournalFields,List.forall_mem_cons,List.not_mem_nil,false_imp_iff,implies_true,
    and_true,requireEqual_eq_ok]
  constructor
  · rintro ⟨h1,h2,h3,h4,h5,h6,h7⟩
    exact ⟨⟨h1,h2,h4,h6,h3,h7⟩,h5⟩
  · rintro ⟨⟨h1,h2,h4,h6,h3,h7⟩,h5⟩
    exact ⟨h1,h2,h3,h4,h5,h6,h7⟩

/-- The checks pass exactly the manifests and verifications whose objects all name one tuple, with
the digest of that tuple in both journals. -/
theorem bindZkvmJournalToManifest_eq_ok {manifest verification : Doc} {claim : Argument}
    {journal : Properties} : bindZkvmJournalToManifest manifest verification = .ok (claim,journal) ↔
      ∃ b : Bound manifest verification, claim = b.result.argument ∧ journal = b.journal := by
  simp only [bindZkvmJournalToManifest,bind_eq_ok,manifestClaim_eq_ok,requireObject_eq_ok,
    requireEqual_eq_ok,strictEq_text,requireHex64,requireString_eq_ok,failIf_eq_ok,
    checkJournalShape_eq_ok,pure_eq_ok,isTrue_iff,exists_and_left,exists_const,Bool.not_eq_false]
  constructor
  · rintro ⟨_,⟨m,rfl,result,proofs,t,hclaims,rfl⟩,m',hm,proofs',hproofs,zkvm,hzkvm,verified,
      hverified,htrue,hversion,_,⟨image,himage,hhex,rfl⟩,hsame,j,⟨hj,t',hshaped⟩,h1,h2,h3,h4,h5,h6,
      digest,hdigest,hreducer,r,⟨hr,t'',hshaped'⟩,_,hloop,hout⟩
    obtain rfl : m = m' := by simpa using hm
    obtain rfl : proofs = proofs' := by simpa [hproofs] using hclaims.hasProofs.symm
    obtain ⟨rfl,rfl⟩ := Prod.mk.inj hout
    have hjt : Carries j.argument t := (equal_iff hshaped.carries.lineCount.1
      hshaped.carries.wordCount.1 hclaims.carries).mp ⟨h1,h2,h3,h6,h4,h5⟩
    obtain rfl : t.digest = digest := Except.ok.inj (hjt.digest.symm.trans hdigest)
    have hrec := recorded_iff.mp hloop
    have hrt : Carries r.argument t := (equal_iff hshaped'.carries.lineCount.1
      hshaped'.carries.wordCount.1 hjt).mp hrec.1
    rw [himage,strictEq_text] at hsame
    rw [hreducer,strictEq_text] at hrec
    exact ⟨⟨m,result,proofs,zkvm,verified,j,r,t,image,rfl,Option.some.inj hverified,hclaims,hzkvm,
      htrue,hversion,himage,hhex,hsame,hj,⟨hjt,hreducer,unexpected_eq_nil.mp hshaped.only⟩,hr,
      ⟨hrt,hrec.2,unexpected_eq_nil.mp hshaped'.only⟩⟩,rfl,rfl⟩
  · rintro ⟨b,rfl,rfl⟩
    have hj := b.isJournal.carries
    have hr := b.isRecorded.carries
    have hequal := (equal_iff hj.lineCount.1 hj.wordCount.1 b.claims.carries).mpr hj
    have hrecorded := (equal_iff hr.lineCount.1 hr.wordCount.1 hj).mpr hr
    have hdigest : strictEq (b.recorded.value "reducer_digest")
        (b.journal.value "reducer_digest") = true := by
      rw [b.isJournal.digest,strictEq_text]
      exact b.isRecorded.digest
    refine ⟨_,⟨b.m,b.isManifest,b.result,b.proofs,b.tuple,b.claims,rfl⟩,b.m,
      congrArg some b.isManifest,b.proofs,b.claims.hasProofs,b.zkvm,b.hasProof,b.verified,
      congrArg some b.isVerification,b.isVerified,b.version,_,⟨b.image,b.imageId,b.imageHex,rfl⟩,?_,
      b.journal,⟨b.hasJournal,_,b.isJournal.shaped⟩,hequal.branchKey,hequal.childJobId,
      hequal.parentRequestId,hequal.lineCount,hequal.wordCount,hequal.scoreHex,_,hj.digest,
      b.isJournal.digest,b.recorded,⟨b.hasRecorded,_,b.isRecorded.shaped⟩,(),
      recorded_iff.mpr ⟨hrecorded,hdigest⟩,rfl⟩
    rw [b.imageId,strictEq_text]
    exact b.sameImage

/-- An argument names one tuple at most. -/
lemma Carries.unique {a : Argument} {t t' : Tuple CodeUnits} (h : Carries a t)
    (h' : Carries a t') : t = t' := by
  obtain ⟨b,c,p,s,hs,l,w⟩ := t
  obtain ⟨b',c',p',s',hs',l',w'⟩ := t'
  obtain rfl := Value.text.inj (h.branchKey.symm.trans h'.branchKey)
  obtain rfl := Value.text.inj (h.childJobId.symm.trans h'.childJobId)
  obtain rfl := Value.text.inj (h.parentRequestId.symm.trans h'.parentRequestId)
  obtain rfl := utf16_injective (Value.text.inj (h.scoreHex.symm.trans h'.scoreHex))
  obtain rfl : l = l' := UInt32.toNat_inj.mp (h.lineCount.2.symm.trans h'.lineCount.2)
  obtain rfl : w = w' := UInt32.toNat_inj.mp (h.wordCount.2.symm.trans h'.wordCount.2)
  rfl

lemma Bound.of_ok {manifest verification : Doc} {claim : Argument} {journal : Properties}
    (h : bindZkvmJournalToManifest manifest verification = .ok (claim,journal)) :
    ∃ t, Carries claim t ∧ IsJournal journal t := by
  obtain ⟨b,rfl,rfl⟩ := bindZkvmJournalToManifest_eq_ok.mp h
  exact ⟨b.tuple,b.claims.carries,b.isJournal⟩

/-- Equal digests name one score, one pair of counts and one text of ids, or two byte strings that
were hashed collide. -/
lemma digest_binds {t t' : Tuple CodeUnits} (h : t.digest = t'.digest) :
    (t.ids scalars [] = t'.ids scalars [] ∧ t.score = t'.score ∧ t.lineCount = t'.lineCount ∧
      t.wordCount = t'.wordCount) ∨ Collision sha256 [t.digestBytes,t'.digestBytes] := by
  have hhash : sha256 t.digestBytes = sha256 t'.digestBytes :=
    Subtype.ext (Mirror.encodeHex_injective h)
  refine (eq_or_collision (by simp) (by simp) hhash).imp_left (fun hbytes => ?_)
  rw [← Tuple.digestInput_eq_iff,Tuple.digestInput_eq,Tuple.digestInput_eq]
  exact congrArg Except.ok hbytes

/-- The journal that names a tuple. -/
def journalOf (t : Tuple CodeUnits) : Properties := [
  (utf16 "branch_key".toList,.text t.branchKey),
  (utf16 "child_job_id".toList,.text t.childJobId),
  (utf16 "line_count".toList,.number (.finite false t.lineCount.toNat)),
  (utf16 "parent_request_id".toList,.text t.parentRequestId),
  (utf16 "reducer_digest".toList,.text (utf16 t.digest.toList)),
  (utf16 "score_hex".toList,.text (utf16 t.score)),
  (utf16 "word_count".toList,.number (.finite false t.wordCount.toNat))]

/-- The manifest of a branch whose proof was verified. -/
def manifestOf (t : Tuple CodeUnits) (image : CodeUnits) : Doc := .obj [
  (utf16 "bundle_version".toList,.text (utf16 branchOutputManifestVersion.toList)),
  (utf16 "branch_key".toList,.text t.branchKey),
  (utf16 "child_job_id".toList,.text t.childJobId),
  (utf16 "parent_request_id".toList,.text t.parentRequestId),
  (utf16 "result".toList,.obj (journalOf t)),
  (utf16 "proofs".toList,.obj [(utf16 "zkvm".toList,.obj [
    (utf16 "image_id_hex".toList,.text image),(utf16 "journal".toList,.obj (journalOf t))])])]

/-- What the verifier writes about the receipt. -/
def verificationOf (t : Tuple CodeUnits) (image : CodeUnits) : Doc := .obj [
  (utf16 "bundle_version".toList,.text (utf16 zkvmBundleVersion.toList)),
  (utf16 "image_id_hex".toList,.text image),
  (utf16 "journal".toList,.obj (journalOf t)),
  (utf16 "verified".toList,.bool true)]

lemma carries_journalOf (t : Tuple CodeUnits) : Carries (journalOf t).argument t where
  branchKey := rfl
  childJobId := rfl
  parentRequestId := rfl
  scoreHex := rfl
  lineCount := by
    have h := requireU32_natCast t.lineCount ""
    rwa [requireU32_eq_ok] at h
  wordCount := by
    have h := requireU32_natCast t.wordCount ""
    rwa [requireU32_eq_ok] at h

lemma isJournal_journalOf (t : Tuple CodeUnits) : IsJournal (journalOf t) t where
  carries := carries_journalOf t
  digest := rfl
  only := by
    simp [journalOf,zkvmJournalFields]

/-- The documents of a verified branch are bound to each other. -/
lemma accepts_documents (t : Tuple CodeUnits) {image : CodeUnits}
    (h : feltHexPattern image = true) :
    bindZkvmJournalToManifest (manifestOf t image) (verificationOf t image) =
      .ok ((journalOf t).argument,journalOf t) := by
  refine bindZkvmJournalToManifest_eq_ok.mpr ⟨{
    m := _, result := journalOf t, proofs := _, zkvm := _, verified := _, journal := journalOf t,
    recorded := journalOf t, tuple := t, image := image, isManifest := rfl, isVerification := rfl,
    claims := ⟨rfl,rfl,carries_journalOf t,rfl,rfl,rfl,rfl⟩, hasProof := rfl, isVerified := rfl,
    version := rfl, imageId := rfl, imageHex := h, sameImage := rfl, hasJournal := rfl,
    isJournal := isJournal_journalOf t, hasRecorded := rfl, isRecorded := isJournal_journalOf t},
    rfl,rfl⟩

/-- A manifest and a verification pass exactly when all their objects name one tuple under its
digest. One verified journal passes the manifests of one claim, and one digest those of one score,
one pair of counts and one text of ids. -/
theorem zkvm_binding_pins_claim (manifest verification manifest' verification' : Doc) :
    (Accepts (bindZkvmJournalToManifest manifest verification) ↔
      Nonempty (Bound manifest verification)) ∧
    ∀ claim journal claim' journal',
      bindZkvmJournalToManifest manifest verification = .ok (claim,journal) →
      bindZkvmJournalToManifest manifest' verification' = .ok (claim',journal') →
      journal.value "reducer_digest" = journal'.value "reducer_digest" →
      ∃ t t', Carries claim t ∧ Carries claim' t' ∧ (journal = journal' → t = t') ∧
        ((t.ids scalars [] = t'.ids scalars [] ∧ t.score = t'.score ∧ t.lineCount = t'.lineCount ∧
          t.wordCount = t'.wordCount) ∨ Collision sha256 [t.digestBytes,t'.digestBytes]) := by
  constructor
  · constructor
    · rintro ⟨⟨claim,journal⟩,h⟩
      obtain ⟨b,-,-⟩ := bindZkvmJournalToManifest_eq_ok.mp h
      exact ⟨b⟩
    · rintro ⟨b⟩
      exact ⟨_,bindZkvmJournalToManifest_eq_ok.mpr ⟨b,rfl,rfl⟩⟩
  · intro claim journal claim' journal' h h' hdigest
    obtain ⟨t,ht,hj⟩ := Bound.of_ok h
    obtain ⟨t',ht',hj'⟩ := Bound.of_ok h'
    rw [hj.digest,hj'.digest] at hdigest
    have hsame : t.digest = t'.digest :=
      String.toList_inj.mp (utf16_injective (Value.text.inj hdigest))
    refine ⟨t,t',ht,ht',?_,digest_binds hsame⟩
    rintro rfl
    exact hj.carries.unique hj'.carries

/-- The id of an image whose digits are all zero. -/
def zeroImage : CodeUnits := List.replicate 64 48

theorem zkvm_binding_pins_recut :
    ∃ claim journal claim' journal',
      bindZkvmJournalToManifest
          (manifestOf (.cut (utf16 ['a','b']) (utf16 ['c']) (utf16 ['p'])) zeroImage)
          (verificationOf (.cut (utf16 ['a','b']) (utf16 ['c']) (utf16 ['p'])) zeroImage) =
        .ok (claim,journal) ∧
      bindZkvmJournalToManifest
          (manifestOf (.cut (utf16 ['a']) (utf16 ['b','c']) (utf16 ['p'])) zeroImage)
          (verificationOf (.cut (utf16 ['a']) (utf16 ['b','c']) (utf16 ['p'])) zeroImage) =
        .ok (claim',journal') ∧
      ∃ t t', Carries claim t ∧ Carries claim' t' ∧ (journal = journal' → t = t') := by
  have hzero : feltHexPattern zeroImage = true := by decide +kernel
  have h := accepts_documents (.cut (utf16 ['a','b']) (utf16 ['c']) (utf16 ['p'])) hzero
  have h' := accepts_documents (.cut (utf16 ['a']) (utf16 ['b','c']) (utf16 ['p'])) hzero
  have hids : (Tuple.cut (utf16 ['a','b']) (utf16 ['c']) (utf16 ['p'])).digestBytes =
      (Tuple.cut (utf16 ['a']) (utf16 ['b','c']) (utf16 ['p'])).digestBytes := by decide +kernel
  have hdigest := congrArg (fun bytes => Value.text
    (utf16 (Reducer.encodeHex (sha256 bytes).val).toList)) hids
  obtain ⟨t,t',ht,ht',hunique,-⟩ :=
    (zkvm_binding_pins_claim _ _ _ _).2 _ _ _ _ h h' hdigest
  exact ⟨_,_,_,_,h,h',t,t',ht,ht',hunique⟩

end Node

end Kswarm.Legacy
