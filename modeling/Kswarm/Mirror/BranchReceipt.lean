import Kswarm.Mirror.Reader
import Kswarm.Protocol.Receipt
import Kswarm.Reducer.SelfCheck
import Kswarm.Worker.BranchReceipt

/-! The worker's canonicalization of a branch output and the zkVM guest's. The guest reads the
canonical frame back through a JSON parser and derives the receipt the worker submitted. -/
namespace Kswarm
namespace Mirror
open Protocol Reducer.BranchReceipt

/-- What the guest relies on of `serde_json::from_slice` to accept a document: canonical text
whose integers it can hold is read back as the document it spells, within the recursion limit. -/
def ReadsCanonical (fromSlice : Bytes → Option Json) : Prop :=
  ∀ v : Json, v.Plain → v.depth < 128 → Reducer.rejectFloats v = .ok () →
    fromSlice (utf8 (Json.render v.sortKeys)) = some v.sortKeys

/-- What it relies on to accept nothing else: whatever is read from canonical text is the document
it spells, some floating-point number standing for each integer outside `i64` and `u64`. -/
def ReadsFaithfully (approx : ℤ → Binary64) (fromSlice : Bytes → Option Json) : Prop :=
  ∀ v w : Json, v.Plain → fromSlice (utf8 (Json.render v.sortKeys)) = some w →
    w = v.sortKeys.held approx

/-- The document the guest is shown. -/
def document (f : OutputFields) : Json := Worker.proofDocument f.modelDump

section Reading
variable {f : OutputFields}

lemma plain_document (h : f.keysDistinct) : (document f).Plain := (plain_modelDump f h).without _

lemma hashPreimage_document (h : f.keysDistinct) :
    hashPreimage (document f).sortKeys = f.canonicalHashPreimage.sortKeys := by
  rw [hashPreimage,Json.without_sortKeys _ (plain_document h)]
  rfl

lemma kindOf_name (k : OutputKind) : kindOf k.name = some k := by cases k <;> decide

lemma stringField_eq {v : Json} {k s : String} (h : v.get k = some (.str s)) :
    stringField v k = .ok s := by
  simp [stringField,h,asStr]

lemma asU64_eq {n : ℕ} (hn : n < 2^64) : asU64 (.int n) = some n := by
  have hz : (n : ℤ) < 2^64 := by exact_mod_cast hn
  rw [asU64,if_pos ⟨by simp,hz⟩]
  rfl

lemma asU64_int {m n : ℕ} (h : asU64 (.int m) = some n) : m = n := by
  rw [asU64] at h
  split_ifs at h
  exact Option.some.inj h

lemma u64Field_eq {v : Json} {k : String} {n : ℕ} (h : v.get k = some (.int n)) (hn : n < 2^64) :
    u64Field v k = .ok n := by
  simp [u64Field,h,asU64_eq hn]

lemma optionalU64_eq {v : Json} {k : String} {o : Option ℕ} (h : v.get k = some (optInt o))
    (ho : ∀ n ∈ o, n < 2^64) : optionalU64 v k = .ok o := by
  cases o with
  | none =>
    rw [optInt] at h
    simp [optionalU64,h]
  | some n =>
    rw [optInt] at h
    simp [optionalU64,h,asU64_eq (ho n rfl)]

lemma optionalBps_eq {v : Json} {k : String} {o : Option ℕ} (h : v.get k = some (optInt o))
    (ho : ∀ n ∈ o, n ≤ 10000) : optionalBps v k = .ok o := by
  have hwide : ∀ n ∈ o, n < 2^64 := fun n hn => lt_of_le_of_lt (ho n hn) (by decide)
  simp only [optionalBps,optionalU64_eq h hwide,bind_eq_ok,failIf_eq_ok,pure_eq_ok]
  refine ⟨o,rfl,(),?_,rfl⟩
  cases o with
  | none => simp
  | some n =>
    have hn : ¬Reducer.bpsMax < n := not_lt.mpr (ho n rfl)
    simp [hn]

lemma btree_eq (entries : List (String × Json)) :
    btree entries = entries.insertionSort (fun a b => Json.codePointLe a.1 b.1) := by
  have hle : (fun a b : String × Json => Json.byteLe a.1 b.1) =
      fun a b => Json.codePointLe a.1 b.1 := by
    funext a b
    exact propext (utf8_le_iff a.1.toList b.1.toList)
  have hdec : ∀ (r s : String × Json → String × Json → Prop) (dr : DecidableRel r)
      (ds : DecidableRel s), r = s →
      @List.insertionSort _ r dr entries = @List.insertionSort _ s ds entries := by
    intro r s dr ds h
    subst h
    rw [Subsingleton.elim dr ds]
  exact hdec _ _ _ _ hle

/-- The sorted members of a dictionary of integers. -/
lemma intDict_sortKeys (s : List (String × ℕ)) : (intDict s).sortKeys = intDict (sortScores s) := by
  change Json.obj _ = Json.obj _
  rw [Json.sortFields_eq_map,List.map_map,sortScores]
  congr 1
  symm
  apply List.map_insertionSort
  intro a _ b _
  rfl

lemma scorePairs_eq {s : List (String × ℕ)} (h : ∀ p ∈ s, p.2 ≤ 10000) :
    scorePairs (s.map (fun p => (p.1,.int p.2))) = .ok s := by
  induction s with
  | nil => rfl
  | cons p s ih =>
    have hp := h p (by simp)
    have htail := ih (fun q hq => h q (by simp [hq]))
    have hu : asU64 (.int p.2) = some p.2 := asU64_eq (lt_of_le_of_lt hp (by decide))
    simp only [List.map_cons,scorePairs,htail,hu,bind_eq_ok,require_eq_ok,failIf_eq_ok,pure_eq_ok]
    exact ⟨_,rfl,(),not_lt.mpr hp,_,rfl,rfl⟩

lemma narrativeScores_eq {v : Json}
    (hv : v.get "narrative_scores" = some (optDict f.narrativeScores).sortKeys)
    (h : ∀ p ∈ scores f, p.2 ≤ 10000) : narrativeScores v = .ok (sortScores (scores f)) := by
  cases hs : f.narrativeScores with
  | none =>
    rw [hs] at hv
    simp only [narrativeScores,hv,scores,hs]
    rfl
  | some s =>
    have hsc : scores f = s := by simp [scores,hs]
    rw [hs,optDict,intDict_sortKeys] at hv
    rw [hsc] at h ⊢
    have hle : ∀ p ∈ sortScores s, p.2 ≤ 10000 := by
      intro p hp
      exact h p ((List.perm_insertionSort _ _).mem_iff.mp hp)
    have hsorted : ((sortScores s).map (fun p => (p.1,Json.int p.2))).Pairwise
        (fun a b => Json.codePointLe a.1 b.1) := by
      rw [List.pairwise_map]
      have : Std.Total (fun a b : String × ℕ => Json.codePointLe a.1 b.1) :=
        ⟨fun a b => le_total a.1.toList b.1.toList⟩
      have : IsTrans (String × ℕ) (fun a b => Json.codePointLe a.1 b.1) :=
        ⟨fun _ _ _ h h' => le_trans h h'⟩
      exact List.pairwise_insertionSort _ _
    simp only [narrativeScores,hv,intDict,btree_eq,hsorted.insertionSort_eq]
    exact scorePairs_eq hle

end Reading

section Encoding
variable {f : OutputFields}

/-- The guest's layout of the fields is the worker's. -/
lemma layout_eq (h : f.Checked) (hi : f.branchIndex < 2^32) (hs : (scores f).length ≤ 32)
    (hash : Digest) :
    layout f.outputKind f.branchIndex f.scalarValueBps f.scalarConfidenceLowerBps
      f.scalarConfidenceUpperBps f.categoricalLabelIndex (sortScores (scores f)) hash =
      (f.receipt h hi hs hash).bytes :=
  Reducer.BranchReceipt.layout_eq_bytes (f.receipt h hi hs hash) f.categoricalLabelIndex
    (sortScores (scores f)) rfl rfl

/-- Behind its readers the guest writes the layout of the document's tuple. -/
lemma encodeFields_eq_ok (h : f.Checked) (hi : f.branchIndex < 2^32) {hash : Digest} {b : Bytes} :
    encodeFields f.outputKind f.branchIndex f.scalarValueBps f.scalarConfidenceLowerBps
      f.scalarConfidenceUpperBps f.categoricalLabelIndex (sortScores (scores f)) hash = .ok b ↔
      ∃ hs, b = (f.receipt h hi hs hash).bytes := by
  have hlen : (sortScores (scores f)).length = (scores f).length := List.length_insertionSort _ _
  have hnil : sortScores (scores f) = [] ↔ scores f = [] := by
    rw [← List.length_eq_zero_iff,← List.length_eq_zero_iff,hlen]
  have hshape1 : ¬(f.outputKind = .scalar ∧ f.scalarValueBps = none) :=
    fun hc => h.scalar_shape hc.1 hc.2
  have hshape2 : ¬(f.outputKind = .categorical ∧ f.categoricalLabelIndex = none) :=
    fun hc => h.label_shape hc.1 hc.2
  have hshape3 : ¬(f.outputKind = .narrativeWithScalar ∧ sortScores (scores f) = []) :=
    fun hc => h.scores_shape hc.1 (hnil.mp hc.2)
  have horder : ¬(f.scalarConfidenceLowerBps.any (fun low =>
      f.scalarConfidenceUpperBps.any (fun high => decide (high < low))) = true) := by
    simp only [Option.any_eq_true,decide_eq_true_eq,not_exists,not_and,not_lt]
    exact fun low hlow high hhigh => h.ordered low hlow high hhigh
  simp only [encodeFields,bind_eq_ok,failIf_eq_ok,pure_eq_ok,hlen]
  constructor
  · rintro ⟨-,-,-,-,-,-,-,-,-,hs,-,-,rfl⟩
    exact ⟨not_lt.mp hs,layout_eq h hi (not_lt.mp hs) hash⟩
  · rintro ⟨hs,rfl⟩
    have hshort := (f.receipt h hi hs hash).length_le
    refine ⟨(),hshape1,(),hshape2,(),hshape3,(),horder,(),not_lt.mpr hs,(),?_,
      layout_eq h hi hs hash⟩
    rw [layout_eq h hi hs hash]
    exact not_lt.mpr hshort

/-- From the sorted document the guest reads the fields the worker encoded. -/
theorem encodeBranchResultBytes_eq_ok (h : f.Checked) {hash : Digest} {b : Bytes} :
    encodeBranchResultBytes (document f).sortKeys hash = .ok b ↔
      ∃ hi hs, b = (f.receipt h hi hs hash).bytes := by
  have hget : ∀ {k : String} {v : Json}, (document f).get k = some v →
      (document f).sortKeys.get k = some v.sortKeys := by
    intro k v hv
    rw [Json.get_sortKeys (plain_document h.distinct),hv]
    rfl
  have hint : ∀ {k : String} {o : Option ℕ}, (document f).get k = some (optInt o) →
      (document f).sortKeys.get k = some (optInt o) := by
    intro k o ho
    rw [hget ho,sortKeys_optInt]
  have hkind := stringField_eq (hget (v := .str f.outputKind.name) (k := "output_kind") rfl)
  have hscalar := optionalBps_eq (hint (k := "scalar_value_bps") rfl) h.scalar_le
  have hlower := optionalBps_eq (hint (k := "scalar_confidence_lower_bps") rfl) h.lower_le
  have hupper := optionalBps_eq (hint (k := "scalar_confidence_upper_bps") rfl) h.upper_le
  have hlabel := optionalU64_eq (hint (k := "categorical_label_index") rfl)
    (fun n hn => lt_of_le_of_lt (h.label_le n hn) (by decide))
  have hbyte : ¬(f.categoricalLabelIndex.any (fun v => decide (255 < v)) = true) := by
    intro hc
    obtain ⟨l,hl,hc⟩ := Option.any_eq_true _ _ |>.mp hc
    exact absurd (h.label_le l hl) (not_le.mpr (of_decide_eq_true hc))
  have hscores := narrativeScores_eq (hget (k := "narrative_scores") rfl) h.scores_le
  have hfound := hget (k := "branch_index") (v := .int f.branchIndex) rfl
  simp only [encodeBranchResultBytes,hkind,hscalar,hlower,hupper,hlabel,hscores,
    bind_eq_ok,failIf_eq_ok,require_eq_ok,kindOf_name,Except.ok.injEq,Option.some.injEq,
    exists_eq_left']
  constructor
  · rintro ⟨n,hn,-,hi,-,-,henc⟩
    obtain rfl : f.branchIndex = n := by
      simp only [u64Field,hfound,bind_eq_ok,require_eq_ok,Option.some.injEq,exists_eq_left'] at hn
      exact asU64_int hn
    exact ⟨not_le.mp hi,(encodeFields_eq_ok h (not_le.mp hi)).mp henc⟩
  · rintro ⟨hi,hs,rfl⟩
    refine ⟨f.branchIndex,u64Field_eq hfound (lt_trans hi (by decide)),(),not_le.mpr hi,(),
      hbyte,?_⟩
    exact (encodeFields_eq_ok h hi).mpr ⟨hs,rfl⟩

/-- The canonical text of the document the guest is shown. -/
def documentText (f : OutputFields) : Bytes := utf8 (Json.render (document f).sortKeys)

/-- The journal of a document the guest accepts. -/
def journalOf (h : f.Checked) (hi : f.branchIndex < 2^32) (hs : (scores f).length ≤ 32)
    (inputDigest : Digest) : BranchReceiptJournal where
  inputDigest := inputDigest
  resultHash := sha256 (f.receipt h hi hs (preimageHash f)).bytes
  outputLen := (documentText f).length
  resultBytes := (f.receipt h hi hs (preimageHash f)).bytes
  canonicalHash := preimageHash f

/-- The guest reduces the sorted document to the worker's own result bytes; it refuses only a wide
index, too many scores, and a document whose length does not fit `u32`. -/
theorem recomputeOutput_eq_ok (h : f.Checked)
    (hn : Reducer.rejectFloats (document f).sortKeys = .ok ()) {digest : Digest}
    {j : BranchReceiptJournal} :
    recomputeOutput (document f).sortKeys digest = .ok j ↔
      (documentText f).length < 2^32 ∧ ∃ hi hs, j = journalOf h hi hs digest := by
  have hpre : hashPreimage (document f).sortKeys = f.canonicalHashPreimage.sortKeys :=
    hashPreimage_document h.distinct
  have hpren : Reducer.rejectFloats f.canonicalHashPreimage.sortKeys = .ok () := by
    rw [← hpre]
    exact Reducer.rejectFloats_without _ hn
  simp only [recomputeOutput,hpre,Reducer.canonicalJsonBytes_sortKeys hn,
    Reducer.canonicalJsonBytes_sortKeys hpren,bind_eq_ok,failIf_eq_ok,pure_eq_ok,ok_of_mapError,
    Except.ok.injEq,exists_eq_left']
  constructor
  · rintro ⟨-,hlen,b,henc,-,-,rfl⟩
    obtain ⟨hi,hs,rfl⟩ := (encodeBranchResultBytes_eq_ok h).mp henc
    exact ⟨not_le.mp hlen,hi,hs,rfl⟩
  · rintro ⟨hlen,hi,hs,rfl⟩
    exact ⟨(),not_le.mpr hlen,_,(encodeBranchResultBytes_eq_ok h).mpr ⟨hi,hs,rfl⟩,_,
      Reducer.Receipt.parse_bytes _,rfl⟩

end Encoding

section Framing

lemma plain_frame {d : Json} (hd : d.Plain) (sha : Digest) : (Worker.frame sha d).Plain := by
  refine ⟨?_,trivial,trivial,trivial,hd,trivial⟩
  simp only [List.map_cons,List.map_nil]
  decide

lemma rejectFloats_frame {d : Json} (hd : Reducer.rejectFloats d = .ok ()) (sha : Digest) :
    Reducer.rejectFloats (Worker.frame sha d) = .ok () := by
  refine Reducer.rejectEntries_eq_ok.mpr (fun p hp => ?_)
  simp only [List.mem_cons,List.not_mem_nil,or_false] at hp
  obtain rfl | rfl | rfl | rfl := hp
  · rfl
  · rfl
  · rfl
  · exact hd

/-- A dumped output nests at most twice, its frame at most three times. -/
lemma depth_frame (f : OutputFields) (sha : Digest) : (Worker.frame sha (document f)).depth < 128 := by
  have hdict : (optDict f.narrativeScores).depth ≤ 1 := by
    cases f.narrativeScores with
    | none => exact Nat.zero_le 1
    | some s =>
      refine Json.depth_obj_le (fun p hp => ?_)
      obtain ⟨q,-,rfl⟩ := List.mem_map.mp hp
      exact le_rfl
  have hint : ∀ v : Option ℕ, (optInt v).depth ≤ 1 := by
    intro v
    cases v <;> exact Nat.zero_le 1
  have hstr : ∀ v : Option String, (optStr v).depth ≤ 1 := by
    intro v
    cases v <;> exact Nat.zero_le 1
  have hdump : f.modelDump.depth ≤ 2 := by
    apply Json.depth_obj_le
    simp only [List.forall_mem_cons]
    refine ⟨?_,?_,?_,?_,hint _,hint _,hint _,hint _,hstr _,hdict,?_,?_,?_,?_,?_,hstr _,by simp⟩
    all_goals exact Nat.zero_le 1
  have hframe : (Worker.frame sha (document f)).depth ≤ 3 := by
    apply Json.depth_obj_le
    simp only [List.forall_mem_cons]
    refine ⟨Nat.zero_le 2,Nat.zero_le 2,Nat.zero_le 2,?_,by simp⟩
    exact (Json.depth_without_le _ _).trans hdump
  omega

/-- The frame the worker writes around a document, as bytes. -/
def frameText (sha : Digest) (d : Json) : Bytes := utf8 (Json.render (Worker.frame sha d).sortKeys)

lemma guestInputBytes_eq_ok {i : Json} {f : OutputFields} (h : f.keysDistinct) {b : Bytes} :
    Worker.guestInputBytes i f.modelDump = .ok b ↔
      ∃ t, Protocol.canonicalJsonBytes i = .ok t ∧ b = frameText (sha256 t) (document f) := by
  have hc : ∀ sha, Protocol.canonicalJsonBytes
      (Worker.frame sha (Worker.proofDocument f.modelDump)) =
      .ok (frameText sha (document f)) :=
    fun sha => canonicalJsonBytes_plain (plain_frame (plain_document h) sha)
  simp only [Worker.guestInputBytes,bind_eq_ok,hc,Except.ok.injEq]
  exact exists_congr (fun t => and_congr_right (fun _ => eq_comm))

lemma expectedJournal_eq_ok {i : Json} {f : OutputFields} (h : f.keysDistinct) {hash : Digest}
    {e : Worker.ReceiptJournal} : Worker.expectedJournal i f.modelDump hash = .ok e ↔
      ∃ b, Worker.guestInputBytes i f.modelDump = .ok b ∧
        e = ⟨Reducer.framedInputDigest b,hash,(documentText f).length⟩ := by
  have hc : Protocol.canonicalJsonBytes (Worker.proofDocument f.modelDump) =
      .ok (documentText f) := canonicalJsonBytes_plain (plain_document h)
  simp only [Worker.expectedJournal,bind_eq_ok,hc,Except.ok.injEq,pure_eq_ok,exists_eq_left']
  exact exists_congr (fun b => and_congr_right (fun _ => eq_comm))

section Reader
variable {fromSlice : Bytes → Option Json} {approx : ℤ → Binary64} {payload : Bytes}
  {sha : Digest} {d : Json}

lemma get_frame (sha : Digest) (hd : d.Plain) {k : String} {v : Json}
    (hv : (Worker.frame sha d).get k = some v) :
    (Worker.frame sha d).sortKeys.get k = some v.sortKeys := by
  rw [Json.get_sortKeys (plain_frame hd sha),hv]
  rfl

/-- What the guest reads out of a frame. -/
lemma branchReceiptJournal_frame (hd : d.Plain) (hobj : d.isObj = true)
    (hread : fromSlice payload = some (Worker.frame sha d).sortKeys) {j : BranchReceiptJournal} :
    branchReceiptJournal fromSlice payload = .ok j ↔
      recomputeOutput d.sortKeys (Reducer.framedInputDigest payload) = .ok j := by
  have hschema := stringField_eq (get_frame sha hd (k := "schema")
    (v := .str branchReceiptSchema) rfl)
  have hversion := u64Field_eq (n := 1) (get_frame sha hd (k := "schema_version")
    (v := .int 1) rfl) (by decide)
  have hsha := stringField_eq (get_frame sha hd (k := "branch_input_sha256") rfl)
  have hout := get_frame sha hd (k := "branch_output") (v := d) rfl
  have hobj' : d.sortKeys.isObj = true := by
    cases d <;> first | rfl | simp [Json.isObj] at hobj
  have hframe : (Worker.frame sha d).sortKeys.isObj = true := rfl
  simp only [branchReceiptJournal,hread,hschema,hversion,hsha,hout,hobj',hframe,bind_eq_ok,
    failIf_eq_ok,require_eq_ok,Except.ok.injEq,Option.some.injEq,exists_eq_left',exists_const,
    Bool.true_eq_false,not_false_eq_true,ne_eq,not_true_eq_false,branchReceiptSchemaVersion,
    true_and]

/-- Whatever journal the guest derives from a frame, it derives from the output inside it. -/
lemma recomputeOutput_of_frame (hd : d.Plain)
    (hread : fromSlice payload = some ((Worker.frame sha d).sortKeys.held approx))
    {j : BranchReceiptJournal} (hj : branchReceiptJournal fromSlice payload = .ok j) :
    recomputeOutput (d.sortKeys.held approx) (Reducer.framedInputDigest payload) = .ok j := by
  have hout : ((Worker.frame sha d).sortKeys.held approx).get "branch_output" =
      some (d.sortKeys.held approx) := by
    rw [Json.get_held,get_frame _ hd (k := "branch_output") (v := d) rfl]
    rfl
  simp only [branchReceiptJournal,hread,hout,bind_eq_ok,failIf_eq_ok,require_eq_ok,
    Option.some.injEq,exists_eq_left'] at hj
  obtain ⟨-,-,_,-,-,-,_,-,-,-,_,-,-,-,hj⟩ := hj
  exact hj

/-- A document the guest canonicalizes holds the integers of its text. -/
lemma held_of_recompute {v : Json} {digest : Digest} {j : BranchReceiptJournal}
    (hj : recomputeOutput (v.held approx) digest = .ok j) :
    v.held approx = v ∧ Reducer.rejectFloats v = .ok () := by
  simp only [recomputeOutput,Reducer.canonicalJsonBytes,bind_eq_ok,ok_of_mapError] at hj
  obtain ⟨_,⟨_,hn,-⟩,-⟩ := hj
  have he := Reducer.held_of_rejectFloats v hn
  rw [he] at hn
  exact ⟨he,hn⟩

lemma recomputeOutput_inputDigest {output : Json} {digest : Digest} {j : BranchReceiptJournal}
    (hj : recomputeOutput output digest = .ok j) : j.inputDigest = digest := by
  simp only [recomputeOutput,bind_eq_ok,pure_eq_ok] at hj
  obtain ⟨-,-,-,-,-,-,-,-,-,-,rfl⟩ := hj
  rfl

lemma branchReceiptJournal_reads {j : BranchReceiptJournal}
    (hj : branchReceiptJournal fromSlice payload = .ok j) : ∃ w, fromSlice payload = some w := by
  simp only [branchReceiptJournal,bind_eq_ok,require_eq_ok] at hj
  obtain ⟨w,hw,-⟩ := hj
  exact ⟨w,hw⟩

/-- A journal commits the digest of the framed payload it was derived from. -/
lemma branchReceiptJournal_inputDigest {j : BranchReceiptJournal}
    (hj : branchReceiptJournal fromSlice payload = .ok j) :
    j.inputDigest = Reducer.framedInputDigest payload := by
  simp only [branchReceiptJournal,bind_eq_ok] at hj
  obtain ⟨_,-,_,-,_,-,_,-,_,-,_,-,_,-,_,-,_,-,hj⟩ := hj
  exact recomputeOutput_inputDigest hj

end Reader
end Framing

section Parser

theorem jsonOfBytes_readsCanonical : ReadsCanonical jsonOfBytes := by
  intro v hv _ hn
  rw [jsonOfBytes_render hv.sortKeys]
  exact congrArg some (Reducer.held_eq_of_rejectFloats _ (Reducer.rejectFloats_sortKeys v hn))

theorem jsonOfBytes_readsFaithfully : ReadsFaithfully Json.nearest jsonOfBytes := by
  intro v w hv hw
  rw [jsonOfBytes_render hv.sortKeys] at hw
  exact (Option.some.inj hw).symm

/-- A branch of the run that asked for a scalar. -/
def scalarInput : BranchInput where
  schemaVersion := 1
  parentJob := "Job111"
  branchIndex := 2
  seed := "seed"
  parameters := [("question",.str "q"),("grid",.float (.finite false 0))]
  personaSetCid := none
  rngSeed := 7
  targetOutputKind := .scalar
  scalarGridBps := some 100

lemma scalarInput_canonical : Protocol.canonicalJsonBytes scalarInput.modelDump =
    .ok (utf8 (Json.render scalarInput.modelDump.sortKeys)) := by
  simp only [Protocol.canonicalJsonBytes,bind_eq_ok,failIf_eq_ok,pure_eq_ok]
  exact ⟨(),by decide,trivial⟩

lemma scalar_short : (documentText (scalarFields 1756900000)).length < 2^32 := by
  decide +kernel

end Parser

section Agreement
variable {fromSlice : Bytes → Option Json}

/-- Every integer of the document fits `i64` or `u64`. -/
def IntegersHeld (f : OutputFields) : Prop :=
  (-2^63 ≤ f.schemaVersion ∧ f.schemaVersion < 2^64) ∧ f.rngSeed < 2^64 ∧ f.completedAtUnix < 2^64

instance (f : OutputFields) : Decidable (IntegersHeld f) := inferInstanceAs (Decidable (_ ∧ _))

lemma rejectFloats_document {f : OutputFields} (h : f.Checked) (hi : f.branchIndex < 2^32)
    (hf : IntegersHeld f) : Reducer.rejectFloats (document f) = .ok () := by
  obtain ⟨hv,hr,hc⟩ := hf
  have hnat : ∀ n : ℕ, n < 2^64 → Reducer.rejectFloats (.int n) = .ok () := by
    intro n hn
    have hz : (n : ℤ) < 2^64 := by exact_mod_cast hn
    simp only [Reducer.rejectFloats,Reducer.isF64,failIf_eq_ok,decide_eq_true_eq,not_not]
    exact ⟨by omega,hz⟩
  have hopt : ∀ v : Option ℕ, (∀ n ∈ v, n < 2^64) → Reducer.rejectFloats (optInt v) = .ok () := by
    intro v hv
    cases v with
    | none => rfl
    | some n => exact hnat n (hv n rfl)
  have hstr : ∀ v : Option String, Reducer.rejectFloats (optStr v) = .ok () := by
    intro v
    cases v <;> rfl
  have hdict : Reducer.rejectFloats (optDict f.narrativeScores) = .ok () := by
    cases hs : f.narrativeScores with
    | none => rfl
    | some s =>
      refine Reducer.rejectEntries_eq_ok.mpr (fun p hp => ?_)
      obtain ⟨q,hq,rfl⟩ := List.mem_map.mp hp
      have hle := h.scores_le q (by simpa [scores,hs] using hq)
      exact hnat q.2 (lt_of_le_of_lt hle (by decide))
  have hsmall : ∀ {v : Option ℕ} {m : ℕ}, (∀ n ∈ v, n ≤ m) → m ≤ 10000 → ∀ n ∈ v, n < 2^64 :=
    fun hv hm n hn => lt_of_le_of_lt ((hv n hn).trans hm) (by decide)
  refine Reducer.rejectFloats_without _ (v := f.modelDump) (Reducer.rejectEntries_eq_ok.mpr ?_)
  simp only [List.forall_mem_cons]
  refine ⟨?_,rfl,hnat _ (lt_trans hi (by decide)),rfl,hopt _ (hsmall h.scalar_le le_rfl),
    hopt _ (hsmall h.lower_le le_rfl),hopt _ (hsmall h.upper_le le_rfl),
    hopt _ (hsmall h.label_le (by decide)),hstr _,hdict,hnat _ hr,rfl,rfl,hnat _ hc,rfl,hstr _,
    by simp⟩
  simp only [Reducer.rejectFloats,Reducer.isF64,failIf_eq_ok,decide_eq_true_eq,not_not]
  exact hv

/-- The guest's journal of the worker's frame. -/
lemma journal_of_guestInput (hr : ReadsCanonical fromSlice) {f : OutputFields} (h : f.Checked)
    (hi : f.branchIndex < 2^32) (hs : (scores f).length ≤ 32) (hf : IntegersHeld f) (sha : Digest)
    {j : BranchReceiptJournal} :
    branchReceiptJournal fromSlice (frameText sha (document f)) = .ok j ↔
      (documentText f).length < 2^32 ∧ j = journalOf h hi hs
        (Reducer.framedInputDigest (frameText sha (document f))) := by
  have hd := plain_document h.distinct
  have hn := rejectFloats_document h hi hf
  have hread : fromSlice (frameText sha (document f)) = some _ :=
    hr _ (plain_frame hd sha) (depth_frame f sha) (rejectFloats_frame hn sha)
  rw [branchReceiptJournal_frame hd rfl hread,
    recomputeOutput_eq_ok h (Reducer.rejectFloats_sortKeys _ hn)]
  refine and_congr_right (fun _ => ?_)
  constructor
  · rintro ⟨_,_,rfl⟩
    rfl
  · rintro rfl
    exact ⟨hi,hs,rfl⟩

/-- The journal of an honest frame, by its numbers. -/
lemma honest_journal (hr : ReadsCanonical fromSlice) {f : OutputFields} (h : f.Checked)
    (hi : f.branchIndex < 2^32) (hs : (scores f).length ≤ 32) (hf : IntegersHeld f)
    (hlen : (documentText f).length < 2^32) (sha : Digest) :
    ∃ j, branchReceiptJournal fromSlice (frameText sha (document f)) = .ok j ∧
      j.inputDigest = Reducer.framedInputDigest (frameText sha (document f)) ∧
      j.resultBytes = (f.receipt h hi hs (preimageHash f)).bytes ∧
      j.resultHash = sha256 j.resultBytes ∧ j.outputLen = (documentText f).length := by
  refine ⟨_,(journal_of_guestInput hr h hi hs hf sha).mpr ⟨hlen,rfl⟩,?_⟩
  simp only [journalOf,and_self]

/-- The three numbers a journal commits. -/
def verified (j : BranchReceiptJournal) : Worker.ReceiptJournal :=
  ⟨j.inputDigest,j.resultHash,j.outputLen⟩

/-- The locator reaches neither the compact fields nor the hashed preimage. -/
lemma receipt_withReceipt [CharData] (o : BranchOutput) (cid : Option String) (hi : o.branchIndex < 2^32)
    (hs : (scores o.toOutputFields).length ≤ 32) :
    ((o.withReceipt cid).toOutputFields.receipt (o.withReceipt cid).valid.checked hi hs
      (preimageHash (o.withReceipt cid).toOutputFields)).bytes =
      (o.toOutputFields.receipt o.valid.checked hi hs (preimageHash o.toOutputFields)).bytes := by
  have hfields : (o.withReceipt cid).toOutputFields.canonicalHashPreimage =
      o.toOutputFields.canonicalHashPreimage := by
    simp [OutputFields.canonicalHashPreimage,OutputFields.modelDump,Json.without,
      BranchOutput.withReceipt]
  have hpre : preimageHash (o.withReceipt cid).toOutputFields = preimageHash o.toOutputFields := by
    rw [preimageHash,hfields,preimageHash]
  have hreceipt : ∀ hash : Digest, (o.withReceipt cid).toOutputFields.receipt
      (o.withReceipt cid).valid.checked hi hs hash =
      o.toOutputFields.receipt o.valid.checked hi hs hash := fun _ => rfl
  rw [hpre,hreceipt]

/-- For a valid output whose canonical document is shorter than `2^32` bytes, the guest derives the
worker's own result bytes and the journal the verifier expects, whichever receipt the output
names. -/
theorem canonicalization_agrees [CharData] (hr : ReadsCanonical fromSlice) (i : BranchInput) {t : Bytes}
    (hinput : Protocol.canonicalJsonBytes i.modelDump = .ok t) (o : BranchOutput)
    (hi : o.branchIndex < 2^32) (hs : (scores o.toOutputFields).length ≤ 32)
    (hf : IntegersHeld o.toOutputFields) (hlen : (documentText o.toOutputFields).length < 2^32) :
    ∃ payload j e, ∀ cid : Option String,
      Worker.guestInputBytes i.modelDump (o.withReceipt cid).modelDump = .ok payload ∧
      branchReceiptJournal fromSlice payload = .ok j ∧
      branchOutputResultBytes (o.withReceipt cid).toOutputFields = .ok j.resultBytes ∧
      Worker.expectedJournal i.modelDump (o.withReceipt cid).modelDump (sha256 j.resultBytes) =
        .ok e ∧
      j.inputDigest = e.inputDigest ∧ j.outputLen = e.outputLen ∧
      Worker.bindToClaim (verified j) e (sha256 j.resultBytes) = [] := by
  have hc := o.valid.checked
  obtain ⟨payload,hpayload⟩ : ∃ p, p = frameText (sha256 t) (document o.toOutputFields) := ⟨_,rfl⟩
  obtain ⟨j,hj,hdigest,hbytes,hhash,hjlen⟩ := honest_journal hr hc hi hs hf hlen (sha256 t)
  rw [← hpayload] at hj hdigest
  refine ⟨payload,j,⟨j.inputDigest,sha256 j.resultBytes,j.outputLen⟩,fun cid => ?_⟩
  -- The receipt locator is in neither the document nor the hashed preimage.
  have hd : document (o.withReceipt cid).toOutputFields = document o.toOutputFields := rfl
  have hcid := (o.withReceipt cid).valid.checked
  have hg : Worker.guestInputBytes i.modelDump (o.withReceipt cid).modelDump = .ok payload :=
    (guestInputBytes_eq_ok hcid.distinct).mpr ⟨t,hinput,hpayload.trans (by rw [hd])⟩
  refine ⟨hg,hj,?_,?_,rfl,rfl,Worker.bindToClaim_eq_nil.mpr ⟨rfl,hhash,rfl⟩⟩
  · exact (resultBytes_eq_ok hcid).mpr ⟨hi,hs,hbytes.trans (receipt_withReceipt o cid hi hs).symm⟩
  · exact (expectedJournal_eq_ok hcid.distinct).mpr
      ⟨payload,hg,by rw [hdigest,hjlen,documentText,documentText,hd]⟩

/-- The two sides on a scalar output, whatever receipt it names. -/
theorem canonicalization_agrees_scalar : ∃ payload j e, ∀ cid : Option String,
    let f : OutputFields := { scalarFields 1756900000 with zkvmReceiptCid := cid }
    Worker.guestInputBytes scalarInput.modelDump f.modelDump = .ok payload ∧
    branchReceiptJournal jsonOfBytes payload = .ok j ∧
    branchOutputResultBytes f = .ok j.resultBytes ∧
    Worker.expectedJournal scalarInput.modelDump f.modelDump (sha256 j.resultBytes) = .ok e ∧
    j.inputDigest = e.inputDigest ∧ j.outputLen = e.outputLen ∧
    Worker.bindToClaim (verified j) e (sha256 j.resultBytes) = [] := by
  let _ := CharData.ascii
  exact canonicalization_agrees jsonOfBytes_readsCanonical scalarInput scalarInput_canonical
    (scalarOutput 1756900000) (by decide) (by decide) (by decide) scalar_short

/-- A scalar output with a narrative of `n` letters. -/
def longFields (n : ℕ) : OutputFields :=
  { scalarFields 1756900000 with narrativeText := some (String.ofList (List.replicate n 'a')) }

lemma long_document (n : ℕ) : n ≤ (documentText (longFields n)).length := by
  have hstr : n ≤ (Json.render (.str (String.ofList (List.replicate n 'a')))).length := by
    have h := Json.length_le_escaped (List.replicate n 'a')
    simp only [List.length_replicate] at h
    simp only [Json.render,Json.renderStr,String.toList_ofList,List.length_cons,List.length_append]
    omega
  obtain ⟨fs,hfs,hmem⟩ : ∃ fs, document (longFields n) = .obj fs ∧
      ("narrative_text",Json.str (String.ofList (List.replicate n 'a'))) ∈ fs := by
    refine ⟨_,rfl,List.mem_filter.mpr ⟨?_,?_⟩⟩
    · simp [longFields,optStr]
    · simp [Worker.receiptCidField]
  rw [documentText,hfs]
  exact (hstr.trans (Json.length_render_le hmem)).trans (length_le_utf8 _)

lemma long_valid [CharData] (n : ℕ) : (longFields n).Valid :=
  ⟨rfl,rfl,rfl,rfl,by simp [OutputFields.keysDistinct,longFields,scalarFields]⟩

/-- A valid output of four billion letters is published, but the guest proves nothing about it:
its journal has four bytes for the length. -/
theorem canonicalization_refuses_long :
    (let _ := CharData.ascii; (longFields (2^32)).Valid) ∧ (longFields (2^32)).branchIndex < 2^32 ∧
    (scores (longFields (2^32))).length ≤ 32 ∧ IntegersHeld (longFields (2^32)) ∧
    ReadsCanonical jsonOfBytes ∧
    ∃ payload, Worker.guestInputBytes scalarInput.modelDump (longFields (2^32)).modelDump =
      .ok payload ∧ ∀ j, branchReceiptJournal jsonOfBytes payload ≠ .ok j := by
  let _ := CharData.ascii
  have hv := long_valid (2^32)
  have hi : (longFields (2^32)).branchIndex < 2^32 := by
    change 2 < 2^32
    decide
  have hs : (scores (longFields (2^32))).length ≤ 32 := Nat.zero_le 32
  have hf : IntegersHeld (longFields (2^32)) := (by decide : IntegersHeld (scalarFields 1756900000))
  refine ⟨hv,hi,hs,hf,jsonOfBytes_readsCanonical,_,
    (guestInputBytes_eq_ok hv.checked.distinct).mpr ⟨_,scalarInput_canonical,rfl⟩,?_⟩
  intro j hj
  have hshort := ((journal_of_guestInput jsonOfBytes_readsCanonical hv.checked hi hs hf _).mp hj).1
  exact absurd (long_document (2^32)) (not_le.mpr hshort)

/-- A receipt that binds to a claim leaves the worker one document: the submitted hash is the hash
of the fetched document's own result bytes, up to a collision of the two framed inputs. -/
theorem receipt_binds [CharData] {approx : ℤ → Binary64} (hr : ReadsFaithfully approx fromSlice)
    (i : BranchInput) (o : BranchOutput) (submitted : Digest) {payload : Bytes}
    {j : BranchReceiptJournal} {e : Worker.ReceiptJournal}
    (hj : branchReceiptJournal fromSlice payload = .ok j)
    (he : Worker.expectedJournal i.modelDump o.modelDump submitted = .ok e)
    (hb : Worker.bindToClaim (verified j) e submitted = []) :
    (∃ b, branchOutputResultBytes o.toOutputFields = .ok b ∧ submitted = sha256 b) ∨
      ∃ frame, Worker.guestInputBytes i.modelDump o.modelDump = .ok frame ∧
        Collision sha256 [Reducer.framedInput payload,Reducer.framedInput frame] := by
  have hc := o.valid.checked
  obtain ⟨frame,hframe,rfl⟩ := (expectedJournal_eq_ok hc.distinct).mp he
  obtain ⟨hdigest,hresult,-⟩ := Worker.bindToClaim_eq_nil.mp hb
  have hsha : sha256 (Reducer.framedInput payload) = sha256 (Reducer.framedInput frame) :=
    (branchReceiptJournal_inputDigest hj).symm.trans hdigest
  cases eq_or_collision (S := [Reducer.framedInput payload,Reducer.framedInput frame])
      (by simp) (by simp) hsha with
  | inr hcollision => exact .inr ⟨frame,hframe,hcollision⟩
  | inl hsame =>
    left
    obtain rfl : payload = frame := lengthFrame_injective hsame
    obtain ⟨t,-,hpayload⟩ := (guestInputBytes_eq_ok hc.distinct).mp hframe
    have hd := plain_document hc.distinct
    obtain ⟨w,hw⟩ := branchReceiptJournal_reads hj
    have hheld : w =
        (Worker.frame (sha256 t) (document o.toOutputFields)).sortKeys.held approx :=
      hr _ w (plain_frame hd (sha256 t)) (by rw [← hw,hpayload]; rfl)
    rw [hheld] at hw
    have hrec := recomputeOutput_of_frame hd hw hj
    obtain ⟨he',hn⟩ := held_of_recompute hrec
    rw [he'] at hrec
    obtain ⟨-,hi,hs,rfl⟩ := (recomputeOutput_eq_ok hc hn).mp hrec
    exact ⟨_,(resultBytes_eq_ok hc).mpr ⟨hi,hs,rfl⟩,hresult.symm⟩

lemma honest_binds (hr : ReadsCanonical fromSlice) {i : Json} {t : Bytes}
    (hinput : Protocol.canonicalJsonBytes i = .ok t) {f : OutputFields} (h : f.Checked)
    (hi : f.branchIndex < 2^32) (hs : (scores f).length ≤ 32) (hf : IntegersHeld f)
    (hlen : (documentText f).length < 2^32) :
    ∃ payload j e, branchReceiptJournal fromSlice payload = .ok j ∧
      Worker.expectedJournal i f.modelDump (sha256 j.resultBytes) = .ok e ∧
      Worker.bindToClaim (verified j) e (sha256 j.resultBytes) = [] := by
  obtain ⟨j,hj,hdigest,-,hhash,hjlen⟩ := honest_journal hr h hi hs hf hlen (sha256 t)
  have hg := (guestInputBytes_eq_ok h.distinct).mpr ⟨t,hinput,rfl⟩
  have he : Worker.expectedJournal i f.modelDump (sha256 j.resultBytes) =
      .ok ⟨j.inputDigest,sha256 j.resultBytes,j.outputLen⟩ := by
    rw [hdigest,hjlen]
    exact (expectedJournal_eq_ok h.distinct).mpr ⟨_,hg,rfl⟩
  exact ⟨_,j,_,hj,he,Worker.bindToClaim_eq_nil.mpr ⟨rfl,hhash,rfl⟩⟩

/-- An honest receipt binds. -/
theorem receipt_binds_scalar : ∃ payload j e submitted,
    branchReceiptJournal jsonOfBytes payload = .ok j ∧
    Worker.expectedJournal scalarInput.modelDump (scalarFields 1756900000).modelDump submitted =
      .ok e ∧
    Worker.bindToClaim (verified j) e submitted = [] ∧
    ((∃ b, branchOutputResultBytes (scalarFields 1756900000) = .ok b ∧ submitted = sha256 b) ∨
      ∃ frame, Worker.guestInputBytes scalarInput.modelDump (scalarFields 1756900000).modelDump =
        .ok frame ∧ Collision sha256 [Reducer.framedInput payload,Reducer.framedInput frame]) := by
  let _ := CharData.ascii
  have hc : (scalarFields 1756900000).Checked := (scalarOutput 1756900000).valid.checked
  obtain ⟨payload,j,e,hj,he,hb⟩ := honest_binds jsonOfBytes_readsCanonical scalarInput_canonical
    hc (by decide) (by decide) (by decide) scalar_short
  exact ⟨payload,j,e,_,hj,he,hb,
    receipt_binds jsonOfBytes_readsFaithfully scalarInput (scalarOutput 1756900000) _ hj he hb⟩

end Agreement

end Mirror
end Kswarm
