import Kswarm.Protocol.CanonicalHash
import Kswarm.Reducer.Layout
import Kswarm.Lib.Collision

/-! The compact result as a receipt tuple. The encoder writes the documented layout, so the bytes
parse back to the document's own fields, and they commit to the whole hashed document. -/
namespace Kswarm.Protocol
namespace OutputFields

/-- What validation promises about the values, apart from the spelling of score keys. -/
structure Checked (f : OutputFields) : Prop where
  scalar_le : ∀ v ∈ f.scalarValueBps, v ≤ 10000
  lower_le : ∀ v ∈ f.scalarConfidenceLowerBps, v ≤ 10000
  upper_le : ∀ v ∈ f.scalarConfidenceUpperBps, v ≤ 10000
  label_le : ∀ v ∈ f.categoricalLabelIndex, v ≤ 255
  scalar_shape : f.outputKind = .scalar → f.scalarValueBps ≠ none
  label_shape : f.outputKind = .categorical → f.categoricalLabelIndex ≠ none
  scores_shape : f.outputKind = .narrativeWithScalar → scores f ≠ []
  ordered : ∀ l ∈ f.scalarConfidenceLowerBps, ∀ u ∈ f.scalarConfidenceUpperBps, l ≤ u
  scores_le : ∀ p ∈ scores f, p.2 ≤ 10000
  distinct : f.keysDistinct

lemma inRange_iff {max : ℕ} {v : Option ℕ} : inRange max v = true ↔ ∀ n ∈ v, n ≤ max := by
  cases v <;> simp [inRange]

theorem Valid.checked [CharData] {f : OutputFields} (h : f.Valid) : f.Checked := by
  obtain ⟨hr,hk,hb,hs,hd⟩ := h
  simp only [ranges,Bool.and_eq_true,inRange_iff] at hr
  obtain ⟨⟨⟨h1,h2⟩,h3⟩,h4⟩ := hr
  refine ⟨h1,h2,h3,h4,?_,?_,?_,?_,?_,hd⟩
  · intro he
    simp only [kindShape,he,Option.isSome_iff_ne_none] at hk
    exact hk
  · intro he
    simp only [kindShape,he,Option.isSome_iff_ne_none] at hk
    exact hk
  · intro he
    simp only [kindShape,he,Bool.and_eq_true] at hk
    cases hn : f.narrativeScores with
    | none => simp [hn] at hk
    | some s => simpa [scores,hn] using hk.2
  · intro l hl u hu
    rw [Option.mem_def] at hl hu
    simpa [boundsOrdered,hl,hu] using hb
  · intro p hp
    cases hn : f.narrativeScores with
    | none => simp [scores,hn] at hp
    | some s =>
      simp only [scores,hn,Option.getD_some] at hp
      simp only [scoresValid,hn,Option.all_some,List.all_eq_true,Bool.and_eq_true,
        decide_eq_true_eq] at hs
      exact (hs p hp).2

/-- First four bytes of the hash of a score key. -/
def keyHash (key : String) : Bytes := (sha256 (utf8 key.toList)).val.take 4

lemma keyHash_length (key : String) : (keyHash key).length = 4 := by
  simp [keyHash,(sha256 (utf8 key.toList)).property]

/-- The tuple the encoder writes for a document. -/
def receipt (f : OutputFields) (h : f.Checked) (hi : f.branchIndex < 2^32)
    (hs : (scores f).length ≤ 32) (hash : Digest) : Reducer.Receipt where
  kind := f.outputKind
  index := f.branchIndex
  scalar := f.scalarValueBps
  lower := f.scalarConfidenceLowerBps
  upper := f.scalarConfidenceUpperBps
  label := f.categoricalLabelIndex.map UInt8.ofNat
  scores := (sortScores (scores f)).map (fun p => (keyHash p.1,p.2))
  hash := hash
  index_lt := hi
  scalar_le := h.scalar_le
  lower_le := h.lower_le
  upper_le := h.upper_le
  scores_le := by
    rw [List.length_map,sortScores,List.length_insertionSort]
    exact hs
  scores_ok := by
    intro p hp
    obtain ⟨q,hq,rfl⟩ := List.mem_map.mp hp
    exact ⟨keyHash_length _,h.scores_le q ((List.perm_insertionSort _ _).mem_iff.mp hq)⟩

end OutputFields

section Encoder
variable {f : OutputFields}

lemma optBps_eq {v : Option ℕ} (h : ∀ n ∈ v, n ≤ 10000) (field : String) :
    optBps v field = .ok (Reducer.bpsField v) := by
  cases v with
  | none => rfl
  | some n =>
    have hn := h n rfl
    simp only [optBps,u16Bps,bind_eq_ok,failIf_eq_ok,pure_eq_ok]
    exact ⟨(),by omega,rfl⟩

lemma scoreEntries_eq {s : List (String × ℕ)} (h : ∀ p ∈ s, p.2 ≤ 10000) :
    scoreEntries s = .ok ((s.map (fun p => (OutputFields.keyHash p.1,p.2))).flatMap
      Reducer.scoreEntry) := by
  induction s with
  | nil => rfl
  | cons p s ih =>
    have hp := h p (by simp)
    have htail := ih (fun q hq => h q (by simp [hq]))
    simp only [scoreEntries,u16Bps,htail,bind_eq_ok,failIf_eq_ok,pure_eq_ok]
    refine ⟨_,⟨(),by omega,rfl⟩,_,rfl,?_⟩
    simp [Reducer.scoreEntry,OutputFields.keyHash]

lemma scoreBytes_eq_ok {s : List (String × ℕ)} (h : ∀ p ∈ s, p.2 ≤ 10000) {b : Bytes} :
    scoreBytes s = .ok b ↔ s.length ≤ 32 ∧
      b = Reducer.scoreField ((sortScores s).map (fun p => (OutputFields.keyHash p.1,p.2))) := by
  have hsorted : ∀ p ∈ sortScores s, p.2 ≤ 10000 := by
    intro p hp
    exact h p ((List.perm_insertionSort _ _).mem_iff.mp hp)
  have hlen : (sortScores s).length = s.length := List.length_insertionSort _ _
  unfold scoreBytes
  split_ifs with he
  · subst he
    rw [pure_eq_ok]
    simp only [List.length_nil,Nat.zero_le,true_and]
    exact eq_comm
  · have he' : (sortScores s).map (fun p => (OutputFields.keyHash p.1,p.2)) ≠ [] := by
      intro hn
      apply he
      apply List.eq_nil_of_length_eq_zero
      rw [← hlen]
      simpa using congrArg List.length hn
    simp only [bind_eq_ok,failIf_eq_ok,pure_eq_ok,scoreEntries_eq hsorted,Reducer.scoreField,
      if_neg he',List.length_map,hlen,exists_and_left,exists_const,Except.ok.injEq,exists_eq_left',
      not_lt]
    exact and_congr_right (fun _ => eq_comm)

/-- The hash over the canonical preimage. -/
def preimageHash (f : OutputFields) : Digest :=
  sha256 (utf8 (Json.render f.canonicalHashPreimage.sortKeys))

lemma sortScores_isEmpty (s : List (String × ℕ)) : (sortScores s).isEmpty = s.isEmpty := by
  have hlen : (sortScores s).length = s.length := List.length_insertionSort _ _
  cases s with
  | nil => rfl
  | cons p s =>
    cases hs : sortScores (p::s) with
    | nil => simp [hs] at hlen
    | cons q t => rfl

/-- The tuple's layout, in the encoder's words. -/
lemma receipt_bytes (h : f.Checked) (hi : f.branchIndex < 2^32) (hs : (scores f).length ≤ 32)
    (hash : Digest) : (f.receipt h hi hs hash).bytes =
      resultMagic ++ [resultSchemaVersion,f.outputKind.id] ++ leBytes 4 f.branchIndex ++
        [resultFlags f] ++ Reducer.bpsField f.scalarValueBps ++
        Reducer.bpsField f.scalarConfidenceLowerBps ++
        Reducer.bpsField f.scalarConfidenceUpperBps ++ categoryBytes f.categoricalLabelIndex ++
        Reducer.scoreField ((sortScores (scores f)).map
          (fun p => (OutputFields.keyHash p.1,p.2))) ++ hash.val := by
  have hflags : (f.receipt h hi hs hash).flags = resultFlags f := by
    simp only [Reducer.Receipt.flags,OutputFields.receipt,Option.isSome_map,List.isEmpty_map,
      sortScores_isEmpty]
    rfl
  have hlabel : Reducer.labelField (f.categoricalLabelIndex.map UInt8.ofNat) =
      categoryBytes f.categoricalLabelIndex := by
    cases f.categoricalLabelIndex <;> rfl
  rw [Reducer.Receipt.bytes,hflags,← hlabel]
  rfl

/-- The encoder writes the layout of the document's tuple; it refuses only a wide index and too
many scores. -/
theorem resultBytes_eq_ok (h : f.Checked) {b : Bytes} :
    branchOutputResultBytes f = .ok b ↔
      ∃ hi hs, b = (f.receipt h hi hs (preimageHash f)).bytes := by
  simp only [branchOutputResultBytes,canonicalHash_eq h.distinct,optBps_eq h.scalar_le,
    optBps_eq h.lower_le,optBps_eq h.upper_le,bind_eq_ok,failIf_eq_ok,pure_eq_ok,
    scoreBytes_eq_ok h.scores_le,Except.ok.injEq,exists_eq_left',exists_and_left,exists_const,
    not_le,receipt_bytes]
  constructor
  · rintro ⟨hi,_,⟨hs,rfl⟩,-,rfl⟩
    exact ⟨hi,hs,rfl⟩
  · rintro ⟨hi,hs,rfl⟩
    have hlen := (f.receipt h hi hs (preimageHash f)).length_le
    rw [receipt_bytes] at hlen
    exact ⟨hi,_,⟨hs,rfl⟩,not_lt.mpr hlen,rfl⟩

/-- The hash stands in the last 32 bytes. -/
lemma hash_of_bytes {r s : Reducer.Receipt} (h : r.bytes = s.bytes) : r.hash = s.hash := by
  apply Subtype.ext
  exact (List.append_inj' h (r.hash.property.trans s.hash.property.symm)).2

end Encoder

section Commitment

/-- The compact fields of two documents agree; a dictionary has no order. -/
structure SameCompact (f g : OutputFields) : Prop where
  kind : f.outputKind = g.outputKind
  index : f.branchIndex = g.branchIndex
  scalar : f.scalarValueBps = g.scalarValueBps
  lower : f.scalarConfidenceLowerBps = g.scalarConfidenceLowerBps
  upper : f.scalarConfidenceUpperBps = g.scalarConfidenceUpperBps
  label : f.categoricalLabelIndex = g.categoricalLabelIndex
  scores : Option.Rel List.Perm f.narrativeScores g.narrativeScores

lemma optInt_injective : Function.Injective optInt := by
  intro a b h
  cases a <;> cases b <;> simp_all [optInt]

lemma sortKeys_optInt (v : Option ℕ) : (optInt v).sortKeys = optInt v := by cases v <;> rfl

/-- Equal dictionaries hold the same members. -/
lemma optDict_same {a b : Option (List (String × ℕ))} (h : (optDict a).Same (optDict b)) :
    Option.Rel List.Perm a b := by
  cases a with
  | none => cases b with
    | none => exact .none
    | some t => simp [optDict,intDict,Json.Same,Json.sortKeys,Json.sortBy] at h
  | some s => cases b with
    | none => simp [optDict,intDict,Json.Same,Json.sortKeys,Json.sortBy] at h
    | some t =>
      refine .some ?_
      simp only [optDict,intDict,Json.Same,Json.sortKeys,Json.sortBy,Json.obj.injEq,
        Json.sortFields_eq_map,List.map_map] at h
      have hperm := (List.perm_insertionSort _ _).symm.trans
        ((List.Perm.of_eq h).trans (List.perm_insertionSort _ _))
      refine (List.map_perm_map_iff ?_).mp hperm
      intro p q hpq
      simp only [Function.comp,Prod.mk.injEq,Json.sortBy,Json.int.injEq,Nat.cast_inj] at hpq
      exact Prod.ext hpq.1 hpq.2

/-- One hashed document has one set of compact fields. -/
theorem sameCompact_of_same {f g : OutputFields} (hf : f.keysDistinct) (hg : g.keysDistinct)
    (h : f.canonicalHashPreimage.Same g.canonicalHashPreimage) : SameCompact f g := by
  have hget := h.get (plain_preimage f hf) (plain_preimage g hg)
  have hopt : ∀ (k : String) (a b : Option ℕ), f.canonicalHashPreimage.get k = some (optInt a) →
      g.canonicalHashPreimage.get k = some (optInt b) → a = b := by
    intro k a b ha hb
    have hk := hget k
    rw [ha,hb,Option.map_some,Option.map_some,sortKeys_optInt,sortKeys_optInt] at hk
    exact optInt_injective (Option.some.inj hk)
  have hkind := hget "output_kind"
  have hindex := hget "branch_index"
  have hscores := hget "narrative_scores"
  refine ⟨?_,?_,hopt "scalar_value_bps" _ _ rfl rfl,hopt "scalar_confidence_lower_bps" _ _ rfl rfl,
    hopt "scalar_confidence_upper_bps" _ _ rfl rfl,hopt "categorical_label_index" _ _ rfl rfl,?_⟩
  · exact OutputKind.name_injective (Json.str.inj (Option.some.inj hkind))
  · exact Int.ofNat.inj (Json.int.inj (Option.some.inj hindex))
  · exact optDict_same (Option.some.inj hscores)

/-- The canonical text of the hashed part of a document. -/
def preimageText (f : OutputFields) : Bytes := utf8 (Json.render f.canonicalHashPreimage.sortKeys)

/-- The result bytes carry the document's own compact fields and the hash of its preimage, and
equal bytes mean equal preimages, up to a collision of the two texts hashed. -/
theorem resultBytes_commit [CharData] (o p : BranchOutput) {b : Bytes}
    (ho : branchOutputResultBytes o.toOutputFields = .ok b)
    (hp : branchOutputResultBytes p.toOutputFields = .ok b) :
    (∃ r, Reducer.parseBranchResultBytes b = .ok r ∧ r.outputKind = o.outputKind ∧
      r.branchIndex = o.branchIndex ∧ r.scalarValueBps = o.scalarValueBps ∧
      r.categoricalLabelIndex.map UInt8.toNat = o.categoricalLabelIndex ∧
      r.canonicalHash = (sha256 (preimageText o.toOutputFields)).val) ∧
    ((o.canonicalHashPreimage.Same p.canonicalHashPreimage ∧
        SameCompact o.toOutputFields p.toOutputFields) ∨
      Collision sha256 [preimageText o.toOutputFields,preimageText p.toOutputFields]) := by
  have hco := o.valid.checked
  have hcp := p.valid.checked
  obtain ⟨hi,hs,rfl⟩ := (resultBytes_eq_ok hco).mp ho
  obtain ⟨hi',hs',hb⟩ := (resultBytes_eq_ok hcp).mp hp
  constructor
  · refine ⟨_,Reducer.Receipt.parse_bytes _,rfl,rfl,rfl,?_,rfl⟩
    simp only [Reducer.Receipt.result,OutputFields.receipt,Option.map_map]
    cases hl : o.categoricalLabelIndex with
    | none => rfl
    | some l =>
      have := hco.label_le l hl
      simp only [Option.map_some,Function.comp,Option.some.injEq]
      rw [UInt8.toNat_ofNat']
      omega
  · have hhash : sha256 (preimageText o.toOutputFields) = sha256 (preimageText p.toOutputFields) :=
      hash_of_bytes hb
    refine (eq_or_collision (by simp) (by simp) hhash).imp_left (fun htext => ?_)
    have hsame := Json.same_of_render (plain_preimage _ hco.distinct)
      (plain_preimage _ hcp.distinct) htext
    exact ⟨hsame,sameCompact_of_same hco.distinct hcp.distinct hsame⟩

/-- A scalar answer of 6100 basis points. -/
def scalarFields (completedAtUnix : ℕ) : OutputFields where
  schemaVersion := 1
  parentJob := "Job111"
  branchIndex := 2
  outputKind := .scalar
  scalarValueBps := some 6100
  scalarConfidenceLowerBps := none
  scalarConfidenceUpperBps := none
  categoricalLabelIndex := none
  narrativeText := none
  narrativeScores := none
  rngSeed := 7
  llmModel := "llama3.2:3b"
  llmVersionHash := "ab"
  completedAtUnix := completedAtUnix
  transcriptCid := "cid-t"
  zkvmReceiptCid := none

def scalarOutput [CharData] (completedAtUnix : ℕ) : BranchOutput :=
  ⟨scalarFields completedAtUnix,rfl,rfl,rfl,rfl,by simp [OutputFields.keysDistinct,scalarFields]⟩

/-- The timestamp does not reach the result bytes. -/
theorem resultBytes_commit_scalar : ∃ b,
    branchOutputResultBytes (scalarFields 1756900000) = .ok b ∧
    branchOutputResultBytes (scalarFields 1756900999) = .ok b ∧
    (((scalarFields 1756900000).canonicalHashPreimage.Same
        (scalarFields 1756900999).canonicalHashPreimage ∧
        SameCompact (scalarFields 1756900000) (scalarFields 1756900999)) ∨
      Collision sha256 [preimageText (scalarFields 1756900000),
        preimageText (scalarFields 1756900999)]) := by
  let _ := CharData.ascii
  have h (t : ℕ) : (scalarFields t).Checked := (scalarOutput t).valid.checked
  have hbytes (t : ℕ) : branchOutputResultBytes (scalarFields t) = .ok
      ((scalarFields 0).receipt (h 0) (by decide) (by decide) (preimageHash (scalarFields 0))).bytes :=
    (resultBytes_eq_ok (h t)).mpr ⟨(by decide : 2 < 2^32),(by decide : 0 ≤ 32),rfl⟩
  exact ⟨_,hbytes _,hbytes _,
    (resultBytes_commit (scalarOutput 1756900000) (scalarOutput 1756900999) (hbytes _) (hbytes _)).2⟩

end Commitment

end Kswarm.Protocol
