import Kswarm.Reducer.BranchReceipt
import Kswarm.Reducer.Layout

/-! The encoder of the branch guest against its parser. Behind the readers of the document's fields
the encoder writes the layout of a receipt tuple, which is short and which the parser inverts; so
neither the length check nor the self-check of the guest can refuse. -/
namespace Kswarm.Reducer.BranchReceipt

/-- The reduction without the framing: the input digest is left zero. -/
def recomputeBranchReceipt (fromSlice : Bytes → Option Json) (payload : Bytes) :
    Except BranchReceiptError BranchReceiptJournal := do
  let value ← require (fromSlice payload) .notJson
  failIf (value.isObj = false) .notAnObject
  let schema ← stringField value "schema"
  failIf (schema ≠ branchReceiptSchema) (.unknownSchema schema)
  let schemaVersion ← u64Field value "schema_version"
  failIf (schemaVersion ≠ branchReceiptSchemaVersion) (.unknownSchemaVersion schemaVersion)
  let _ ← stringField value "branch_input_sha256"
  let output ← require (value.get "branch_output") (.missingField "branch_output")
  failIf (output.isObj = false) (.wrongType "branch_output")
  recomputeOutput output ⟨List.replicate 32 0,rfl⟩

/-- The errors that would mean the encoder and the parser of the crate disagree. -/
def Internal : BranchReceiptError → Prop
  | .resultTooLong _ => True
  | .selfCheck _ => True
  | _ => False

/-- An optional integer field of a document: absent, null or that integer. -/
def Carries (v : Json) (field : String) : Option ℕ → Prop
  | none => v.get field = none ∨ v.get field = some .null
  | some n => v.get field = some (.int n)

/-- A parsed receipt says what the document says, under the given hash. -/
structure Describes (output : Json) (canonicalHash : Digest) (r : BranchResult) : Prop where
  kind : output.get "output_kind" = some (.str r.outputKind.name)
  index : output.get "branch_index" = some (.int r.branchIndex)
  scalar : Carries output "scalar_value_bps" r.scalarValueBps
  label : Carries output "categorical_label_index" (r.categoricalLabelIndex.map UInt8.toNat)
  hash : r.canonicalHash = canonicalHash.val

section Readers
variable (v : Json) (field : String)

/-- A refusal that blames the document. -/
def Blames (e : BranchReceiptError) : Prop := ¬Internal e

lemma asStr_eq_some {v : Json} {s : String} (h : asStr v = some s) : v = .str s := by
  cases v <;> simp_all [asStr]

lemma asU64_eq_some {v : Json} {n : ℕ} (h : asU64 v = some n) : v = .int n := by
  cases v with
  | int m =>
    simp only [asU64] at h
    split_ifs at h with hm
    obtain rfl := Option.some.inj h
    rw [Int.toNat_of_nonneg hm.1]
  | _ => simp [asU64] at h

lemma stringField_ends :
    Ends Blames (fun s => v.get field = some (.str s)) (stringField v field) := by
  apply Ends.bind (Ends.require (fun _ => id) (fun found hfound => hfound))
  intro found hfound
  apply Ends.require (fun _ => id)
  intro s hs
  rw [hfound,asStr_eq_some hs]

lemma u64Field_ends :
    Ends Blames (fun n : ℕ => v.get field = some (.int n)) (u64Field v field) := by
  apply Ends.bind (Ends.require (fun _ => id) (fun found hfound => hfound))
  intro found hfound
  apply Ends.require (fun _ => id)
  intro n hn
  rw [hfound,asU64_eq_some hn]

lemma optionalU64_ends : Ends Blames (Carries v field) (optionalU64 v field) := by
  unfold optionalU64
  split
  · next h => exact .inl h
  · next h => exact .inr h
  · next found hnull h =>
    rw [map_eq_pure_bind]
    apply Ends.bind (Ends.require (fun _ => id) (fun n hn => hn))
    intro n hn
    exact Ends.pure (h.trans (congrArg some (asU64_eq_some hn)))

lemma optionalBps_ends :
    Ends Blames (fun o => Carries v field o ∧ ∀ n ∈ o, n ≤ bpsMax) (optionalBps v field) := by
  apply Ends.bind (optionalU64_ends v field)
  intro raw hraw
  apply Ends.bind (Ends.failIf (fun _ => id))
  intro _ hrange
  refine Ends.pure ⟨hraw,fun n hn => ?_⟩
  subst hn
  simpa using hrange

lemma scorePairs_ends (entries : List (String × Json)) :
    Ends Blames (fun scores => ∀ p ∈ scores, p.2 ≤ bpsMax) (scorePairs entries) := by
  induction entries with
  | nil => exact Ends.pure (by simp)
  | cons entry rest ih =>
    apply Ends.bind (Ends.require (fun _ => id) (fun n hn => hn))
    intro bps _
    apply Ends.bind (Ends.failIf (fun _ => id))
    intro _ hrange
    apply Ends.bind ih
    intro pairs hpairs
    refine Ends.pure (fun p hp => ?_)
    rcases List.mem_cons.mp hp with rfl | hp
    · exact not_lt.mp hrange
    · exact hpairs p hp

lemma narrativeScores_ends (output : Json) :
    Ends Blames (fun scores => ∀ p ∈ scores, p.2 ≤ bpsMax) (narrativeScores output) := by
  unfold narrativeScores
  split
  · exact Ends.pure (by simp)
  · exact Ends.pure (by simp)
  · exact scorePairs_ends _
  · exact id

end Readers

section Encoder

/-- The fields of a document as the encoder's readers return them. -/
structure Fields where
  kind : OutputKind
  index : ℕ
  scalar : Option ℕ
  lower : Option ℕ
  upper : Option ℕ
  category : Option ℕ
  scores : List (String × ℕ)
  index_lt : index < 2^32
  scalar_le : ∀ v ∈ scalar, v ≤ bpsMax
  lower_le : ∀ v ∈ lower, v ≤ bpsMax
  upper_le : ∀ v ∈ upper, v ≤ bpsMax
  category_le : ∀ v ∈ category, v ≤ 255
  scores_le : ∀ p ∈ scores, p.2 ≤ bpsMax

/-- The encoder writes the bytes of any tuple that holds the label and the hashed keys it is
given. -/
lemma layout_eq_bytes (r : Receipt) (category : Option ℕ) (scores : List (String × ℕ))
    (hlabel : r.label = category.map UInt8.ofNat)
    (hscores : r.scores = scores.map (fun p => ((sha256 (utf8 p.1.toList)).val.take 4,p.2))) :
    layout r.kind r.index r.scalar r.lower r.upper category scores r.hash = r.bytes := by
  have hbps : bpsBytes = bpsField := by
    funext v
    cases v <;> rfl
  have hbyte : labelBytes category = labelField r.label := by
    rw [hlabel]
    cases category <;> rfl
  have hfield : (if scores = [] then [] else UInt8.ofNat scores.length :: scoreBytes scores) =
      scoreField r.scores := by
    rw [hscores]
    unfold scoreField
    simp only [List.map_eq_nil_iff,List.length_map,List.flatMap_map]
    rfl
  have hflags : resultFlags r.scalar r.lower r.upper category scores = r.flags := by
    simp only [Receipt.flags,hlabel,hscores,Option.isSome_map,List.isEmpty_map]
    rfl
  rw [layout,hbps,hbyte,hfield,hflags]
  rfl

namespace Fields

/-- The receipt tuple of the fields. -/
def receipt (f : Fields) (hs : f.scores.length ≤ maxNarrativeScores) (hash : Digest) : Receipt where
  kind := f.kind
  index := f.index
  scalar := f.scalar
  lower := f.lower
  upper := f.upper
  label := f.category.map UInt8.ofNat
  scores := f.scores.map (fun p => ((sha256 (utf8 p.1.toList)).val.take 4,p.2))
  hash := hash
  index_lt := f.index_lt
  scalar_le := f.scalar_le
  lower_le := f.lower_le
  upper_le := f.upper_le
  scores_le := by
    rw [List.length_map]
    exact hs
  scores_ok := by
    intro p hp
    obtain ⟨q,hq,rfl⟩ := List.mem_map.mp hp
    exact ⟨by simp [(sha256 (utf8 q.1.toList)).property],f.scores_le q hq⟩

/-- The encoder writes the layout of the tuple. -/
lemma layout_eq (f : Fields) (hs : f.scores.length ≤ maxNarrativeScores) (hash : Digest) :
    layout f.kind f.index f.scalar f.lower f.upper f.category f.scores hash =
      (f.receipt hs hash).bytes :=
  layout_eq_bytes (f.receipt hs hash) f.category f.scores rfl rfl

end Fields

/-- Behind the readers: every refusal blames the document, and what is written is a receipt. -/
lemma encodeFields_ends (f : Fields) (hash : Digest) :
    Ends Blames (fun out => ∃ hs, out = (f.receipt hs hash).bytes)
      (encodeFields f.kind f.index f.scalar f.lower f.upper f.category f.scores hash) := by
  apply Ends.bind (Ends.failIf (fun _ => id))
  intro _ _
  apply Ends.bind (Ends.failIf (fun _ => id))
  intro _ _
  apply Ends.bind (Ends.failIf (fun _ => id))
  intro _ _
  apply Ends.bind (Ends.failIf (fun _ => id))
  intro _ _
  apply Ends.bind (Ends.failIf (fun _ => id))
  intro _ hcount
  have hs := not_lt.mp hcount
  have hlayout := f.layout_eq hs hash
  apply Ends.bind (Ends.failIf (fun hlong => ?_))
  · intro _ _
    exact Ends.pure ⟨hs,hlayout⟩
  · rw [hlayout] at hlong
    exact absurd (f.receipt hs hash).length_le (not_le.mpr hlong)

lemma kindOf_eq_some {name : String} {kind : OutputKind} (h : kindOf name = some kind) :
    name = kind.name := by
  unfold kindOf at h
  split_ifs at h with h1 h2 h3
  · obtain rfl := Option.some.inj h
    exact h1
  · obtain rfl := Option.some.inj h
    exact h2
  · obtain rfl := Option.some.inj h
    exact h3

/-- A receipt of the document's fields is parsed back to them. -/
lemma describes_receipt {output : Json} (f : Fields)
    (hkind : output.get "output_kind" = some (.str f.kind.name))
    (hindex : output.get "branch_index" = some (.int f.index))
    (hscalar : Carries output "scalar_value_bps" f.scalar)
    (hlabel : Carries output "categorical_label_index" f.category)
    (hs : f.scores.length ≤ maxNarrativeScores) (hash : Digest) :
    ∃ r, parseBranchResultBytes (f.receipt hs hash).bytes = .ok r ∧ Describes output hash r := by
  refine ⟨_,(f.receipt hs hash).parse_bytes,hkind,hindex,hscalar,?_,rfl⟩
  have hback : (f.category.map UInt8.ofNat).map UInt8.toNat = f.category := by
    cases hc : f.category with
    | none => rfl
    | some n =>
      have hn := f.category_le n hc
      simp only [Option.map_some,UInt8.toNat_ofNat']
      rw [Nat.mod_eq_of_lt (by omega)]
  change Carries _ _ ((f.category.map UInt8.ofNat).map UInt8.toNat)
  rw [hback]
  exact hlabel

/-- The encoder on any document: it never runs out of room, and what it writes parses back to the
document's own values. -/
theorem encodeBranchResultBytes_ends (output : Json) (hash : Digest) :
    Ends Blames (fun out => ∃ r, parseBranchResultBytes out = .ok r ∧ Describes output hash r)
      (encodeBranchResultBytes output hash) := by
  apply Ends.bind (stringField_ends output "output_kind")
  intro kindName hname
  apply Ends.bind (Ends.require (fun _ => id) (fun kind hkind => hkind))
  intro kind hkind
  rw [kindOf_eq_some hkind] at hname
  apply Ends.bind (u64Field_ends output "branch_index")
  intro index hindex
  apply Ends.bind (Ends.failIf (fun _ => id))
  intro _ hwide
  apply Ends.bind (optionalBps_ends output "scalar_value_bps")
  intro scalar hscalar
  apply Ends.bind (optionalBps_ends output "scalar_confidence_lower_bps")
  intro lower hlower
  apply Ends.bind (optionalBps_ends output "scalar_confidence_upper_bps")
  intro upper hupper
  apply Ends.bind (optionalU64_ends output "categorical_label_index")
  intro category hcategory
  apply Ends.bind (Ends.failIf (fun _ => id))
  intro _ hlabel
  apply Ends.bind (narrativeScores_ends output)
  intro scores hscores
  have hbyte : ∀ v ∈ category, v ≤ 255 := by
    intro v hv
    subst hv
    simpa using hlabel
  let f : Fields := ⟨kind,index,scalar,lower,upper,category,scores,not_le.mp hwide,hscalar.2,
    hlower.2,hupper.2,hbyte,hscores⟩
  refine .of_eq (fun e he => (encodeFields_ends f hash).error he) (fun out hout => ?_)
  obtain ⟨hs,rfl⟩ := (encodeFields_ends f hash).ok hout
  exact describes_receipt f hname hindex hscalar.1 hcategory hs hash

end Encoder

section Guest

/-- The committed journal is the recomputed one with the digest of the framed payload. -/
lemma branchReceiptJournal_eq (fromSlice : Bytes → Option Json) (payload : Bytes) :
    branchReceiptJournal fromSlice payload =
      (fun j => { j with inputDigest := framedInputDigest payload }) <$>
        recomputeBranchReceipt fromSlice payload := by
  simp only [branchReceiptJournal,recomputeBranchReceipt,recomputeOutput,map_bind,map_pure]

lemma recomputeOutput_ends (output : Json) (digest : Digest) :
    Ends Blames (fun _ => True) (recomputeOutput output digest) := by
  apply Ends.bind (Ends.mapError (q := fun _ => True) (fun _ => id) (fun _ _ => trivial))
  intro outputBytes _
  apply Ends.bind (Ends.failIf (fun _ => id))
  intro _ _
  apply Ends.bind (Ends.mapError (q := fun _ => True) (fun _ => id) (fun _ _ => trivial))
  intro preimage _
  apply Ends.bind (encodeBranchResultBytes_ends output (sha256 preimage))
  intro resultBytes hparse
  obtain ⟨r,hr,-⟩ := hparse
  rw [hr]
  exact trivial

/-- The whole reduction blames the document whenever it refuses. -/
lemma recomputeBranchReceipt_ends (fromSlice : Bytes → Option Json) (payload : Bytes) :
    Ends Blames (fun _ => True) (recomputeBranchReceipt fromSlice payload) := by
  apply Ends.bind (Ends.require (fun _ => id) (fun value hvalue => hvalue))
  intro value _
  apply Ends.bind (Ends.failIf (fun _ => id))
  intro _ _
  apply Ends.bind (stringField_ends value "schema")
  intro schema _
  apply Ends.bind (Ends.failIf (fun _ => id))
  intro _ _
  apply Ends.bind (u64Field_ends value "schema_version")
  intro version _
  apply Ends.bind (Ends.failIf (fun _ => id))
  intro _ _
  apply Ends.bind (stringField_ends value "branch_input_sha256")
  intro _ _
  apply Ends.bind (Ends.require (fun _ => id) (fun output houtput => houtput))
  intro output _
  apply Ends.bind (Ends.failIf (fun _ => id))
  intro _ _
  exact recomputeOutput_ends output _

lemma branchReceiptJournal_ends (fromSlice : Bytes → Option Json) (payload : Bytes) :
    Ends Blames (fun _ => True) (branchReceiptJournal fromSlice payload) := by
  rw [branchReceiptJournal_eq,map_eq_pure_bind]
  exact Ends.bind (recomputeBranchReceipt_ends fromSlice payload) (fun _ _ => trivial)

/-- The guest's encoder only emits what its parser reads back, and its two internal errors are
unreachable. -/
theorem encoder_inverse :
    (∀ (output : Json) (hash : Digest),
      (∀ n, encodeBranchResultBytes output hash ≠ .error (.resultTooLong n)) ∧
      ∀ out, encodeBranchResultBytes output hash = .ok out →
        ∃ r, parseBranchResultBytes out = .ok r ∧ Describes output hash r) ∧
    ∀ (fromSlice : Bytes → Option Json) (payload : Bytes) (e : BranchReceiptError), Internal e →
      recomputeBranchReceipt fromSlice payload ≠ .error e ∧
      branchReceiptJournal fromSlice payload ≠ .error e := by
  refine ⟨fun output hash => ⟨fun n h => ?_,fun out h => ?_⟩,fun fromSlice payload e he => ?_⟩
  · exact (encodeBranchResultBytes_ends output hash).error h trivial
  · exact (encodeBranchResultBytes_ends output hash).ok h
  · constructor
    · exact fun h => (recomputeBranchReceipt_ends fromSlice payload).error h he
    · exact fun h => (branchReceiptJournal_ends fromSlice payload).error h he

end Guest

end Kswarm.Reducer.BranchReceipt
