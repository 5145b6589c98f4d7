import Kswarm.Reducer.Mfb2

/-! The documented layout of an `MFB2` receipt: the tuple it carries, the bytes of the tuple, and
the parser as the inverse of writing it. -/
namespace Kswarm.Reducer

/-- The tuple a receipt spells. -/
structure Receipt where
  kind : OutputKind
  index : ℕ
  scalar : Option ℕ
  lower : Option ℕ
  upper : Option ℕ
  label : Option UInt8
  scores : List (Bytes × ℕ)
  hash : Digest
  index_lt : index < 2^32
  scalar_le : ∀ v ∈ scalar, v ≤ bpsMax
  lower_le : ∀ v ∈ lower, v ≤ bpsMax
  upper_le : ∀ v ∈ upper, v ≤ bpsMax
  scores_le : scores.length ≤ maxNarrativeScores
  scores_ok : ∀ p ∈ scores, p.1.length = 4 ∧ p.2 ≤ bpsMax

def flagsOf (scalar lower upper category scores : Bool) : UInt8 :=
  setFlag scalar flagScalar ||| setFlag lower flagLower ||| setFlag upper flagUpper |||
    setFlag category flagCategory ||| setFlag scores flagScores

def bpsField : Option ℕ → Bytes
  | some v => leBytes 2 v
  | none => []

def labelField : Option UInt8 → Bytes
  | some l => [l]
  | none => []

def scoreEntry (p : Bytes × ℕ) : Bytes := p.1 ++ leBytes 2 p.2

def scoreField (scores : List (Bytes × ℕ)) : Bytes :=
  if scores = [] then [] else UInt8.ofNat scores.length :: scores.flatMap scoreEntry

def headerBytes (kind : OutputKind) (index : ℕ) (flags : UInt8) : Bytes :=
  mfb2Magic ++ [mfb2SchemaVersion,kind.id] ++ leBytes 4 index ++ [flags]

namespace Receipt

def flags (r : Receipt) : UInt8 :=
  flagsOf r.scalar.isSome r.lower.isSome r.upper.isSome r.label.isSome (!r.scores.isEmpty)

def bytes (r : Receipt) : Bytes :=
  headerBytes r.kind r.index r.flags ++ bpsField r.scalar ++ bpsField r.lower ++
    bpsField r.upper ++ labelField r.label ++ scoreField r.scores ++ r.hash.val

/-- What the parser returns for the tuple. -/
def result (r : Receipt) : BranchResult where
  branchIndex := r.index
  outputKind := r.kind
  scalarValueBps := r.scalar
  categoricalLabelIndex := r.label
  canonicalHash := r.hash.val
  resultHash := sha256 r.bytes

end Receipt

lemma flagsOf_facts (a b c d e : Bool) :
    (flagsOf a b c d e &&& ~~~flagKnown = 0) ∧
    (flagsOf a b c d e &&& flagScalar ≠ 0 ↔ a = true) ∧
    (flagsOf a b c d e &&& flagLower ≠ 0 ↔ b = true) ∧
    (flagsOf a b c d e &&& flagUpper ≠ 0 ↔ c = true) ∧
    (flagsOf a b c d e &&& flagCategory ≠ 0 ↔ d = true) ∧
    (flagsOf a b c d e &&& flagScores ≠ 0 ↔ e = true) := by
  revert a b c d e
  decide

lemma headerBytes_length (kind : OutputKind) (index : ℕ) (flags : UInt8) :
    (headerBytes kind index flags).length = 11 := by
  simp [headerBytes,mfb2Magic]

/-- Bytes between a read prefix and the rest. -/
lemma take_drop_cut {α : Type} (pre field post : List α) {n m : ℕ} (hn : pre.length = n)
    (hm : field.length = m) : ((pre ++ (field ++ post)).drop n).take m = field := by
  subst hn hm
  simp

section Fields
variable (data pre post : Bytes)

lemma readBps_cut {v : ℕ} (hv : v ≤ bpsMax) (h : data = pre ++ (leBytes 2 v ++ post)) :
    readBps data pre.length = .ok (v,pre.length+2) := by
  rw [readBps_eq_ok]
  subst h
  refine ⟨by simp,?_,hv,rfl⟩
  rw [take_drop_cut pre (leBytes 2 v) post rfl (leBytes_length 2 v),ofLe_leBytes_of_lt]
  have : bpsMax < 256^2 := by decide
  omega

/-- An optional basis-point field is read back and skipped. -/
lemma readIf_bps {o : Option ℕ} {present : Prop} [Decidable present]
    (hp : present ↔ o.isSome = true) (ho : ∀ v ∈ o, v ≤ bpsMax)
    (h : data = pre ++ (bpsField o ++ post)) :
    readIf present (readBps data) pre.length = .ok (o,(pre ++ bpsField o).length) := by
  cases o with
  | none =>
    rw [readIf,if_neg (by simp [hp])]
    simp [bpsField,pure,Except.pure]
  | some v =>
    rw [readIf,if_pos (hp.mpr rfl),bind_eq_ok]
    exact ⟨_,readBps_cut data pre post (ho v rfl) h,by simp [bpsField,pure,Except.pure]⟩

lemma readU8_cut {b : UInt8} (h : data = pre ++ ([b] ++ post)) :
    readU8 data pre.length = .ok (b,pre.length+1) := by
  subst h
  simp [readU8,require,pure,Except.pure,bind,Except.bind]

lemma readIf_label {o : Option UInt8} {present : Prop} [Decidable present]
    (hp : present ↔ o.isSome = true) (h : data = pre ++ (labelField o ++ post)) :
    readIf present (readU8 data) pre.length = .ok (o,(pre ++ labelField o).length) := by
  cases o with
  | none =>
    rw [readIf,if_neg (by simp [hp])]
    simp [labelField,pure,Except.pure]
  | some l =>
    rw [readIf,if_pos (hp.mpr rfl),bind_eq_ok]
    exact ⟨_,readU8_cut data pre post h,by simp [labelField,pure,Except.pure]⟩

lemma skipScores_cut {scores : List (Bytes × ℕ)}
    (hs : ∀ p ∈ scores, p.1.length = 4 ∧ p.2 ≤ bpsMax)
    (h : data = pre ++ (scores.flatMap scoreEntry ++ post)) :
    skipScores data scores.length pre.length =
      .ok (pre ++ scores.flatMap scoreEntry).length := by
  induction scores generalizing pre with
  | nil => simp [skipScores,pure,Except.pure]
  | cons p ps ih =>
    obtain ⟨hl,hv⟩ := hs p (by simp)
    have hcut : data = (pre ++ p.1) ++ (leBytes 2 p.2 ++ (ps.flatMap scoreEntry ++ post)) := by
      simp [h,scoreEntry]
    have hrest : data = (pre ++ scoreEntry p) ++ (ps.flatMap scoreEntry ++ post) := by
      simp [h]
    have hread := readBps_cut data (pre ++ p.1) _ hv hcut
    have htail := ih (pre ++ scoreEntry p) (fun q hq => hs q (by simp [hq])) hrest
    rw [List.length_append,hl] at hread
    simp only [List.length_cons,skipScores,bind_eq_ok,failIf_eq_ok]
    refine ⟨(),?_,_,hread,?_⟩
    · rw [hcut]
      simp only [List.length_append,hl]
      omega
    · have hlen : (pre ++ scoreEntry p).length = pre.length+4+2 := by simp [scoreEntry,hl]
      rw [hlen] at htail
      rw [List.flatMap_cons,← List.append_assoc]
      exact htail

lemma readIf_scores {scores : List (Bytes × ℕ)} {present : Prop} [Decidable present]
    (hp : present ↔ (!scores.isEmpty) = true) (hn : scores.length ≤ maxNarrativeScores)
    (hs : ∀ p ∈ scores, p.1.length = 4 ∧ p.2 ≤ bpsMax)
    (h : data = pre ++ (scoreField scores ++ post)) :
    ∃ u, readIf present (readScores data) pre.length =
      .ok (u,(pre ++ scoreField scores).length) := by
  by_cases he : scores = []
  · refine ⟨none,?_⟩
    rw [readIf,if_neg (by simp [hp,he])]
    simp [scoreField,he,pure,Except.pure]
  · refine ⟨some (),?_⟩
    have hcount : (UInt8.ofNat scores.length).toNat = scores.length := by
      rw [UInt8.toNat_ofNat']
      have : maxNarrativeScores < 256 := by decide
      omega
    have hpos := List.length_pos_iff.mpr he
    have hhead : data = pre ++ ([UInt8.ofNat scores.length] ++
        (scores.flatMap scoreEntry ++ post)) := by
      simp [h,scoreField,he]
    have hbody : data = (pre ++ [UInt8.ofNat scores.length]) ++
        (scores.flatMap scoreEntry ++ post) := by
      simp [hhead]
    have hskip := skipScores_cut data _ post hs hbody
    rw [readIf,if_pos (by simp [hp,he]),bind_eq_ok]
    refine ⟨((),(pre ++ scoreField scores).length),?_,rfl⟩
    simp only [readScores,bind_eq_ok,failIf_eq_ok,pure_eq_ok]
    refine ⟨_,readU8_cut data pre _ hhead,(),?_,_,?_,rfl⟩
    · simp only [hcount,not_or,not_lt]
      refine ⟨?_,hn⟩
      intro h0
      rw [h0] at hcount
      have : (0 : UInt8).toNat = 0 := rfl
      omega
    · rw [hcount,scoreField,if_neg he]
      simpa using hskip

end Fields

/-- The fixed fields, at their offsets. -/
lemma header_facts (kind : OutputKind) (index : ℕ) (flags : UInt8) (tail : Bytes) :
    let data := headerBytes kind index flags ++ tail
    data.take 4 = mfb2Magic ∧ data.getD 4 0 = mfb2SchemaVersion ∧ data.getD 5 0 = kind.id ∧
      (data.drop 6).take 4 = leBytes 4 index ∧ data.getD 10 0 = flags := by
  refine ⟨rfl,rfl,rfl,rfl,rfl⟩

lemma scoreEntries_length {t : List (Bytes × ℕ)} (ht : ∀ p ∈ t, p.1.length = 4) :
    (t.flatMap scoreEntry).length = 6*t.length := by
  induction t with
  | nil => rfl
  | cons p t ih =>
    have hp := ht p (by simp)
    have htail := ih (fun q hq => ht q (by simp [hq]))
    simp only [List.flatMap_cons,List.length_append,htail,scoreEntry,hp,leBytes_length,
      List.length_cons]
    omega

namespace Receipt

lemma scoreField_length (r : Receipt) : (scoreField r.scores).length ≤ 193 := by
  have hs := scoreEntries_length (fun p hp => (r.scores_ok p hp).1)
  have hm : r.scores.length ≤ 32 := r.scores_le
  unfold scoreField
  split_ifs
  · simp
  · rw [List.length_cons,hs]
    omega

/-- A receipt is far below the protocol's limit of 512 bytes. -/
lemma length_le (r : Receipt) : r.bytes.length ≤ 512 := by
  have hb : ∀ v : Option ℕ, (bpsField v).length ≤ 2 := by
    intro v
    cases v <;> simp [bpsField]
  have hl : (labelField r.label).length ≤ 1 := by
    cases r.label <;> simp [labelField]
  have h1 := hb r.scalar
  have h2 := hb r.lower
  have h3 := hb r.upper
  have h4 := r.scoreField_length
  have h5 := r.hash.property
  have h6 := headerBytes_length r.kind r.index r.flags
  simp only [bytes,List.length_append,h5,h6]
  omega

lemma bytes_length (r : Receipt) : 43 ≤ r.bytes.length := by
  have hh := headerBytes_length r.kind r.index r.flags
  have hd := r.hash.property
  simp only [bytes,List.length_append,hh,hd]
  omega

/-- Writing a tuple and parsing the bytes gives the tuple back. -/
theorem parse_bytes (r : Receipt) : parseBranchResultBytes r.bytes = .ok r.result := by
  obtain ⟨hknown,hfs,hfl,hfu,hfc,hfn⟩ := flagsOf_facts r.scalar.isSome r.lower.isSome
    r.upper.isSome r.label.isSome (!r.scores.isEmpty)
  have hlen := r.bytes_length
  let H := headerBytes r.kind r.index r.flags
  let tail := bpsField r.scalar ++ bpsField r.lower ++ bpsField r.upper ++ labelField r.label ++
    scoreField r.scores ++ r.hash.val
  have hdata : r.bytes = H ++ tail := by simp [bytes,H,tail]
  obtain ⟨hmagic,hversion,hkind,hindex,hflags⟩ := header_facts r.kind r.index r.flags tail
  rw [← hdata] at hmagic hversion hkind hindex hflags
  -- Each field is cut out of the data behind everything written before it.
  let A := H ++ bpsField r.scalar
  let B := A ++ bpsField r.lower
  let C := B ++ bpsField r.upper
  let D := C ++ labelField r.label
  let E := D ++ scoreField r.scores
  have hE : r.bytes = E ++ r.hash.val := rfl
  have h1 := readIf_bps r.bytes H (bpsField r.lower ++ bpsField r.upper ++ labelField r.label ++
    scoreField r.scores ++ r.hash.val) hfs r.scalar_le (by simp [hE,E,D,C,B,A])
  have h2 := readIf_bps r.bytes A (bpsField r.upper ++ labelField r.label ++ scoreField r.scores ++
    r.hash.val) hfl r.lower_le (by simp [hE,E,D,C,B])
  have h3 := readIf_bps r.bytes B (labelField r.label ++ scoreField r.scores ++ r.hash.val) hfu
    r.upper_le (by simp [hE,E,D,C])
  have h4 := readIf_label r.bytes C (scoreField r.scores ++ r.hash.val) hfc (by simp [hE,E,D])
  obtain ⟨u,h5⟩ := readIf_scores r.bytes D r.hash.val hfn r.scores_le r.scores_ok (by simp [hE,E])
  rw [show H.length = 11 from headerBytes_length _ _ _] at h1
  have hhash : E.length + 32 = r.bytes.length := by
    have hd := r.hash.property
    rw [hE]
    simp [hd]
  simp only [parseBranchResultBytes,bind_eq_ok,failIf_eq_ok,require_eq_ok,pure_eq_ok]
  refine ⟨(),by omega,(),not_not.mpr hmagic,(),not_not.mpr hversion,r.kind,by rw [hkind]; simp,(),
    ?_,(r.scalar,A.length),?_,(r.lower,B.length),?_,(r.upper,C.length),?_,(r.label,D.length),?_,
    (u,E.length),?_,(),?_,?_⟩
  · rw [hflags]
    exact not_not.mpr hknown
  · rw [hflags]
    exact h1
  · rw [hflags]
    exact h2
  · rw [hflags]
    exact h3
  · rw [hflags]
    exact h4
  · rw [hflags]
    exact h5
  · exact not_not.mpr hhash
  · have hcut : (r.bytes.drop E.length).take 32 = r.hash.val := by
      rw [hE,List.drop_left]
      exact List.take_of_length_le (le_of_eq r.hash.property)
    rw [result,BranchResult.mk.injEq]
    refine ⟨?_,rfl,rfl,rfl,hcut,rfl⟩
    rw [hindex,ofLe_leBytes_of_lt r.index_lt]

end Receipt
end Kswarm.Reducer
