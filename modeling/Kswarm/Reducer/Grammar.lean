import Kswarm.Reducer.Layout
import Mathlib.Data.List.GetD

/-! The shape of `MFB2` bytes before any value is checked, and the guest's parser against the
documented layout: it accepts the bytes of tuples and nothing else, one tuple for each string, and
never reads past the end. -/
namespace Kswarm.Reducer

/-- `u8 count`, then the entries. -/
def countedField : Option (List (Bytes × ℕ)) → Bytes
  | some scores => UInt8.ofNat scores.length :: scores.flatMap scoreEntry
  | none => []

/-- The fields a flags byte lays out, whatever values they hold. -/
@[ext] structure Frame where
  kind : OutputKind
  index : ℕ
  flags : UInt8
  scalar : Option ℕ
  lower : Option ℕ
  upper : Option ℕ
  label : Option UInt8
  scores : Option (List (Bytes × ℕ))
  hash : Digest
  index_lt : index < 256^4
  scalar_lt : ∀ v ∈ scalar, v < 256^2
  lower_lt : ∀ v ∈ lower, v < 256^2
  upper_lt : ∀ v ∈ upper, v < 256^2
  scores_lt : ∀ l ∈ scores, l.length < 256
  scores_ok : ∀ l ∈ scores, ∀ p ∈ l, p.1.length = 4 ∧ p.2 < 256^2
  scalar_flag : scalar.isSome = true ↔ flags &&& flagScalar ≠ 0
  lower_flag : lower.isSome = true ↔ flags &&& flagLower ≠ 0
  upper_flag : upper.isSome = true ↔ flags &&& flagUpper ≠ 0
  label_flag : label.isSome = true ↔ flags &&& flagCategory ≠ 0
  scores_flag : scores.isSome = true ↔ flags &&& flagScores ≠ 0

namespace Frame

def bytes (t : Frame) : Bytes :=
  headerBytes t.kind t.index t.flags ++ (bpsField t.scalar ++ (bpsField t.lower ++
    (bpsField t.upper ++ (labelField t.label ++ (countedField t.scores ++ t.hash.val)))))

/-- What the documentation asks of the values. -/
structure Strict (t : Frame) : Prop where
  flags_known : t.flags &&& ~~~flagKnown = 0
  scalar_le : ∀ v ∈ t.scalar, v ≤ bpsMax
  lower_le : ∀ v ∈ t.lower, v ≤ bpsMax
  upper_le : ∀ v ∈ t.upper, v ≤ bpsMax
  scores_count : ∀ l ∈ t.scores, l ≠ [] ∧ l.length ≤ maxNarrativeScores
  scores_le : ∀ l ∈ t.scores, ∀ p ∈ l, p.2 ≤ bpsMax

end Frame

section Unique

/-- Optional fields of one flag are cut off alike. -/
lemma isSome_inj {α : Type} {a b : Option α} {p : Prop} (ha : a.isSome = true ↔ p)
    (hb : b.isSome = true ↔ p) : a.isSome = b.isSome :=
  Bool.eq_iff_iff.mpr (ha.trans hb.symm)

lemma bpsField_inj {a b : Option ℕ} {x y : Bytes} (hab : a.isSome = b.isSome)
    (ha : ∀ v ∈ a, v < 256^2) (hb : ∀ v ∈ b, v < 256^2)
    (h : bpsField a ++ x = bpsField b ++ y) : a = b ∧ x = y := by
  cases a with
  | none =>
    cases b with
    | none => exact ⟨rfl,h⟩
    | some _ => cases hab
  | some v =>
    cases b with
    | none => cases hab
    | some w =>
      obtain ⟨hvw,hxy⟩ := List.append_inj h (by simp [bpsField])
      exact ⟨congrArg some (leBytes_inj (ha v rfl) (hb w rfl) hvw),hxy⟩

lemma labelField_inj {a b : Option UInt8} {x y : Bytes} (hab : a.isSome = b.isSome)
    (h : labelField a ++ x = labelField b ++ y) : a = b ∧ x = y := by
  cases a with
  | none =>
    cases b with
    | none => exact ⟨rfl,h⟩
    | some _ => cases hab
  | some v =>
    cases b with
    | none => cases hab
    | some w =>
      obtain ⟨hvw,hxy⟩ := List.cons.inj h
      exact ⟨congrArg some hvw,hxy⟩

lemma entries_inj {a b : List (Bytes × ℕ)} {x y : Bytes} (hab : a.length = b.length)
    (ha : ∀ p ∈ a, p.1.length = 4 ∧ p.2 < 256^2) (hb : ∀ p ∈ b, p.1.length = 4 ∧ p.2 < 256^2)
    (h : a.flatMap scoreEntry ++ x = b.flatMap scoreEntry ++ y) : a = b ∧ x = y := by
  induction a generalizing b with
  | nil =>
    obtain rfl := List.eq_nil_of_length_eq_zero hab.symm
    exact ⟨rfl,h⟩
  | cons p ps ih =>
    cases b with
    | nil => cases hab
    | cons q qs =>
      obtain ⟨hp,hpv⟩ := ha p (by simp)
      obtain ⟨hq,hqv⟩ := hb q (by simp)
      simp only [List.flatMap_cons,scoreEntry,List.append_assoc] at h
      obtain ⟨hkey,h⟩ := List.append_inj h (hp.trans hq.symm)
      obtain ⟨hval,h⟩ := List.append_inj h (by simp)
      obtain ⟨rfl,hxy⟩ := ih (Nat.succ.inj hab) (fun r hr => ha r (by simp [hr]))
        (fun r hr => hb r (by simp [hr])) h
      exact ⟨by rw [Prod.ext hkey (leBytes_inj hpv hqv hval)],hxy⟩

lemma countedField_inj {a b : Option (List (Bytes × ℕ))} {x y : Bytes}
    (hab : a.isSome = b.isSome) (ha : ∀ l ∈ a, l.length < 256) (hb : ∀ l ∈ b, l.length < 256)
    (ha' : ∀ l ∈ a, ∀ p ∈ l, p.1.length = 4 ∧ p.2 < 256^2)
    (hb' : ∀ l ∈ b, ∀ p ∈ l, p.1.length = 4 ∧ p.2 < 256^2)
    (h : countedField a ++ x = countedField b ++ y) : a = b ∧ x = y := by
  cases a with
  | none =>
    cases b with
    | none => exact ⟨rfl,h⟩
    | some _ => cases hab
  | some l =>
    cases b with
    | none => cases hab
    | some m =>
      obtain ⟨hcount,h⟩ := List.cons.inj h
      have hlm : l.length = m.length := by
        have := congrArg UInt8.toNat hcount
        rwa [UInt8.toNat_ofNat_of_lt' (ha l rfl),UInt8.toNat_ofNat_of_lt' (hb m rfl)] at this
      obtain ⟨rfl,hxy⟩ := entries_inj hlm (ha' l rfl) (hb' m rfl) h
      exact ⟨rfl,hxy⟩

/-- A string is the bytes of at most one frame. -/
theorem Frame.bytes_injective : Function.Injective Frame.bytes := by
  intro t t' h
  obtain ⟨hheader,hrest⟩ := List.append_inj h (by simp [headerBytes_length])
  obtain ⟨-,-,hk,hi,hf⟩ := header_facts t.kind t.index t.flags []
  obtain ⟨-,-,hk',hi',hf'⟩ := header_facts t'.kind t'.index t'.flags []
  rw [hheader] at hk hi hf
  have hkind : t.kind = t'.kind := by
    have hid := hk.symm.trans hk'
    have := congrArg OutputKind.fromId hid
    simpa using this
  have hindex : t.index = t'.index := leBytes_inj t.index_lt t'.index_lt (hi.symm.trans hi')
  have hflags : t.flags = t'.flags := hf.symm.trans hf'
  obtain ⟨hs,hrest⟩ := bpsField_inj (isSome_inj t.scalar_flag (hflags ▸ t'.scalar_flag))
    t.scalar_lt t'.scalar_lt hrest
  obtain ⟨hl,hrest⟩ := bpsField_inj (isSome_inj t.lower_flag (hflags ▸ t'.lower_flag))
    t.lower_lt t'.lower_lt hrest
  obtain ⟨hu,hrest⟩ := bpsField_inj (isSome_inj t.upper_flag (hflags ▸ t'.upper_flag))
    t.upper_lt t'.upper_lt hrest
  obtain ⟨hc,hrest⟩ := labelField_inj (isSome_inj t.label_flag (hflags ▸ t'.label_flag)) hrest
  obtain ⟨hn,hrest⟩ := countedField_inj (isSome_inj t.scores_flag (hflags ▸ t'.scores_flag))
    t.scores_lt t'.scores_lt t.scores_ok t'.scores_ok hrest
  exact Frame.ext hkind hindex hflags hs hl hu hc hn (Subtype.ext hrest)

end Unique

section Receipts

/-- Known flags are rebuilt from the five presence bits. -/
lemma flagsOf_bits (flags : UInt8) (h : flags &&& ~~~flagKnown = 0) :
    flagsOf (flags &&& flagScalar ≠ 0) (flags &&& flagLower ≠ 0) (flags &&& flagUpper ≠ 0)
      (flags &&& flagCategory ≠ 0) (flags &&& flagScores ≠ 0) = flags := by
  have hall : ∀ n : Fin 256, UInt8.ofNat n &&& ~~~flagKnown = 0 →
      flagsOf (UInt8.ofNat n &&& flagScalar ≠ 0) (UInt8.ofNat n &&& flagLower ≠ 0)
        (UInt8.ofNat n &&& flagUpper ≠ 0) (UInt8.ofNat n &&& flagCategory ≠ 0)
        (UInt8.ofNat n &&& flagScores ≠ 0) = UInt8.ofNat n := by
    decide +kernel
  have := hall ⟨flags.toNat,flags.toNat_lt⟩
  rw [UInt8.ofNat_toNat] at this
  exact this h

lemma lt_of_le_bpsMax {v : ℕ} (h : v ≤ bpsMax) : v < 256^2 := by
  have : bpsMax < 256^2 := by decide
  omega

/-- An empty score list is an absent one. -/
def presentScores (scores : List (Bytes × ℕ)) : Option (List (Bytes × ℕ)) :=
  if scores = [] then none else some scores

lemma mem_presentScores {scores l : List (Bytes × ℕ)} :
    l ∈ presentScores scores ↔ scores ≠ [] ∧ scores = l := by
  unfold presentScores
  split_ifs with h <;> simp [h]

lemma presentScores_isSome (scores : List (Bytes × ℕ)) :
    (presentScores scores).isSome = !scores.isEmpty := by
  cases scores <;> rfl

lemma presentScores_injective : Function.Injective presentScores := by
  intro a b h
  unfold presentScores at h
  grind

lemma countedField_presentScores (scores : List (Bytes × ℕ)) :
    countedField (presentScores scores) = scoreField scores := by
  unfold presentScores scoreField
  split_ifs <;> rfl

lemma Receipt.frame_scores_lt (r : Receipt) : ∀ l ∈ presentScores r.scores, l.length < 256 := by
  intro l hl
  obtain ⟨-,rfl⟩ := mem_presentScores.mp hl
  have : maxNarrativeScores < 256 := by decide
  exact lt_of_le_of_lt r.scores_le this

lemma Receipt.frame_scores_ok (r : Receipt) :
    ∀ l ∈ presentScores r.scores, ∀ p ∈ l, p.1.length = 4 ∧ p.2 < 256^2 := by
  intro l hl p hp
  obtain ⟨-,rfl⟩ := mem_presentScores.mp hl
  exact ⟨(r.scores_ok p hp).1,lt_of_le_bpsMax (r.scores_ok p hp).2⟩

lemma Receipt.frame_scores_flag (r : Receipt) :
    (presentScores r.scores).isSome = true ↔ r.flags &&& flagScores ≠ 0 := by
  rw [presentScores_isSome]
  exact (flagsOf_facts _ _ _ _ _).2.2.2.2.2.symm

def Receipt.frame (r : Receipt) : Frame where
  kind := r.kind
  index := r.index
  flags := r.flags
  scalar := r.scalar
  lower := r.lower
  upper := r.upper
  label := r.label
  scores := presentScores r.scores
  hash := r.hash
  index_lt := r.index_lt
  scalar_lt v hv := lt_of_le_bpsMax (r.scalar_le v hv)
  lower_lt v hv := lt_of_le_bpsMax (r.lower_le v hv)
  upper_lt v hv := lt_of_le_bpsMax (r.upper_le v hv)
  scores_lt := r.frame_scores_lt
  scores_ok := r.frame_scores_ok
  scalar_flag := (flagsOf_facts _ _ _ _ _).2.1.symm
  lower_flag := (flagsOf_facts _ _ _ _ _).2.2.1.symm
  upper_flag := (flagsOf_facts _ _ _ _ _).2.2.2.1.symm
  label_flag := (flagsOf_facts _ _ _ _ _).2.2.2.2.1.symm
  scores_flag := r.frame_scores_flag

lemma Receipt.frame_bytes (r : Receipt) : r.frame.bytes = r.bytes := by
  simp [Frame.bytes,Receipt.frame,countedField_presentScores,Receipt.bytes]

lemma Receipt.frame_injective : Function.Injective Receipt.frame := by
  intro r r' h
  have hscores : r.scores = r'.scores := presentScores_injective (congrArg Frame.scores h)
  have hkind := congrArg Frame.kind h
  have hindex := congrArg Frame.index h
  have hscalar := congrArg Frame.scalar h
  have hlower := congrArg Frame.lower h
  have hupper := congrArg Frame.upper h
  have hlabel := congrArg Frame.label h
  have hhash := congrArg Frame.hash h
  cases r
  cases r'
  simp only [Receipt.frame] at *
  subst_vars
  rfl

lemma Frame.Strict.scores_length {t : Frame} (h : t.Strict) :
    (t.scores.getD []).length ≤ maxNarrativeScores := by
  cases hs : t.scores with
  | none => exact Nat.zero_le _
  | some l => exact (h.scores_count l hs).2

lemma Frame.Strict.scores_pairs {t : Frame} (h : t.Strict) :
    ∀ p ∈ t.scores.getD [], p.1.length = 4 ∧ p.2 ≤ bpsMax := by
  cases hs : t.scores with
  | none => simp
  | some l =>
    intro p hp
    exact ⟨(t.scores_ok l hs p hp).1,h.scores_le l hs p hp⟩

/-- The tuple of a strict frame. -/
def Frame.receipt (t : Frame) (h : t.Strict) : Receipt where
  kind := t.kind
  index := t.index
  scalar := t.scalar
  lower := t.lower
  upper := t.upper
  label := t.label
  scores := t.scores.getD []
  hash := t.hash
  index_lt := t.index_lt
  scalar_le := h.scalar_le
  lower_le := h.lower_le
  upper_le := h.upper_le
  scores_le := h.scores_length
  scores_ok := h.scores_pairs

lemma Frame.receipt_bytes (t : Frame) (h : t.Strict) : (t.receipt h).bytes = t.bytes := by
  have hempty : (!(t.scores.getD []).isEmpty) = true ↔ t.scores.isSome = true := by
    have := h.scores_count
    cases hs : t.scores <;> simp_all
  have hflags : (t.receipt h).flags = t.flags := by
    have hb (a : Bool) (p : Prop) [Decidable p] (hap : a = true ↔ p) : a = decide p := by
      rw [Bool.eq_iff_iff,decide_eq_true_iff,hap]
    rw [← flagsOf_bits t.flags h.flags_known,Receipt.flags,← hb _ _ t.scalar_flag,
      ← hb _ _ t.lower_flag,← hb _ _ t.upper_flag,← hb _ _ t.label_flag,
      ← hb _ _ (hempty.trans t.scores_flag)]
    rfl
  have hscores : scoreField (t.receipt h).scores = countedField t.scores := by
    have hc := h.scores_count
    cases hs : t.scores with
    | none => simp [Frame.receipt,hs,scoreField,countedField]
    | some l => simp [Frame.receipt,hs,scoreField,countedField,(hc l hs).1]
  rw [Receipt.bytes,hflags,hscores]
  simp [Frame.bytes,Frame.receipt]

/-- A string is the bytes of at most one tuple. -/
theorem Receipt.bytes_injective : Function.Injective Receipt.bytes := by
  intro r r' h
  apply Receipt.frame_injective
  apply Frame.bytes_injective
  rw [r.frame_bytes,r'.frame_bytes,h]

end Receipts

section Reading
variable {data : Bytes}

/-- Fields in front of the offset a reader moves to. -/
lemma u16_cut {offset : ℕ} (h : offset+2 ≤ data.length) :
    data.drop offset =
      leBytes 2 (ofLe ((data.drop offset).take 2)) ++ data.drop (offset+2) := by
  have hlen : ((data.drop offset).take 2).length = 2 := by simp; omega
  have hle := leBytes_ofLe ((data.drop offset).take 2)
  rw [hlen] at hle
  rw [hle,← List.drop_drop,List.take_append_drop]

lemma u8_cut {offset : ℕ} {b : UInt8} (h : data[offset]? = some b) :
    data.drop offset = b :: data.drop (offset+1) := by
  obtain ⟨hlt,rfl⟩ := List.getElem?_eq_some_iff.mp h
  exact List.drop_eq_getElem_cons hlt

lemma drop_eq_getD_cons {offset : ℕ} (h : offset < data.length) :
    data.drop offset = data.getD offset 0 :: data.drop (offset+1) := by
  rw [List.drop_eq_getElem_cons h,List.getD_eq_getElem _ _ h]

lemma readBps_field {offset v offset' : ℕ} (h : readBps data offset = .ok (v,offset')) :
    data.drop offset = bpsField (some v) ++ data.drop offset' ∧ v ≤ bpsMax := by
  obtain ⟨hlen,rfl,hv,rfl⟩ := readBps_eq_ok.mp h
  exact ⟨u16_cut hlen,hv⟩

lemma readU8_field {offset offset' : ℕ} {b : UInt8} (h : readU8 data offset = .ok (b,offset')) :
    data.drop offset = labelField (some b) ++ data.drop offset' := by
  simp only [readU8,bind_eq_ok,require_eq_ok,pure_eq_ok,Prod.mk.injEq] at h
  obtain ⟨_,hb,rfl,rfl⟩ := h
  exact u8_cut hb

lemma readIf_eq_ok {ε α : Type} {present : Prop} [Decidable present]
    {read : ℕ → Except ε (α × ℕ)} {offset offset' : ℕ} {o : Option α} :
    readIf present read offset = .ok (o,offset') ↔
      (present ∧ ∃ v, read offset = .ok (v,offset') ∧ o = some v) ∨
        (¬present ∧ o = none ∧ offset' = offset) := by
  simp only [readIf,ite_eq_ok,bind_eq_ok,pure_eq_ok,Prod.mk.injEq,Prod.exists]
  grind

/-- An optional field lies in front of the next offset exactly when its flag is set. -/
lemma readIf_field {ε α : Type} {present : Prop} [Decidable present]
    {read : ℕ → Except ε (α × ℕ)} {field : Option α → Bytes} {P : α → Prop}
    (hnone : field none = [])
    (hread : ∀ {offset v offset'}, read offset = .ok (v,offset') →
      data.drop offset = field (some v) ++ data.drop offset' ∧ P v)
    {offset offset' : ℕ} {o : Option α} (h : readIf present read offset = .ok (o,offset')) :
    data.drop offset = field o ++ data.drop offset' ∧ (∀ v ∈ o, P v) ∧
      (o.isSome = true ↔ present) := by
  rcases readIf_eq_ok.mp h with ⟨hp,v,hv,rfl⟩ | ⟨hp,rfl,rfl⟩
  · obtain ⟨hcut,hP⟩ := hread hv
    exact ⟨hcut,by simpa using hP,by simpa using hp⟩
  · exact ⟨by simp [hnone],by simp,by simpa using hp⟩

/-- So do scores that the reader passes over, whatever it keeps of them. -/
lemma readIf_counted {ε α : Type} {present : Prop} [Decidable present]
    {read : ℕ → Except ε (α × ℕ)} {P Q : List (Bytes × ℕ) → Prop}
    (hread : ∀ {offset v offset'}, read offset = .ok (v,offset') →
      ∃ scores, P scores ∧ Q scores ∧
        data.drop offset = countedField (some scores) ++ data.drop offset')
    {offset offset' : ℕ} {o : Option α} (h : readIf present read offset = .ok (o,offset')) :
    ∃ scores : Option (List (Bytes × ℕ)),
      data.drop offset = countedField scores ++ data.drop offset' ∧
      (scores.isSome = true ↔ present) ∧ (∀ l ∈ scores, P l) ∧ ∀ l ∈ scores, Q l := by
  rcases readIf_eq_ok.mp h with ⟨hp,v,hv,-⟩ | ⟨hp,-,rfl⟩
  · obtain ⟨scores,hP,hQ,hcut⟩ := hread hv
    exact ⟨some scores,hcut,by simpa using hp,by simpa using hP,by simpa using hQ⟩
  · exact ⟨none,rfl,by simpa using hp,by simp,by simp⟩

lemma skipScores_field {n offset offset' : ℕ} (h : skipScores data n offset = .ok offset') :
    ∃ scores : List (Bytes × ℕ), scores.length = n ∧
      (∀ p ∈ scores, p.1.length = 4 ∧ p.2 ≤ bpsMax) ∧
      data.drop offset = scores.flatMap scoreEntry ++ data.drop offset' := by
  induction n generalizing offset with
  | zero =>
    obtain rfl := pure_eq_ok.mp h
    exact ⟨[],rfl,by simp,rfl⟩
  | succ n ih =>
    simp only [skipScores,bind_eq_ok,failIf_eq_ok,not_lt] at h
    obtain ⟨_,hkey,⟨v,next⟩,hv,hrest⟩ := h
    obtain ⟨scores,hlen,hok,hcut⟩ := ih hrest
    obtain ⟨hvcut,hle⟩ := readBps_field hv
    have hkeylen : ((data.drop offset).take 4).length = 4 := by simp; omega
    refine ⟨((data.drop offset).take 4,v)::scores,by simp [hlen],?_,?_⟩
    · simpa [hkeylen,hle] using hok
    · rw [List.flatMap_cons,scoreEntry,List.append_assoc,List.append_assoc,← hcut]
      change _ = _ ++ (bpsField (some v) ++ _)
      rw [← hvcut,← List.drop_drop,List.take_append_drop]

lemma readScores_field {offset offset' : ℕ} {u : Unit}
    (h : readScores data offset = .ok (u,offset')) :
    ∃ scores : List (Bytes × ℕ), (scores ≠ [] ∧ scores.length ≤ maxNarrativeScores) ∧
      (∀ p ∈ scores, p.1.length = 4 ∧ p.2 ≤ bpsMax) ∧
      data.drop offset = countedField (some scores) ++ data.drop offset' := by
  simp only [readScores,bind_eq_ok,failIf_eq_ok,pure_eq_ok,Prod.mk.injEq,not_or,not_lt] at h
  obtain ⟨⟨count,next⟩,hcount,_,⟨hne,hle⟩,last,hskip,-,rfl⟩ := h
  obtain ⟨scores,hlen,hok,hcut⟩ := skipScores_field hskip
  refine ⟨scores,⟨?_,hlen ▸ hle⟩,hok,?_⟩
  · rintro rfl
    exact hne (UInt8.toNat_inj.mp hlen.symm)
  · rw [readU8_field hcount,labelField,countedField,hlen,UInt8.ofNat_toNat,hcut]
    rfl

/-- The eleven bytes in front of the optional fields. -/
lemma header_cut {kind : OutputKind} (hlen : 11 ≤ data.length) (hmagic : data.take 4 = mfb2Magic)
    (hversion : data.getD 4 0 = mfb2SchemaVersion)
    (hkind : OutputKind.fromId (data.getD 5 0) = some kind) :
    data = headerBytes kind (ofLe ((data.drop 6).take 4)) (data.getD 10 0) ++ data.drop 11 := by
  have hid : data.getD 5 0 = kind.id := by
    unfold OutputKind.fromId at hkind
    split_ifs at hkind with h1 h2 h3 <;> (obtain rfl := Option.some.inj hkind; assumption)
  have hindex : leBytes 4 (ofLe ((data.drop 6).take 4)) = (data.drop 6).take 4 := by
    have hl : ((data.drop 6).take 4).length = 4 := by simp; omega
    have := leBytes_ofLe ((data.drop 6).take 4)
    rwa [hl] at this
  rw [headerBytes,hindex,← hmagic,← hversion,← hid]
  calc data = data.take 4 ++ data.drop 4 := (List.take_append_drop 4 data).symm
    _ = data.take 4 ++ (data.getD 4 0 :: data.getD 5 0 :: ((data.drop 6).take 4 ++
        (data.drop 6).drop 4)) := by
      rw [List.take_append_drop 4 (data.drop 6),drop_eq_getD_cons (show 4 < data.length by omega),
        drop_eq_getD_cons (show 5 < data.length by omega)]
    _ = _ := by
      rw [List.drop_drop,drop_eq_getD_cons (show 6+4 < data.length by omega)]
      simp

/-- What a decoder has found in the data once it has moved to the last field, at `last`. -/
structure Cuts (data : Bytes) (kind : OutputKind) (scalar lower upper : Option ℕ)
    (label : Option UInt8) (scores : Option (List (Bytes × ℕ))) (last : ℕ) : Prop where
  long : 11 ≤ data.length
  magic : data.take 4 = mfb2Magic
  version : data.getD 4 0 = mfb2SchemaVersion
  kind_id : OutputKind.fromId (data.getD 5 0) = some kind
  fields : data.drop 11 = bpsField scalar ++ (bpsField lower ++ (bpsField upper ++
    (labelField label ++ (countedField scores ++ data.drop last))))
  ends : last+32 = data.length
  scalar_lt : ∀ v ∈ scalar, v < 256^2
  lower_lt : ∀ v ∈ lower, v < 256^2
  upper_lt : ∀ v ∈ upper, v < 256^2
  scores_lt : ∀ l ∈ scores, l.length < 256
  scores_ok : ∀ l ∈ scores, ∀ p ∈ l, p.1.length = 4 ∧ p.2 < 256^2
  scalar_flag : scalar.isSome = true ↔ data.getD 10 0 &&& flagScalar ≠ 0
  lower_flag : lower.isSome = true ↔ data.getD 10 0 &&& flagLower ≠ 0
  upper_flag : upper.isSome = true ↔ data.getD 10 0 &&& flagUpper ≠ 0
  label_flag : label.isSome = true ↔ data.getD 10 0 &&& flagCategory ≠ 0
  scores_flag : scores.isSome = true ↔ data.getD 10 0 &&& flagScores ≠ 0

namespace Cuts
variable {kind : OutputKind} {scalar lower upper : Option ℕ} {label : Option UInt8}
  {scores : Option (List (Bytes × ℕ))} {last : ℕ}

lemma index_lt (h : Cuts data kind scalar lower upper label scores last) :
    ofLe ((data.drop 6).take 4) < 256^4 := by
  have hlt := ofLe_lt ((data.drop 6).take 4)
  have hlong := h.long
  rwa [show ((data.drop 6).take 4).length = 4 by simp; omega] at hlt

lemma hash_length (h : Cuts data kind scalar lower upper label scores last) :
    (data.drop last).length = 32 := by
  have hends := h.ends
  rw [List.length_drop]
  omega

def frame (h : Cuts data kind scalar lower upper label scores last) : Frame where
  kind := kind
  index := ofLe ((data.drop 6).take 4)
  flags := data.getD 10 0
  scalar := scalar
  lower := lower
  upper := upper
  label := label
  scores := scores
  hash := ⟨data.drop last,h.hash_length⟩
  index_lt := h.index_lt
  scalar_lt := h.scalar_lt
  lower_lt := h.lower_lt
  upper_lt := h.upper_lt
  scores_lt := h.scores_lt
  scores_ok := h.scores_ok
  scalar_flag := h.scalar_flag
  lower_flag := h.lower_flag
  upper_flag := h.upper_flag
  label_flag := h.label_flag
  scores_flag := h.scores_flag

lemma frame_bytes (h : Cuts data kind scalar lower upper label scores last) :
    h.frame.bytes = data := by
  have hheader := header_cut h.long h.magic h.version h.kind_id
  rw [h.fields] at hheader
  exact hheader.symm

end Cuts

/-- Accepted bytes are the layout of a frame with documented values. -/
theorem parse_sound {r : BranchResult} (h : parseBranchResultBytes data = .ok r) :
    ∃ t : Frame, t.Strict ∧ t.bytes = data := by
  simp only [parseBranchResultBytes,bind_eq_ok,failIf_eq_ok,require_eq_ok,pure_eq_ok,not_lt,
    not_not,ne_eq] at h
  obtain ⟨_,hlen,_,hmagic,_,hversion,kind,hkind,_,hknown,⟨scalar,o1⟩,h1,⟨lower,o2⟩,h2,
    ⟨upper,o3⟩,h3,⟨label,o4⟩,h4,⟨u,o5⟩,h5,_,hend,-⟩ := h
  obtain ⟨c1,hscalar,f1⟩ := readIf_field rfl readBps_field h1
  obtain ⟨c2,hlower,f2⟩ := readIf_field rfl readBps_field h2
  obtain ⟨c3,hupper,f3⟩ := readIf_field rfl readBps_field h3
  obtain ⟨c4,-,f4⟩ := readIf_field (P := fun _ => True) rfl
    (fun h => ⟨readU8_field h,trivial⟩) h4
  -- The parser drops the scores it has read past.
  obtain ⟨scores,c5,f5,hcount,hok⟩ := readIf_counted readScores_field h5
  have hcountLt : maxNarrativeScores < 256 := by decide
  have hcuts : Cuts data kind scalar lower upper label scores o5 := {
    long := by omega
    magic := hmagic
    version := hversion
    kind_id := hkind
    fields := by rw [c1,c2,c3,c4,c5]
    ends := hend
    scalar_lt := fun v hv => lt_of_le_bpsMax (hscalar v hv)
    lower_lt := fun v hv => lt_of_le_bpsMax (hlower v hv)
    upper_lt := fun v hv => lt_of_le_bpsMax (hupper v hv)
    scores_lt := fun l hl => lt_of_le_of_lt (hcount l hl).2 hcountLt
    scores_ok := fun l hl p hp => ⟨(hok l hl p hp).1,lt_of_le_bpsMax (hok l hl p hp).2⟩
    scalar_flag := f1
    lower_flag := f2
    upper_flag := f3
    label_flag := f4
    scores_flag := f5 }
  refine ⟨hcuts.frame,?_,hcuts.frame_bytes⟩
  exact ⟨hknown,hscalar,hlower,hupper,hcount,fun l hl p hp => (hok l hl p hp).2⟩

/-- Bytes are accepted exactly when they are those of a tuple. -/
lemma parse_eq_ok_iff {r : BranchResult} :
    parseBranchResultBytes data = .ok r ↔ ∃ t : Receipt, t.bytes = data ∧ t.result = r := by
  constructor
  · intro h
    obtain ⟨t,hstrict,hbytes⟩ := parse_sound h
    have hreceipt := (t.receipt_bytes hstrict).trans hbytes
    have hok := (t.receipt hstrict).parse_bytes
    rw [hreceipt,h] at hok
    exact ⟨t.receipt hstrict,hreceipt,(Except.ok.inj hok).symm⟩
  · rintro ⟨t,rfl,rfl⟩
    exact t.parse_bytes

end Reading

section Indexing

/-- `data[index]`, which panics past the end. -/
def indexAt (data : Bytes) (index : ℕ) : Except (Stop Mfb2Error) UInt8 :=
  require data[index]? .fault

/-- `data[start..stop]`, which panics past the end. -/
def sliceAt (data : Bytes) (start stop : ℕ) : Except (Stop Mfb2Error) Bytes := do
  failIf (stop < start ∨ data.length < stop) .fault
  pure ((data.drop start).take (stop-start))

def readBpsIndexed (data : Bytes) (offset : ℕ) : Except (Stop Mfb2Error) (ℕ × ℕ) := do
  failIf (data.length < offset+2) (.refused .tooShort)
  let low ← indexAt data offset
  let high ← indexAt data (offset+1)
  let value := ofLe [low,high]
  failIf (bpsMax < value) (.refused .valueOutOfRange)
  pure (value,offset+2)

def skipScoresIndexed (data : Bytes) : ℕ → ℕ → Except (Stop Mfb2Error) ℕ
  | 0,offset => pure offset
  | n+1,offset => do
    failIf (data.length < offset+4) (.refused .tooShort)
    let (_,offset) ← readBpsIndexed data (offset+4)
    skipScoresIndexed data n offset

def readScoresIndexed (data : Bytes) (offset : ℕ) : Except (Stop Mfb2Error) (Unit × ℕ) := do
  let (count,offset) ← returned (readU8 data offset)
  failIf (count = 0 ∨ maxNarrativeScores < count.toNat) (.refused (.tooManyNarrativeScores count))
  let offset ← skipScoresIndexed data count.toNat offset
  pure ((),offset)

/-- The parser with every index and slice checked against the length. -/
def parseIndexed (data : Bytes) : Except (Stop Mfb2Error) BranchResult := do
  failIf (data.length < 4+1+1+4+1+32) (.refused .tooShort)
  let magic ← sliceAt data 0 4
  failIf (magic ≠ mfb2Magic) (.refused .badMagic)
  let version ← indexAt data 4
  failIf (version ≠ mfb2SchemaVersion) (.refused (.unsupportedVersion version))
  let id ← indexAt data 5
  let outputKind ← require (OutputKind.fromId id) (.refused (.unknownOutputKind id))
  let b0 ← indexAt data 6
  let b1 ← indexAt data 7
  let b2 ← indexAt data 8
  let b3 ← indexAt data 9
  let flags ← indexAt data 10
  failIf (flags &&& ~~~flagKnown ≠ 0) (.refused (.unknownFlagBits flags))
  let (scalarValueBps,offset) ← readIf (flags &&& flagScalar ≠ 0) (readBpsIndexed data) 11
  let (_,offset) ← readIf (flags &&& flagLower ≠ 0) (readBpsIndexed data) offset
  let (_,offset) ← readIf (flags &&& flagUpper ≠ 0) (readBpsIndexed data) offset
  let (categoricalLabelIndex,offset) ←
    readIf (flags &&& flagCategory ≠ 0) (fun o => returned (readU8 data o)) offset
  let (_,offset) ← readIf (flags &&& flagScores ≠ 0) (readScoresIndexed data) offset
  failIf (offset+32 ≠ data.length)
    (.refused (if data.length < offset+32 then .tooShort else .trailingBytes))
  let canonicalHash ← sliceAt data offset (offset+32)
  pure {
    branchIndex := ofLe [b0,b1,b2,b3],outputKind,scalarValueBps,categoricalLabelIndex
    canonicalHash,resultHash := sha256 data }

lemma returned_readIf {α : Type} {present : Prop} [Decidable present]
    {read : ℕ → Except Mfb2Error (α × ℕ)} {read' : ℕ → Except (Stop Mfb2Error) (α × ℕ)}
    (h : ∀ offset, returned (read offset) = read' offset) (offset : ℕ) :
    returned (readIf present read offset) = readIf present read' offset := by
  unfold readIf
  split_ifs
  · rw [returned_bind,h]
    rfl
  · rfl

variable {data : Bytes}

lemma indexAt_of_lt {index : ℕ} (h : index < data.length) :
    indexAt data index = .ok (data.getD index 0) := by
  simp [indexAt,require,h]

lemma sliceAt_of_le {start stop : ℕ} (h : start ≤ stop) (h' : stop ≤ data.length) :
    sliceAt data start stop = .ok ((data.drop start).take (stop-start)) := by
  rw [sliceAt,failIf_of_not (by omega)]
  rfl

/-- Behind the length guard the two bytes are there. -/
lemma readBpsIndexed_eq (offset : ℕ) :
    returned (readBps data offset) = readBpsIndexed data offset := by
  simp only [readBps,readBpsIndexed,returned_bind,returned_failIf,returned_pure]
  by_cases h : data.length < offset+2
  · simp only [failIf,if_pos h]
    rfl
  · have hcut : (data.drop offset).take 2 = [data.getD offset 0,data.getD (offset+1) 0] := by
      rw [drop_eq_getD_cons (show offset < data.length by omega),
        drop_eq_getD_cons (show offset+1 < data.length by omega)]
      rfl
    rw [hcut,indexAt_of_lt (by omega),indexAt_of_lt (by omega)]
    rfl

lemma skipScoresIndexed_eq (n offset : ℕ) :
    returned (skipScores data n offset) = skipScoresIndexed data n offset := by
  induction n generalizing offset with
  | zero => rfl
  | succ n ih =>
    simp only [skipScores,skipScoresIndexed,returned_bind,returned_failIf,readBpsIndexed_eq,ih]

lemma readScoresIndexed_eq (offset : ℕ) :
    returned (readScores data offset) = readScoresIndexed data offset := by
  simp only [readScores,readScoresIndexed,returned_bind,returned_failIf,skipScoresIndexed_eq,
    returned_pure]

/-- The checked parser never meets the end of the data before the parser's own checks do. -/
lemma parseIndexed_eq (data : Bytes) : parseIndexed data = returned (parseBranchResultBytes data) := by
  simp only [parseBranchResultBytes,parseIndexed,returned_bind,returned_failIf,returned_require,
    returned_pure,returned_readIf readBpsIndexed_eq,returned_readIf readScoresIndexed_eq]
  by_cases hlen : data.length < 4+1+1+4+1+32
  · simp only [failIf,if_pos hlen]
    rfl
  have hindex : (data.drop 6).take 4 =
      [data.getD 6 0,data.getD 7 0,data.getD 8 0,data.getD 9 0] := by
    rw [drop_eq_getD_cons (show 6 < data.length by omega),
      drop_eq_getD_cons (show 7 < data.length by omega),
      drop_eq_getD_cons (show 8 < data.length by omega),
      drop_eq_getD_cons (show 9 < data.length by omega)]
    rfl
  rw [hindex,sliceAt_of_le (by omega) (by omega)]
  simp only [indexAt_of_lt (show 4 < data.length by omega),
    indexAt_of_lt (show 5 < data.length by omega),indexAt_of_lt (show 6 < data.length by omega),
    indexAt_of_lt (show 7 < data.length by omega),indexAt_of_lt (show 8 < data.length by omega),
    indexAt_of_lt (show 9 < data.length by omega),indexAt_of_lt (show 10 < data.length by omega),
    ok_bind,List.drop_zero,returned_readIf (fun _ => rfl)]
  refine bind_congr (fun _ => bind_congr (fun _ => bind_congr (fun _ => bind_congr (fun _ => ?_))))
  refine bind_congr (fun _ => bind_congr (fun _ => bind_congr (fun _ => bind_congr (fun _ => ?_))))
  refine bind_congr (fun _ => bind_congr (fun p => ?_))
  by_cases hend : p.2+32 = data.length
  · rw [sliceAt_of_le (by omega) (by omega),Nat.add_sub_cancel_left]
    rfl
  · simp only [failIf,if_pos hend]
    rfl

/-- The parser accepts exactly the layouts of tuples, each the layout of one tuple only; it returns
the components of that tuple, and its own checks come before every read. -/
theorem parse_accepts_layouts (data : Bytes) :
    (Accepts (parseBranchResultBytes data) ↔ ∃ t : Receipt, t.bytes = data) ∧
    (∀ t t' : Receipt, t.bytes = data → t'.bytes = data → t = t') ∧
    (∀ t : Receipt, t.bytes = data → parseBranchResultBytes data = .ok t.result) ∧
    parseIndexed data = returned (parseBranchResultBytes data) ∧
    parseIndexed data ≠ .error .fault := by
  refine ⟨⟨?_,?_⟩,?_,?_,parseIndexed_eq data,parseIndexed_eq data ▸ returned_ne_fault _⟩
  · rintro ⟨r,hr⟩
    obtain ⟨t,ht,-⟩ := parse_eq_ok_iff.mp hr
    exact ⟨t,ht⟩
  · rintro ⟨t,ht⟩
    exact ⟨t.result,parse_eq_ok_iff.mpr ⟨t,ht,rfl⟩⟩
  · intro t t' ht ht'
    exact Receipt.bytes_injective (ht.trans ht'.symm)
  · intro t ht
    exact parse_eq_ok_iff.mpr ⟨t,ht,rfl⟩

end Indexing
end Kswarm.Reducer
