import Kswarm.Mirror.Encoding
import Kswarm.Protocol.CanonicalHash
import Kswarm.Reducer.Grammar

/-! The backend's `MFB2` decoder against the guest's and the command line's. It follows the same
layout and checks the length of everything it reads, but none of the values. -/
namespace Kswarm.Mirror
open Protocol
open Reducer (Frame Cuts bpsField labelField countedField scoreEntry headerBytes)

/-- The score entries as the decoder returns them. -/
def scoreTexts (scores : List (Bytes × ℕ)) : List (String × ℕ) :=
  scores.map (fun p => (Reducer.encodeHex p.1,p.2))

/-- The dictionary of a frame. -/
def decodedOf (t : Frame) : DecodedResult where
  schema := resultMagic
  schemaVersion := resultSchemaVersion
  outputKind := t.kind
  branchIndex := t.index
  scalarValueBps := t.scalar
  scalarConfidenceLowerBps := t.lower
  scalarConfidenceUpperBps := t.upper
  categoricalLabelIndex := t.label
  narrativeScoreHashes := t.scores.map scoreTexts
  canonicalHash := Reducer.encodeHex t.hash.val

section Written
variable (data pre post : Bytes)

/-- A field behind `pre` is read back when its reader reads it there. -/
lemma readIf_written {ε α β : Type} {present : Prop} [Decidable present]
    {read : ℕ → Except ε (β × ℕ)} {field : Option α → Bytes} {shown : α → β} {o : Option α}
    (hnone : field none = []) (hp : o.isSome = true ↔ present)
    (hread : ∀ v ∈ o, data = pre ++ (field (some v) ++ post) →
      read pre.length = .ok (shown v,(pre ++ field (some v)).length))
    (h : data = pre ++ (field o ++ post)) :
    readIf present read pre.length = .ok (o.map shown,(pre ++ field o).length) := by
  rw [Reducer.readIf_eq_ok]
  cases o with
  | none => exact .inr ⟨by simpa using hp,rfl,by simp [hnone]⟩
  | some v => exact .inl ⟨by simpa using hp,shown v,hread v rfl h,rfl⟩

lemma readU16_written {v : ℕ} (hv : v < 256^2) (h : data = pre ++ (leBytes 2 v ++ post)) :
    readU16 data pre.length = .ok (v,pre.length+2) := by
  subst h
  rw [readU16,failIf_of_not (by simp; omega)]
  rw [ok_bind,Reducer.take_drop_cut pre (leBytes 2 v) post rfl (leBytes_length 2 v),
    ofLe_leBytes_of_lt hv]
  rfl

lemma readByte_written {b : UInt8} (h : data = pre ++ ([b] ++ post)) :
    readByte data pre.length = .ok (b,pre.length+1) := by
  subst h
  simp [readByte,require,pure,Except.pure,bind,Except.bind]

lemma readIf_u16 {present : Prop} [Decidable present] {o : Option ℕ}
    (hp : o.isSome = true ↔ present) (ho : ∀ v ∈ o, v < 256^2)
    (h : data = pre ++ (bpsField o ++ post)) :
    readIf present (readU16 data) pre.length = .ok (o,(pre ++ bpsField o).length) := by
  have hread : ∀ v ∈ o, data = pre ++ (bpsField (some v) ++ post) →
      readU16 data pre.length = .ok (id v,(pre ++ bpsField (some v)).length) := by
    intro v hv hdata
    rw [readU16_written data pre post (ho v hv) hdata]
    simp [bpsField]
  simpa using readIf_written data pre post rfl hp hread h

lemma readIf_byte {present : Prop} [Decidable present] {o : Option UInt8}
    (hp : o.isSome = true ↔ present) (h : data = pre ++ (labelField o ++ post)) :
    readIf present (readByte data) pre.length = .ok (o,(pre ++ labelField o).length) := by
  have hread : ∀ v ∈ o, data = pre ++ (labelField (some v) ++ post) →
      readByte data pre.length = .ok (id v,(pre ++ labelField (some v)).length) := by
    intro v _ hdata
    rw [readByte_written data pre post hdata]
    simp [labelField]
  simpa using readIf_written data pre post rfl hp hread h

lemma readScoreHashes_written {scores : List (Bytes × ℕ)}
    (hs : ∀ p ∈ scores, p.1.length = 4 ∧ p.2 < 256^2)
    (h : data = pre ++ (scores.flatMap scoreEntry ++ post)) :
    readScoreHashes data scores.length pre.length =
      .ok (scoreTexts scores,(pre ++ scores.flatMap scoreEntry).length) := by
  induction scores generalizing pre with
  | nil => simp [readScoreHashes,scoreTexts,pure,Except.pure]
  | cons p ps ih =>
    obtain ⟨hl,hv⟩ := hs p (by simp)
    have hkey : data = pre ++ (p.1 ++ (leBytes 2 p.2 ++ (ps.flatMap scoreEntry ++ post))) := by
      simp [h,scoreEntry]
    have hval : data = (pre ++ p.1) ++ (leBytes 2 p.2 ++ (ps.flatMap scoreEntry ++ post)) := by
      simp [h,scoreEntry]
    have hrest : data = (pre ++ scoreEntry p) ++ (ps.flatMap scoreEntry ++ post) := by
      simp [h]
    have htake : (data.drop pre.length).take 4 = p.1 := by
      rw [hkey]
      exact Reducer.take_drop_cut pre p.1 _ rfl hl
    have hread := readU16_written data (pre ++ p.1) _ hv hval
    have htail := ih (pre ++ scoreEntry p) (fun q hq => hs q (by simp [hq])) hrest
    have hlen : (pre ++ scoreEntry p).length = pre.length+4+2 := by simp [scoreEntry,hl]
    rw [List.length_append,hl] at hread
    rw [hlen] at htail
    rw [List.length_cons,readScoreHashes,htake,hread]
    simp only [ok_bind]
    rw [htail,ok_bind]
    simp [scoreTexts,pure,Except.pure]

lemma readNarrativeScores_written {scores : List (Bytes × ℕ)} (hn : scores.length < 256)
    (hs : ∀ p ∈ scores, p.1.length = 4 ∧ p.2 < 256^2)
    (h : data = pre ++ (countedField (some scores) ++ post)) :
    readNarrativeScores data pre.length =
      .ok (scoreTexts scores,(pre ++ countedField (some scores)).length) := by
  have hcount := readByte_written data pre (scores.flatMap scoreEntry ++ post)
    (b := UInt8.ofNat scores.length) (by simp [h,countedField])
  have hentries := readScoreHashes_written data (pre ++ [UInt8.ofNat scores.length]) post hs
    (by simp [h,countedField])
  rw [List.length_append] at hentries
  rw [readNarrativeScores,hcount]
  simp only [ok_bind,UInt8.toNat_ofNat_of_lt' hn]
  simpa [countedField] using hentries

end Written

/-- Every frame is accepted, whatever its values. -/
theorem backend_accepts_frames (t : Frame) :
    parseBranchOutputResultBytes t.bytes = .ok (decodedOf t) := by
  let H := headerBytes t.kind t.index t.flags
  let A := H ++ bpsField t.scalar
  let B := A ++ bpsField t.lower
  let C := B ++ bpsField t.upper
  let D := C ++ labelField t.label
  let E := D ++ countedField t.scores
  have hE : t.bytes = E ++ t.hash.val := by simp [Frame.bytes,E,D,C,B,A,H]
  have hH : H.length = 11 := Reducer.headerBytes_length _ _ _
  obtain ⟨hmagic,hversion,hkind,hindex,hflags⟩ := Reducer.header_facts t.kind t.index t.flags
    (bpsField t.scalar ++ (bpsField t.lower ++ (bpsField t.upper ++ (labelField t.label ++
      (countedField t.scores ++ t.hash.val)))))
  change t.bytes.take 4 = _ at hmagic
  change t.bytes.getD 4 0 = _ at hversion
  change t.bytes.getD 5 0 = _ at hkind
  change (t.bytes.drop 6).take 4 = _ at hindex
  change t.bytes.getD 10 0 = _ at hflags
  have hhash : E.length+32 = t.bytes.length := by
    have hd := t.hash.property
    rw [hE]
    simp [hd]
  have hlen : 11 ≤ E.length := by
    simp only [E,D,C,B,A,List.length_append,hH]
    omega
  -- Each field is read behind everything written before it.
  have h1 := readIf_u16 t.bytes H (bpsField t.lower ++ bpsField t.upper ++ labelField t.label ++
    countedField t.scores ++ t.hash.val) t.scalar_flag t.scalar_lt (by simp [hE,E,D,C,B,A])
  have h2 := readIf_u16 t.bytes A (bpsField t.upper ++ labelField t.label ++
    countedField t.scores ++ t.hash.val) t.lower_flag t.lower_lt (by simp [hE,E,D,C,B])
  have h3 := readIf_u16 t.bytes B (labelField t.label ++ countedField t.scores ++ t.hash.val)
    t.upper_flag t.upper_lt (by simp [hE,E,D,C])
  have h4 := readIf_byte t.bytes C (countedField t.scores ++ t.hash.val) t.label_flag
    (by simp [hE,E,D])
  have h5 := readIf_written t.bytes D t.hash.val rfl t.scores_flag
    (fun v hv => readNarrativeScores_written _ _ _ (t.scores_lt v hv) (t.scores_ok v hv))
    (by simp [hE,E])
  rw [hH] at h1
  simp only [parseBranchOutputResultBytes,bind_eq_ok,failIf_eq_ok,require_eq_ok,pure_eq_ok,hflags,
    hversion,hkind]
  refine ⟨(),by omega,(),not_not.mpr hmagic,(),by simp [resultSchemaVersion,Reducer.mfb2SchemaVersion],
    t.kind,by simp,_,h1,_,h2,_,h3,_,h4,_,h5,(),not_not.mpr hhash,?_⟩
  have hcut : (t.bytes.drop E.length).take 32 = t.hash.val := by
    rw [hE,List.drop_left]
    exact List.take_of_length_le (le_of_eq t.hash.property)
  rw [hindex,ofLe_leBytes_of_lt t.index_lt]
  exact congrArg (fun b => { decodedOf t with canonicalHash := Reducer.encodeHex b }) hcut

section Read
variable {data : Bytes}

lemma readU16_field {offset v offset' : ℕ} (h : readU16 data offset = .ok (v,offset')) :
    data.drop offset = bpsField (some v) ++ data.drop offset' ∧ v < 256^2 := by
  simp only [readU16,bind_eq_ok,failIf_eq_ok,pure_eq_ok,Prod.mk.injEq,not_lt] at h
  obtain ⟨_,hlen,rfl,rfl⟩ := h
  refine ⟨Reducer.u16_cut hlen,?_⟩
  have hlt := ofLe_lt ((data.drop offset).take 2)
  rwa [show ((data.drop offset).take 2).length = 2 by simp; omega] at hlt

lemma readByte_field {offset offset' : ℕ} {b : UInt8} (h : readByte data offset = .ok (b,offset')) :
    data.drop offset = labelField (some b) ++ data.drop offset' := by
  simp only [readByte,bind_eq_ok,require_eq_ok,pure_eq_ok,Prod.mk.injEq] at h
  obtain ⟨_,hb,rfl,rfl⟩ := h
  exact Reducer.u8_cut hb

/-- The value behind a key slice is missing whenever the slice is short. -/
lemma readScoreHashes_field {n offset offset' : ℕ} {texts : List (String × ℕ)}
    (h : readScoreHashes data n offset = .ok (texts,offset')) :
    ∃ scores : List (Bytes × ℕ), scores.length = n ∧
      (∀ p ∈ scores, p.1.length = 4 ∧ p.2 < 256^2) ∧
      data.drop offset = scores.flatMap scoreEntry ++ data.drop offset' := by
  induction n generalizing offset texts with
  | zero =>
    obtain ⟨-,rfl⟩ := Prod.mk.inj (pure_eq_ok.mp h)
    exact ⟨[],rfl,by simp,rfl⟩
  | succ n ih =>
    simp only [readScoreHashes,bind_eq_ok,pure_eq_ok,Prod.mk.injEq] at h
    obtain ⟨⟨v,next⟩,hv,⟨rest,last⟩,hrest,-,rfl⟩ := h
    obtain ⟨scores,hlen,hok,hcut⟩ := ih hrest
    obtain ⟨hvcut,hlt⟩ := readU16_field hv
    have hkeylen : ((data.drop offset).take 4).length = 4 := by
      have hl := congrArg List.length hvcut
      simp only [bpsField,List.length_append,List.length_drop,leBytes_length] at hl
      simp only [List.length_take,List.length_drop]
      omega
    refine ⟨((data.drop offset).take 4,v)::scores,by simp [hlen],?_,?_⟩
    · rw [List.forall_mem_cons]
      exact ⟨⟨hkeylen,hlt⟩,hok⟩
    · rw [List.flatMap_cons,scoreEntry,List.append_assoc,List.append_assoc,← hcut]
      change _ = _ ++ (bpsField (some v) ++ _)
      rw [← hvcut,← List.drop_drop,List.take_append_drop]

lemma readNarrativeScores_field {offset offset' : ℕ} {texts : List (String × ℕ)}
    (h : readNarrativeScores data offset = .ok (texts,offset')) :
    ∃ scores : List (Bytes × ℕ), scores.length < 256 ∧
      (∀ p ∈ scores, p.1.length = 4 ∧ p.2 < 256^2) ∧
      data.drop offset = countedField (some scores) ++ data.drop offset' := by
  simp only [readNarrativeScores,bind_eq_ok] at h
  obtain ⟨⟨count,next⟩,hcount,hentries⟩ := h
  obtain ⟨scores,hlen,hok,hcut⟩ := readScoreHashes_field hentries
  refine ⟨scores,hlen ▸ count.toNat_lt,hok,?_⟩
  rw [readByte_field hcount,labelField,countedField,hlen,UInt8.ofNat_toNat,hcut]
  rfl

/-- Whatever the backend accepts is laid out as a frame. -/
theorem backend_sound {d : DecodedResult} (h : parseBranchOutputResultBytes data = .ok d) :
    ∃ t : Frame, t.bytes = data := by
  simp only [parseBranchOutputResultBytes,bind_eq_ok,failIf_eq_ok,require_eq_ok,pure_eq_ok,not_lt,
    not_not,ne_eq] at h
  obtain ⟨_,hlen,_,hmagic,_,hversion,kind,hkind,⟨scalar,o1⟩,h1,⟨lower,o2⟩,h2,⟨upper,o3⟩,h3,
    ⟨label,o4⟩,h4,⟨texts,o5⟩,h5,_,hend,-⟩ := h
  obtain ⟨c1,hscalar,f1⟩ := Reducer.readIf_field rfl readU16_field h1
  obtain ⟨c2,hlower,f2⟩ := Reducer.readIf_field rfl readU16_field h2
  obtain ⟨c3,hupper,f3⟩ := Reducer.readIf_field rfl readU16_field h3
  obtain ⟨c4,-,f4⟩ := Reducer.readIf_field (P := fun _ => True) rfl
    (fun h => ⟨readByte_field h,trivial⟩) h4
  obtain ⟨scores,c5,f5,hcount,hok⟩ := Reducer.readIf_counted readNarrativeScores_field h5
  have hcuts : Cuts data kind scalar lower upper label scores o5 := {
    long := by omega
    magic := hmagic
    version := hversion
    kind_id := hkind
    fields := by rw [c1,c2,c3,c4,c5]
    ends := hend
    scalar_lt := hscalar
    lower_lt := hlower
    upper_lt := hupper
    scores_lt := hcount
    scores_ok := hok
    scalar_flag := f1
    lower_flag := f2
    upper_flag := f3
    label_flag := f4
    scores_flag := f5 }
  exact ⟨hcuts.frame,hcuts.frame_bytes⟩

end Read

/-- The fields the three decoders all return. -/
structure Shared where
  outputKind : OutputKind
  branchIndex : ℕ
  scalar : Option ℕ
  label : Option ℕ
  /-- Lowercase hex, as the backend spells it. -/
  canonicalHash : String
  deriving DecidableEq

def guestShared (r : Reducer.BranchResult) : Shared where
  outputKind := r.outputKind
  branchIndex := r.branchIndex
  scalar := r.scalarValueBps
  label := r.categoricalLabelIndex.map UInt8.toNat
  canonicalHash := Reducer.encodeHex r.canonicalHash

def cliShared (r : Cli.BranchReceipt) : Shared where
  outputKind := r.outputKind
  branchIndex := r.branchIndex
  scalar := r.scalarValueBps
  label := r.categoricalLabelIndex
  canonicalHash := Reducer.encodeHex r.canonicalHash

def backendShared (d : DecodedResult) : Shared where
  outputKind := d.outputKind
  branchIndex := d.branchIndex
  scalar := d.scalarValueBps
  label := d.categoricalLabelIndex.map UInt8.toNat
  canonicalHash := d.canonicalHash

/-- All three decoders refuse the bytes, or all accept them with the same fields. -/
def DecodersAgree (data : Bytes) : Prop :=
  SameOk (guestShared <$> Reducer.parseBranchResultBytes data)
      (cliShared <$> Cli.parseBranchResultBytes data) ∧
    SameOk (guestShared <$> Reducer.parseBranchResultBytes data)
      (backendShared <$> parseBranchOutputResultBytes data)

lemma guest_cli_agree (data : Bytes) :
    SameOk (guestShared <$> Reducer.parseBranchResultBytes data)
      (cliShared <$> Cli.parseBranchResultBytes data) := by
  intro s
  simp only [map_eq_ok,parse_eq_ok]
  constructor
  · rintro ⟨r,hr,rfl⟩
    exact ⟨receiptOf r,⟨r,hr,rfl⟩,rfl⟩
  · rintro ⟨_,⟨r,hr,rfl⟩,rfl⟩
    exact ⟨r,hr,rfl⟩

/-- What the guest shows of a tuple, the backend shows of its frame. -/
lemma shared_frame (t : Frame) (h : t.Strict) :
    guestShared (t.receipt h).result = backendShared (decodedOf t) := rfl

lemma backend_eq_ok {data : Bytes} {d : DecodedResult} :
    parseBranchOutputResultBytes data = .ok d ↔ ∃ t : Frame, t.bytes = data ∧ decodedOf t = d := by
  constructor
  · intro h
    obtain ⟨t,ht⟩ := backend_sound h
    have hok := backend_accepts_frames t
    rw [ht,h] at hok
    exact ⟨t,ht,(Except.ok.inj hok).symm⟩
  · rintro ⟨t,rfl,rfl⟩
    exact backend_accepts_frames t

/-- The three decoders agree on a byte string exactly when it is not the layout of out-of-range
values, of an unknown flag bit, or of a score list that is empty or too long. -/
theorem decoders_agree_iff (data : Bytes) :
    DecodersAgree data ↔ ∀ t : Frame, t.bytes = data → t.Strict := by
  constructor
  · rintro ⟨-,hagree⟩ t rfl
    have hback : backendShared <$> parseBranchOutputResultBytes t.bytes =
        .ok (backendShared (decodedOf t)) := by rw [backend_accepts_frames]; rfl
    obtain ⟨r,hr,-⟩ := map_eq_ok.mp ((hagree _).mpr hback)
    obtain ⟨t',hstrict,hbytes⟩ := Reducer.parse_sound hr
    exact Frame.bytes_injective hbytes ▸ hstrict
  · intro hstrict
    refine ⟨guest_cli_agree data,?_⟩
    intro s
    simp only [map_eq_ok,backend_eq_ok]
    constructor
    · rintro ⟨r,hr,rfl⟩
      obtain ⟨t,ht,hbytes⟩ := Reducer.parse_sound hr
      have hparse := (t.receipt ht).parse_bytes
      rw [t.receipt_bytes,hbytes,hr] at hparse
      obtain rfl := Except.ok.inj hparse
      exact ⟨_,⟨t,hbytes,rfl⟩,(shared_frame t ht).symm⟩
    · rintro ⟨_,⟨t,hbytes,rfl⟩,rfl⟩
      have ht := hstrict t hbytes
      have hparse := (t.receipt ht).parse_bytes
      rw [t.receipt_bytes,hbytes] at hparse
      exact ⟨_,hparse,shared_frame t ht⟩

/-- The layout of a scalar receipt for branch 0 that states 10001 basis points. -/
def overRangeBytes : Bytes :=
  [77,70,66,50,2,1,0,0,0,0,1,17,39] ++ List.replicate 32 0

theorem backend_accepts_over_range : ¬DecodersAgree overRangeBytes := by
  rintro ⟨-,hagree⟩
  have hguest : Reducer.parseBranchResultBytes overRangeBytes = .error .valueOutOfRange := rfl
  have hback : Accepts (parseBranchOutputResultBytes overRangeBytes) := ⟨_,rfl⟩
  obtain ⟨d,hd⟩ := hback
  have := (hagree (backendShared d)).mpr (map_eq_ok.mpr ⟨d,hd,rfl⟩)
  rw [hguest] at this
  cases this

end Kswarm.Mirror
