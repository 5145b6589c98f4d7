import Kswarm.Reducer.Encoding
import Kswarm.Reducer.Merkle
import Kswarm.Cli.Aggregate

/-! The byte formats both reducers read and write: hex, the `MFB2` receipt, the parameter line and
the Merkle root. Each is the same function on the two sides. -/
namespace Kswarm.Mirror

lemma hexNibble_some {a x : UInt8} (h : Reducer.hexNibble a = some x) :
    x.toNat < 16 ∧ a = UInt8.ofNat (Json.hexChar x.toNat).toNat := by
  have hall : ∀ n : Fin 256, ∀ x ∈ Reducer.hexNibble (UInt8.ofNat n.val),
      x.toNat < 16 ∧ UInt8.ofNat n.val = UInt8.ofNat (Json.hexChar x.toNat).toNat := by
    decide +kernel
  simpa using hall ⟨a.toNat,a.toNat_lt⟩ x (by simpa using h)

lemma join_div_mod {hi lo : UInt8} (hhi : hi.toNat < 16) (hlo : lo.toNat < 16) :
    (((hi <<< 4) ||| lo).toNat/16 = hi.toNat) ∧ (((hi <<< 4) ||| lo).toNat%16 = lo.toNat) := by
  have hall : ∀ n m : Fin 16, (((UInt8.ofNat n.val <<< 4) ||| UInt8.ofNat m.val).toNat/16 = n.val) ∧
      (((UInt8.ofNat n.val <<< 4) ||| UInt8.ofNat m.val).toNat%16 = m.val) := by
    decide +kernel
  simpa using hall ⟨hi.toNat,hhi⟩ ⟨lo.toNat,hlo⟩

/-- Only the lowercase spelling decodes. -/
lemma decodePairs_sound (ds bytes : Bytes) (heven : ds.length % 2 = 0)
    (h : Reducer.decodePairs ds = some bytes) :
    ds = utf8 (bytes.flatMap Reducer.hexPair) := by
  fun_induction Reducer.decodePairs ds generalizing bytes with
  | case1 a b rest ih =>
    simp only [Option.bind_eq_bind,Option.bind_eq_some_iff,Option.some.injEq] at h
    obtain ⟨hi,hhi,lo,hlo,out,hout,rfl⟩ := h
    simp only [List.length_cons] at heven
    obtain ⟨hhi',rfl⟩ := hexNibble_some hhi
    obtain ⟨hlo',rfl⟩ := hexNibble_some hlo
    obtain ⟨hd,hm⟩ := join_div_mod hhi' hlo'
    rw [List.flatMap_cons,utf8_append,Reducer.utf8_hexPair,hd,hm,← ih out (by omega) hout]
    rfl
  | case2 ds hds =>
    obtain rfl := Option.some.inj h
    match ds,hds,heven with
    | [],_,_ => rfl
    | [_],_,heven => simp at heven
    | a::b::r,hds,_ => exact absurd rfl (hds a b r)

/-- One text for each byte string. -/
theorem decodeHex_eq_some {text : String} {bytes : Bytes} :
    Reducer.decodeHex text = some bytes ↔ text = Reducer.encodeHex bytes := by
  constructor
  · intro h
    simp only [Reducer.decodeHex,ne_eq,ite_not] at h
    split_ifs at h with heven
    have := utf8_injective (decodePairs_sound _ _ heven h)
    rw [Reducer.encodeHex,← this,String.ofList_toList]
  · rintro rfl
    exact Reducer.decodeHex_encodeHex bytes

theorem decodeHexArray_eq_some {text : String} {d : Digest} :
    Reducer.decodeHexArray text = some d ↔ text = Reducer.encodeHex d.val := by
  simp only [Reducer.decodeHexArray,Option.bind_eq_bind,Option.bind_eq_some_iff,decodeHex_eq_some]
  constructor
  · rintro ⟨bytes,rfl,h⟩
    split_ifs at h
    obtain rfl := Option.some.inj h
    rfl
  · rintro rfl
    exact ⟨d.val,rfl,by simp [d.property]⟩

lemma hexDigits_eq : Cli.hexDigits = (List.range 16).map Json.hexChar := by decide

lemma hexChar_facts {n : ℕ} (h : n < 16) : Cli.isAsciiSpace (Json.hexChar n) = false ∧
    Json.hexValue (Json.hexChar n) = some n := by
  interval_cases n <;> decide

lemma mem_hexDigits {c : Char} : c ∈ Cli.hexDigits ↔ ∃ n < 16, Json.hexChar n = c := by
  simp [hexDigits_eq]

lemma ofNat_nibbles {hi lo : ℕ} (hhi : hi < 16) (hlo : lo < 16) :
    (UInt8.ofNat (16*hi + lo)).toNat/16 = hi ∧ (UInt8.ofNat (16*hi + lo)).toNat%16 = lo := by
  have h : (UInt8.ofNat (16*hi + lo)).toNat = 16*hi + lo := by
    rw [UInt8.toNat_ofNat']
    omega
  omega

/-- `bytes.fromhex` behind the digit check reads the lowercase spelling only. -/
lemma fromhex_digits (cs : List Char) (heven : cs.length % 2 = 0)
    (hcs : ∀ c ∈ cs, c ∈ Cli.hexDigits) :
    ∃ bytes, Cli.fromhex cs = some bytes ∧ cs = bytes.flatMap Reducer.hexPair := by
  fun_induction Cli.fromhex cs with
  | case1 => exact ⟨[],rfl,rfl⟩
  | case2 c => simp at heven
  | case3 c => simp at heven
  | case4 c d rest hsp =>
    obtain ⟨n,hn,rfl⟩ := mem_hexDigits.mp (hcs c (by simp))
    rw [(hexChar_facts hn).1] at hsp
    cases hsp
  | case5 c d rest hsp ih =>
    obtain ⟨hi,hhi,rfl⟩ := mem_hexDigits.mp (hcs c (by simp))
    obtain ⟨lo,hlo,rfl⟩ := mem_hexDigits.mp (hcs d (by simp))
    obtain ⟨out,hout,hrest⟩ := ih (by simp only [List.length_cons] at heven; omega)
      (fun e he => hcs e (by simp [he]))
    obtain ⟨hd,hm⟩ := ofNat_nibbles hhi hlo
    refine ⟨UInt8.ofNat (16*hi + lo) :: out,?_,?_⟩
    · simp [(hexChar_facts hhi).2,(hexChar_facts hlo).2,hout]
    · rw [List.flatMap_cons,Reducer.hexPair,hd,hm,← hrest]
      rfl

lemma hexPairs_facts (bytes : Bytes) : (bytes.flatMap Reducer.hexPair).length % 2 = 0 ∧
    ∀ c ∈ bytes.flatMap Reducer.hexPair, c ∈ Cli.hexDigits := by
  constructor
  · rw [Reducer.hexPairs_length,Nat.mul_mod_right]
  · intro c hc
    obtain ⟨b,-,hb⟩ := List.mem_flatMap.mp hc
    have hlt := b.toNat_lt
    simp only [Reducer.hexPair,List.mem_cons,List.not_mem_nil,or_false] at hb
    rcases hb with rfl | rfl
    · exact mem_hexDigits.mpr ⟨_,by omega,rfl⟩
    · exact mem_hexDigits.mpr ⟨_,by omega,rfl⟩

lemma encodeHex_injective : Function.Injective Reducer.encodeHex := by
  intro a b h
  have := Reducer.decodeHex_encodeHex a
  rw [h,Reducer.decodeHex_encodeHex] at this
  exact (Option.some.inj this).symm

theorem fromhex_encodeHex (bytes : Bytes) :
    Cli.fromhex (Reducer.encodeHex bytes).toList = some bytes := by
  obtain ⟨heven,hdig⟩ := hexPairs_facts bytes
  obtain ⟨bytes',hfrom,htext⟩ := fromhex_digits _ heven hdig
  obtain rfl := encodeHex_injective (congrArg String.ofList htext)
  simpa [Reducer.encodeHex] using hfrom

lemma string_eq_ok {value : Json} {field s : String} :
    Cli.string value field = .ok s ↔ value.get field = some (.str s) := by
  unfold Cli.string
  split
  · rename_i t ht
    simp [ht]
  · rename_i hne
    constructor
    · intro h
      cases h
    · intro h
      exact absurd h (hne s)

/-- `_hex_bytes` accepts the field exactly when it holds the lowercase spelling. -/
theorem hexBytes_eq_ok {value : Json} {field : String} {bytes : Bytes} :
    Cli.hexBytes value field = .ok bytes ↔
      value.get field = some (.str (Reducer.encodeHex bytes)) := by
  simp only [Cli.hexBytes,bind_eq_ok,failIf_eq_ok,require_eq_ok,string_eq_ok,not_or,not_not,
    Bool.not_eq_true,List.any_eq_false,decide_eq_true_eq,exists_and_left,exists_const]
  constructor
  · rintro ⟨text,hget,⟨heven,hdig⟩,hfrom⟩
    obtain ⟨bytes',hfrom',htext⟩ := fromhex_digits text.toList heven hdig
    obtain rfl := Option.some.inj (hfrom.symm.trans hfrom')
    rw [hget,Reducer.encodeHex,← htext,String.ofList_toList]
  · intro hget
    refine ⟨_,hget,?_,fromhex_encodeHex bytes⟩
    simpa only [Reducer.encodeHex,String.toList_ofList] using hexPairs_facts bytes

/-- What the Python parser returns for the guest's parse. -/
def receiptOf (r : Reducer.BranchResult) : Cli.BranchReceipt where
  branchIndex := r.branchIndex
  outputKind := r.outputKind
  scalarValueBps := r.scalarValueBps
  categoricalLabelIndex := r.categoricalLabelIndex.map UInt8.toNat
  canonicalHash := r.canonicalHash
  resultHash := r.resultHash

lemma readU8_agrees (data : Bytes) (offset : ℕ) :
    SameOk (Cli.readU8 data offset) (Reducer.readU8 data offset) := by
  rintro ⟨value,offset'⟩
  simp only [Cli.readU8,Reducer.readU8,bind_eq_ok,failIf_eq_ok,require_eq_ok,pure_eq_ok,
    Prod.mk.injEq,exists_and_left,exists_const,not_lt,List.getElem?_eq_some_iff]
  constructor
  · rintro ⟨h,rfl,rfl⟩
    exact ⟨_,⟨by omega,rfl⟩,by simp [List.getD_eq_getElem?_getD,show offset < data.length by omega],rfl⟩
  · rintro ⟨_,⟨h,rfl⟩,rfl,rfl⟩
    exact ⟨by omega,by simp [List.getD_eq_getElem?_getD,h],rfl⟩

lemma readBps_agrees (data : Bytes) (offset : ℕ) :
    SameOk (Cli.readBps data offset) (Reducer.readBps data offset) := by
  refine SameOk.bind (.failIf Iff.rfl) (fun _ => ?_)
  refine SameOk.bind (.failIf ?_) (fun _ => .refl _)
  simp only [Cli.bpsScale,Reducer.bpsMax]
  omega

lemma skipScores_agrees (data : Bytes) (n offset : ℕ) :
    SameOk (Cli.skipScores data n offset) (Reducer.skipScores data n offset) := by
  induction n generalizing offset with
  | zero => exact .refl _
  | succ n ih =>
    refine SameOk.bind (.failIf Iff.rfl) (fun _ => ?_)
    exact SameOk.bind (readBps_agrees data _) (fun p => ih p.2)

lemma readScores_agrees (data : Bytes) (offset : ℕ) :
    SameOk (Cli.readScores data offset) (Reducer.readScores data offset) := by
  refine SameOk.bind (readU8_agrees data offset) (fun p => ?_)
  refine SameOk.bind (.failIf Iff.rfl) (fun _ => ?_)
  exact SameOk.bind (skipScores_agrees data _ _) (fun _ => .refl _)

lemma readIf_agrees {ε ε' α : Type} {present : Prop} [Decidable present]
    {read : ℕ → Except ε (α × ℕ)} {read' : ℕ → Except ε' (α × ℕ)}
    (h : ∀ offset, SameOk (read offset) (read' offset)) (offset : ℕ) :
    SameOk (readIf present read offset) (readIf present read' offset) := by
  unfold readIf
  split_ifs
  · exact SameOk.bind (h offset) (fun _ => .refl _)
  · exact .refl _

/-- The two receipt parsers accept the same bytes and read the same fields out of them. -/
theorem parse_agrees (data : Bytes) :
    SameOk (Cli.parseBranchResultBytes data)
      (receiptOf <$> Reducer.parseBranchResultBytes data) := by
  simp only [Cli.parseBranchResultBytes,Reducer.parseBranchResultBytes,map_bind]
  refine SameOk.bind (.failIf Iff.rfl) (fun _ => ?_)
  refine SameOk.bind (.failIf Iff.rfl) (fun _ => ?_)
  refine SameOk.bind (.failIf Iff.rfl) (fun _ => ?_)
  refine SameOk.bind (.require _ _ _) (fun _ => ?_)
  refine SameOk.bind (.failIf Iff.rfl) (fun _ => ?_)
  refine SameOk.bind (readIf_agrees (readBps_agrees data) _) (fun _ => ?_)
  refine SameOk.bind (readIf_agrees (readBps_agrees data) _) (fun _ => ?_)
  refine SameOk.bind (readIf_agrees (readBps_agrees data) _) (fun _ => ?_)
  refine SameOk.bind (readIf_agrees (readU8_agrees data) _) (fun _ => ?_)
  refine SameOk.bind (readIf_agrees (readScores_agrees data) _) (fun p => ?_)
  -- The guest makes one check where the mirror makes two.
  intro r
  simp only [bind_eq_ok,failIf_eq_ok,map_eq_ok,pure_eq_ok,exists_and_left,exists_const,
    exists_eq_left',not_lt,ne_eq,not_not]
  constructor
  · rintro ⟨-,h,rfl⟩
    exact ⟨h,rfl⟩
  · rintro ⟨h,rfl⟩
    exact ⟨by omega,h,rfl⟩

theorem parse_eq_ok {data : Bytes} {r : Cli.BranchReceipt} :
    Cli.parseBranchResultBytes data = .ok r ↔
      ∃ b, Reducer.parseBranchResultBytes data = .ok b ∧ receiptOf b = r := by
  rw [parse_agrees data r,map_eq_ok]

lemma digitLoop_eq (slots value : ℕ) (h : value < 10^slots) :
    Reducer.digitLoop slots value =
      (Nat.digits 10 value).map (fun d => UInt8.ofNat (48+d)) := by
  induction slots generalizing value with
  | zero =>
    obtain rfl : value = 0 := by simpa using h
    rfl
  | succ slots ih =>
    rw [Reducer.digitLoop]
    split_ifs with hpos
    · rw [ih _ (by rw [pow_succ] at h; omega),Nat.digits_def' (by decide) hpos,List.map_cons]
    · obtain rfl : value = 0 := by omega
      rfl

lemma utf8_digits (ds : List ℕ) (h : ∀ d ∈ ds, d < 10) :
    utf8 (ds.map digitChar) = ds.map (fun d => UInt8.ofNat (48+d)) := by
  induction ds with
  | nil => rfl
  | cons d ds ih =>
    have hd := digitChar_toNat (h d (by simp))
    have hlt := h d (by simp)
    rw [List.map_cons,utf8_cons,utf8_ascii (by omega),hd,ih (fun e he => h e (by simp [he]))]
    rfl

/-- The buffer of 20 digits holds every `u64`. -/
theorem pushU64_eq (out : Bytes) {value : ℕ} (h : value < 10^20) :
    Reducer.pushU64 out value = out ++ Cli.decimalText value := by
  unfold Reducer.pushU64 Cli.decimalText decimal
  split_ifs with h0
  · rfl
  · rw [digitLoop_eq 20 value h,← List.map_reverse,utf8_digits]
    intro d hd
    exact Nat.digits_lt_base (by decide) (List.mem_reverse.mp hd)

/-- The two spellings of the parameter line are one line. -/
theorem paramsLine_agrees {combinerId : ℕ} {params : Reducer.CombinerParams}
    (hid : combinerId < 10^20) (ht : params.trimBps < 10^20)
    (hd : params.categoryDictionarySize < 10^20) :
    Reducer.combinerParamsCanonicalBytes combinerId params =
      Cli.combinerParamsCanonicalBytes combinerId params.trimBps
        params.categoryDictionarySize := by
  simp only [Reducer.combinerParamsCanonicalBytes,Cli.combinerParamsCanonicalBytes,
    pushU64_eq _ hid,pushU64_eq _ ht,pushU64_eq _ hd]
  rfl

/-- The parameter line as one text. -/
lemma paramsLine_text (combinerId trimBps dictionarySize : ℕ) :
    Cli.combinerParamsCanonicalBytes combinerId trimBps dictionarySize =
      utf8 (Cli.combinerParamsDomain.toList ++ ("|combiner_id=".toList ++ (decimal combinerId ++
        '|' :: ("trim_bps=".toList ++ (decimal trimBps ++
        '|' :: ("category_dictionary_size=".toList ++ decimal dictionarySize)))))) := by
  have htrim : "|trim_bps=".toList = '|' :: "trim_bps=".toList := rfl
  have hsize : "|category_dictionary_size=".toList =
      '|' :: "category_dictionary_size=".toList := rfl
  simp only [Cli.combinerParamsCanonicalBytes,Cli.encode,Cli.decimalText,htrim,hsize,utf8_append,
    utf8_cons,List.append_assoc]

/-- The line determines the parameters it names. -/
theorem paramsLine_injective {i t d i' t' d' : ℕ}
    (h : Cli.combinerParamsCanonicalBytes i t d = Cli.combinerParamsCanonicalBytes i' t' d') :
    i = i' ∧ t = t' ∧ d = d' := by
  rw [paramsLine_text,paramsLine_text] at h
  have h1 := List.append_cancel_left (List.append_cancel_left (utf8_injective h))
  obtain ⟨rfl,h2⟩ := decimal_append_inj (by decide) h1
  obtain ⟨rfl,h3⟩ := decimal_append_inj (by decide) (List.append_cancel_left h2)
  exact ⟨rfl,rfl,decimal_injective (List.append_cancel_left h3)⟩

/-- The comprehension over index pairs is the pass over chunks of two. -/
lemma nextLevel_eq (level : List Digest) : Cli.nextLevel level = Reducer.nextLevel level := by
  unfold Reducer.nextLevel
  fun_induction pairUp Reducer.merkleNodeHash level with
  | case1 => rfl
  | case2 a => simp [Cli.nextLevel,Cli.levelAt]
  | case3 a b rest ih =>
    rw [← ih]
    simp only [Cli.nextLevel,List.length_cons]
    rw [show (rest.length+1+1+1)/2 = (rest.length+1)/2 + 1 by omega,List.range_succ_eq_map,
      List.map_cons,List.map_map]
    refine congrArg₂ List.cons ?_ (List.map_congr_left (fun i _ => ?_))
    · simp [Cli.levelAt]
      rfl
    · simp only [Function.comp,Cli.levelAt,Nat.succ_eq_add_one,Nat.mul_add,Nat.mul_one,
        List.getD_cons_succ]
      by_cases hi : 2*i+1 < rest.length
      · rw [if_pos (by omega),if_pos hi]
      · rw [if_neg (by omega),if_neg hi]

lemma merkleLoop_eq (n : ℕ) (level : List Digest) :
    Cli.merkleLoop n level = climb Reducer.merkleNodeHash n level := by
  induction n generalizing level with
  | zero => rfl
  | succ n ih =>
    simp only [Cli.merkleLoop,climb,ih,nextLevel_eq]
    rfl

/-- The strings one pass hashes are those of the pass over chunks of two. -/
lemma levelHashed_eq (level : List Digest) :
    Cli.levelHashed level = pairMessages Reducer.nodeMessage level := by
  fun_induction pairMessages Reducer.nodeMessage level with
  | case1 => rfl
  | case2 a => simp [Cli.levelHashed]
  | case3 a b rest ih =>
    rw [← ih]
    simp only [Cli.levelHashed,List.length_cons]
    rw [show (rest.length+1+1)/2 = rest.length/2 + 1 by omega,List.range_succ_eq_map,
      List.map_cons,List.map_map]
    rfl

lemma loopHashed_eq (n : ℕ) (level : List Digest) : Cli.loopHashed n level =
    climbMessages Reducer.merkleNodeHash Reducer.nodeMessage n level := by
  induction n generalizing level with
  | zero => rfl
  | succ n ih =>
    simp only [Cli.loopHashed,climbMessages,ih,levelHashed_eq,nextLevel_eq]
    rfl

/-- Both root computations hash the same strings. -/
theorem merkleHashed_agrees (hashes : List Digest) :
    Cli.merkleHashed hashes = Reducer.merkleHashed hashes := by
  simp only [Cli.merkleHashed,Reducer.merkleHashed,loopHashed_eq,List.length_map]
  rfl

/-- The two root computations agree on every list. -/
theorem merkleRoot_agrees (hashes : List Digest) :
    SameOk (Cli.sortedBranchesMerkleRoot hashes) (Reducer.sortedBranchesMerkleRoot hashes) := by
  intro root
  simp only [Cli.sortedBranchesMerkleRoot,Reducer.sortedBranchesMerkleRoot,bind_eq_ok,
    failIf_eq_ok,pure_eq_ok,require_eq_ok,exists_and_left,exists_const,merkleLoop_eq,
    Cli.levelAt,List.length_map]
  refine and_congr_right (fun hne => ?_)
  have hleaves := sorted_ne_nil hne
  have hroot := climb_length Reducer.merkleNodeHash (hashes.insertionSort digestLe).length
    ((hashes.insertionSort digestLe).map Cli.merkleLeafHash) (by simpa using hleaves) (by simp)
  obtain ⟨r,hr⟩ := List.length_eq_one_iff.mp hroot
  rw [hr,show (Reducer.merkleLeafHash : Digest → Digest) = Cli.merkleLeafHash from rfl,hr]
  simp

end Kswarm.Mirror
