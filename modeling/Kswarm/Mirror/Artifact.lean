import Kswarm.Mirror.Encoding
import Kswarm.Mirror.Combiner
import Kswarm.Reducer.Aggregate

/-! The well-formed aggregate artifact, and the documents that spell it. An `Artifact` carries the
invariants both reducers enforce, so a value of it is a reduction that cannot fail; each reducer
is then the statement of which documents spell one. -/
namespace Kswarm.Mirror

/-- A branch whose receipt parses, with the positive weight the artifact gives it. -/
structure Entry where
  receipt : Bytes
  result : Reducer.BranchResult
  weight : ℕ
  parsed : Reducer.parseBranchResultBytes receipt = .ok result
  weighted : 0 < weight

namespace Entry

def index (e : Entry) : ℕ := e.result.branchIndex

def hash (e : Entry) : Digest := sha256 e.receipt

/-- The scalar a mean takes from the branch. -/
def scalar (e : Entry) : ℕ := e.result.scalarValueBps.getD 0

/-- The category a vote takes from the branch. -/
def label (e : Entry) : ℕ := (e.result.categoricalLabelIndex.map UInt8.toNat).getD 0

/-- What a combiner asks of every branch. -/
def Suits (combinerId dictionarySize : ℕ) (e : Entry) : Prop :=
  (combinerId = 2 → e.weight = 1) ∧
    if combinerId = 3 then
      ∃ l, e.result.categoricalLabelIndex = some l ∧ l.toNat < dictionarySize
    else e.result.outputKind.carriesScalar = true ∧ ∃ s, e.result.scalarValueBps = some s

/-- The record of a document that declares the branch. -/
def Spells (e : Entry) (branch : Json) : Prop :=
  branch.get "branch_index" = some (.int e.index) ∧
  branch.get "result_bytes" = some (.str (Reducer.encodeHex e.receipt)) ∧
  branch.get "result_hash" = some (.str (Reducer.encodeHex e.hash.val)) ∧
  branch.get "weight" = some (.int e.weight)

lemma resultHash (e : Entry) : e.result.resultHash = e.hash :=
  (Reducer.parseBranchResultBytes_facts e.parsed).2.2

lemma index_lt (e : Entry) : e.index < 2^32 := (Reducer.parseBranchResultBytes_facts e.parsed).1

lemma scalar_le (e : Entry) : e.scalar ≤ 10000 := by
  unfold scalar
  cases h : e.result.scalarValueBps with
  | none => simp
  | some s => exact (Reducer.parseBranchResultBytes_facts e.parsed).2.1 s h

lemma receipt_ne_nil (e : Entry) : e.receipt ≠ [] := by
  intro h
  have hp := e.parsed
  rw [h] at hp
  cases hp

lemma isObj_of_get {v : Json} {k : String} {x : Json} (h : v.get k = some x) : v.isObj = true := by
  cases v with
  | obj fs => rfl
  | _ => simp [Json.get] at h

end Entry

section Fields

/-- A field that may be absent or null, read as zero then. -/
def SpellsOptional (value : Json) (field : String) (n : ℕ) : Prop :=
  ((value.get field = none ∨ value.get field = some .null) ∧ n = 0) ∨
    value.get field = some (.int n)

lemma unsigned_eq_ok {value : Json} {field : String} {n : ℕ} :
    Cli.unsigned value field = .ok n ↔ value.get field = some (.int n) := by
  unfold Cli.unsigned
  split
  · rename_i m hm
    split_ifs with hneg
    · simp only [hm,Option.some.injEq,Json.int.injEq,false_iff]
      omega
    · simp only [hm,pure_eq_ok,Option.some.injEq,Json.int.injEq]
      omega
  · rename_i hne
    constructor
    · intro h
      cases h
    · intro h
      exact absurd h (hne n)

lemma asU64_eq_some {v : Json} {n : ℕ} :
    Reducer.asU64 v = some n ↔ v = .int n ∧ n < 2^64 := by
  unfold Reducer.asU64
  split
  · rename_i m
    split_ifs with h
    · simp only [Option.some.injEq,Json.int.injEq]
      omega
    · simp only [Json.int.injEq,false_iff]
      omega
  · rename_i hne
    constructor
    · intro h
      cases h
    · rintro ⟨rfl,-⟩
      exact absurd rfl (hne n)

lemma asStr_eq_some {v : Json} {s : String} : Reducer.asStr v = some s ↔ v = .str s := by
  cases v <;> simp [Reducer.asStr]

lemma asArray_eq_some {v : Json} {xs : List Json} : Reducer.asArray v = some xs ↔ v = .arr xs := by
  cases v <;> simp [Reducer.asArray]

lemma stringField_eq_ok {value : Json} {field s : String} :
    Reducer.stringField value field = .ok s ↔ value.get field = some (.str s) := by
  simp only [Reducer.stringField,bind_eq_ok,require_eq_ok,asStr_eq_some]
  constructor
  · rintro ⟨_,h,rfl⟩
    exact h
  · intro h
    exact ⟨_,h,rfl⟩

lemma u64Field_eq_ok {value : Json} {field : String} {n : ℕ} :
    Reducer.u64Field value field = .ok n ↔ value.get field = some (.int n) ∧ n < 2^64 := by
  simp only [Reducer.u64Field,bind_eq_ok,require_eq_ok,asU64_eq_some]
  constructor
  · rintro ⟨_,h,rfl,hn⟩
    exact ⟨h,hn⟩
  · rintro ⟨h,hn⟩
    exact ⟨_,h,rfl,hn⟩

lemma tryU32_eq_some {m n : ℕ} : Reducer.tryU32 m = some n ↔ m = n ∧ n < 2^32 := by
  unfold Reducer.tryU32
  split_ifs with h
  · simp only [Option.some.injEq]
    omega
  · simp only [false_iff]
    omega

lemma u32Field_eq_ok {value : Json} {field : String} {n : ℕ} :
    Reducer.u32Field value field = .ok n ↔ value.get field = some (.int n) ∧ n < 2^32 := by
  simp only [Reducer.u32Field,bind_eq_ok,require_eq_ok,u64Field_eq_ok,tryU32_eq_some]
  constructor
  · rintro ⟨m,⟨h,-⟩,rfl,hn⟩
    exact ⟨h,hn⟩
  · rintro ⟨h,hn⟩
    exact ⟨n,⟨h,by omega⟩,rfl,hn⟩

/-- `_optional_unsigned(...) or 0`. -/
lemma optionalUnsigned_eq_ok {value : Json} {field : String} {n : ℕ} :
    (∃ o, Cli.optionalUnsigned value field = .ok o ∧ o.getD 0 = n) ↔
      SpellsOptional value field n := by
  unfold Cli.optionalUnsigned SpellsOptional
  split
  · rename_i h
    simp only [pure_eq_ok,exists_eq_left',Option.getD_none,h,reduceCtorEq,or_false,true_and]
    exact eq_comm
  · rename_i h
    simp only [pure_eq_ok,exists_eq_left',Option.getD_none,h,reduceCtorEq,Option.some.injEq,
      or_true,or_false,true_and]
    exact eq_comm
  · rename_i v hnull h
    simp only [map_eq_ok,unsigned_eq_ok,h,reduceCtorEq,Option.some.injEq,false_or]
    constructor
    · rintro ⟨o,⟨m,hm,rfl⟩,rfl⟩
      exact .inr hm
    · rintro (⟨rfl,-⟩ | hv)
      · exact absurd rfl hnull
      · exact ⟨_,⟨n,hv,rfl⟩,rfl⟩

/-- `optional_u32(...)?.unwrap_or(0)`. -/
lemma optionalU32_eq_ok {value : Json} {field : String} {n : ℕ} :
    (∃ o, Reducer.optionalU32 value field = .ok o ∧ o.getD 0 = n) ↔
      SpellsOptional value field n ∧ n < 2^32 := by
  unfold Reducer.optionalU32 SpellsOptional
  split
  · rename_i h
    simp only [pure_eq_ok,exists_eq_left',Option.getD_none,h,true_and,reduceCtorEq,or_false]
    omega
  · rename_i h
    simp only [pure_eq_ok,exists_eq_left',Option.getD_none,h,or_true,true_and,Option.some.injEq,
      reduceCtorEq,or_false]
    omega
  · rename_i v hnull h
    simp only [bind_eq_ok,require_eq_ok,asU64_eq_some,tryU32_eq_some,pure_eq_ok,h,reduceCtorEq,
      Option.some.injEq,false_or]
    constructor
    · rintro ⟨o,⟨m,⟨hm,-⟩,k,⟨rfl,hk⟩,rfl⟩,rfl⟩
      exact ⟨.inr hm,hk⟩
    · rintro ⟨⟨rfl,-⟩ | hv,hn⟩
      · exact absurd rfl hnull
      · exact ⟨_,⟨n,⟨hv,by omega⟩,n,⟨rfl,hn⟩,rfl⟩,rfl⟩

end Fields

section Loop
variable {σ ε : Type}

/-- Strictly increasing indices, all above the one before. -/
def Rising (previous : Option ℕ) (entries : List Entry) : Prop :=
  (∀ p ∈ previous, ∀ e ∈ entries, p < e.index) ∧ entries.Pairwise (fun a b => a.index < b.index)

lemma rising_cons {previous : Option ℕ} {e : Entry} {es : List Entry} :
    Rising previous (e::es) ↔ (∀ p ∈ previous, p < e.index) ∧ Rising (some e.index) es := by
  simp only [Rising,List.mem_cons,List.pairwise_cons,Option.mem_some_iff,forall_eq_or_imp,
    forall_eq']
  constructor
  · rintro ⟨hp,he,hes⟩
    exact ⟨fun p h => (hp p h).1,he,hes⟩
  · rintro ⟨hp,he,hes⟩
    exact ⟨fun p h => ⟨hp p h,fun x hx => (hp p h).trans (he x hx)⟩,he,hes⟩

/-- A loop whose turn accepts exactly the records of good entries above the previous one, and
then moves on by `next`, accepts exactly the record lists of rising good entries. -/
theorem loop_eq_ok {step : σ → Json × ℕ → Except ε σ} {next : σ → Entry → σ}
    {p : σ → Option ℕ} {G : Entry → Json → Prop}
    (hstep : ∀ s item s', step s item = .ok s' ↔
      ∃ e, G e item.1 ∧ (∀ i ∈ p s, i < e.index) ∧ s' = next s e)
    (hprev : ∀ s e, p (next s e) = some e.index) (branches : List Json) (k : ℕ) (s s' : σ) :
    (branches.zipIdx k).foldlM step s = .ok s' ↔
      ∃ es, List.Forall₂ G es branches ∧ Rising (p s) es ∧ s' = es.foldl next s := by
  induction branches generalizing k s with
  | nil => simpa [Rising] using eq_comm
  | cons b bs ih =>
    simp only [List.zipIdx_cons,List.foldlM_cons,bind_eq_ok,hstep,ih]
    constructor
    · rintro ⟨t,⟨e,hg,hp,rfl⟩,es,hes,hr,rfl⟩
      rw [hprev] at hr
      exact ⟨e::es,.cons hg hes,rising_cons.mpr ⟨hp,hr⟩,rfl⟩
    · rintro ⟨es,hes,hr,rfl⟩
      cases hes with
      | cons hg hes =>
        rename_i e es
        obtain ⟨hp,hr⟩ := rising_cons.mp hr
        exact ⟨_,⟨e,hg,hp,rfl⟩,es,hes,by rwa [hprev],rfl⟩

end Loop

section Turns

/-- What the mirror's loop appends for an entry. -/
def cliNext (combinerId : ℕ) (st : Cli.LoopState) (e : Entry) : Cli.LoopState where
  branchHashes := st.branchHashes ++ [e.hash]
  scalars := if combinerId = 3 then st.scalars
    else st.scalars ++ [((e.scalar : ℤ),(e.weight : ℤ))]
  scalarValues := if combinerId = 3 then st.scalarValues
    else st.scalarValues ++ [(e.scalar : ℤ)]
  votes := if combinerId = 3 then st.votes ++ [((e.label : ℤ),(e.weight : ℤ))] else st.votes
  previousIndex := some e.index

/-- What the guest's loop appends for an entry. -/
def guestNext (combinerId : ℕ) (st : Reducer.LoopState) (e : Entry) : Reducer.LoopState where
  branchHashes := st.branchHashes ++ [e.hash]
  scalars := if combinerId = 3 then st.scalars else st.scalars ++ [⟨e.scalar,e.weight⟩]
  scalarValues := if combinerId = 3 then st.scalarValues
    else st.scalarValues ++ [(e.scalar : ℤ)]
  votes := if combinerId = 3 then st.votes ++ [⟨e.label,e.weight⟩] else st.votes
  previousIndex := some e.index

lemma cliNext_previous (combinerId : ℕ) (st : Cli.LoopState) (e : Entry) :
    (cliNext combinerId st e).previousIndex = some e.index := rfl

lemma guestNext_previous (combinerId : ℕ) (st : Reducer.LoopState) (e : Entry) :
    (guestNext combinerId st e).previousIndex = some e.index := rfl

lemma above_iff {previous : Option ℕ} {n : ℕ} :
    ¬(previous.any (fun p => decide (n ≤ p)) = true) ↔ ∀ p ∈ previous, p < n := by
  cases previous <;> simp

/-- One turn of the mirror's loop. -/
theorem cli_branchStep (combinerId dictionarySize : ℕ) (st : Cli.LoopState) (item : Json × ℕ)
    (st' : Cli.LoopState) :
    Cli.branchStep combinerId dictionarySize st item = .ok st' ↔
      ∃ e : Entry, (e.Suits combinerId dictionarySize ∧ e.Spells item.1) ∧
        (∀ p ∈ st.previousIndex, p < e.index) ∧ st' = cliNext combinerId st e := by
  simp only [Cli.branchStep,bind_eq_ok,failIf_eq_ok,require_eq_ok,unsigned_eq_ok,hexBytes_eq_ok,
    parse_eq_ok,above_iff,ite_eq_ok,pure_eq_ok,exists_and_left,exists_const]
  simp only [Cli.combinerTrimmedMean,Cli.combinerMajorityVote]
  constructor
  · rintro ⟨-,i,hi,hp,bytes,hbytes,r,⟨b,hb,rfl⟩,hidx,h,hh,hhash,w,hw,hw0,htrim,hkind⟩
    obtain rfl : b.branchIndex = i := not_not.mp hidx
    have hres := (Reducer.parseBranchResultBytes_facts hb).2.2
    obtain rfl : h = b.resultHash.val := not_not.mp hhash
    rw [hres] at hh
    refine ⟨⟨bytes,b,w,hb,Nat.pos_of_ne_zero hw0⟩,⟨?_,hi,hbytes,hh,hw⟩,hp,?_⟩
    · refine ⟨fun h2 => not_not.mp (fun hne => htrim ⟨h2,hne⟩),?_⟩
      rcases hkind with ⟨h3,l,hl,-,hd,-⟩ | ⟨h3,hc,s,hs,-⟩
      · obtain ⟨l',hl',rfl⟩ := Option.map_eq_some_iff.mp hl
        rw [if_pos h3]
        exact ⟨l',hl',not_le.mp hd⟩
      · rw [if_neg h3]
        exact ⟨by simpa [receiptOf] using hc,s,hs⟩
    · rcases hkind with ⟨h3,l,hl,-,-,rfl⟩ | ⟨h3,-,s,hs,rfl⟩
      · obtain ⟨l',hl',rfl⟩ := Option.map_eq_some_iff.mp hl
        simp [cliNext,Entry.hash,Entry.label,Entry.index,h3,hl',receiptOf,hres]
      · have hs' : b.scalarValueBps = some s := hs
        simp [cliNext,Entry.hash,Entry.scalar,Entry.index,h3,hs',receiptOf,hres]
  · rintro ⟨e,⟨⟨htrim,hkind⟩,hi,hbytes,hh,hw⟩,hp,rfl⟩
    have hres := e.resultHash
    refine ⟨by simp [Entry.isObj_of_get hi],e.index,hi,hp,e.receipt,hbytes,_,⟨_,e.parsed,rfl⟩,
      not_not.mpr rfl,e.hash.val,hh,not_not.mpr (congrArg Subtype.val hres.symm),e.weight,hw,
      Nat.ne_of_gt e.weighted,fun h => h.2 (htrim h.1),?_⟩
    split_ifs at hkind with h3
    · obtain ⟨l,hl,hd⟩ := hkind
      refine .inl ⟨h3,l.toNat,by simp [receiptOf,hl],by omega,by omega,?_⟩
      simp [cliNext,h3,Entry.label,hl,receiptOf,hres]
    · obtain ⟨hc,s,hs⟩ := hkind
      refine .inr ⟨h3,by simp [receiptOf,hc],s,hs,?_⟩
      simp [cliNext,h3,Entry.scalar,hs,receiptOf,hres]

/-- One turn of the guest's loop: the same, for a weight that is a `u64`. -/
theorem guest_branchStep (combinerId : ℕ) (params : Reducer.CombinerParams)
    (st : Reducer.LoopState) (item : Json × ℕ) (st' : Reducer.LoopState) :
    Reducer.branchStep combinerId params st item = .ok st' ↔
      ∃ e : Entry, ((e.Suits combinerId params.categoryDictionarySize ∧ e.weight < 2^64) ∧
        e.Spells item.1) ∧ (∀ p ∈ st.previousIndex, p < e.index) ∧
        st' = guestNext combinerId st e := by
  simp only [Reducer.branchStep,bind_eq_ok,failIf_eq_ok,require_eq_ok,u64Field_eq_ok,
    u32Field_eq_ok,stringField_eq_ok,decodeHex_eq_some,decodeHexArray_eq_some,ok_of_mapError,
    above_iff,ite_eq_ok,pure_eq_ok,exists_and_left,exists_const]
  simp only [Reducer.combinerTrimmedMean,Reducer.combinerMajorityVote]
  constructor
  · rintro ⟨-,i,⟨hi,-⟩,hp,_,hbytes,bytes,rfl,b,hb,hidx,_,hh,h,rfl,hhash,w,⟨hw,hw64⟩,hw0,htrim,
      hkind⟩
    obtain rfl : b.branchIndex = i := not_not.mp hidx
    have hres := (Reducer.parseBranchResultBytes_facts hb).2.2
    obtain rfl : h = b.resultHash := not_not.mp hhash
    rw [hres] at hh
    refine ⟨⟨bytes,b,w,hb,Nat.pos_of_ne_zero hw0⟩,⟨⟨?_,hw64⟩,hi,hbytes,hh,hw⟩,hp,?_⟩
    · refine ⟨fun h2 => not_not.mp (fun hne => htrim ⟨h2,hne⟩),?_⟩
      rcases hkind with ⟨h3,l,hl,-,hd,-⟩ | ⟨h3,hc,s,hs,-⟩
      · rw [if_pos h3]
        exact ⟨l,hl,not_le.mp hd⟩
      · rw [if_neg h3]
        exact ⟨by simpa using hc,s,hs⟩
    · rcases hkind with ⟨h3,l,hl,-,-,rfl⟩ | ⟨h3,-,s,hs,rfl⟩
      · simp [guestNext,Entry.hash,Entry.label,Entry.index,h3,hl,hres]
      · simp [guestNext,Entry.hash,Entry.scalar,Entry.index,h3,hs,hres]
  · rintro ⟨e,⟨⟨⟨htrim,hkind⟩,hw64⟩,hi,hbytes,hh,hw⟩,hp,rfl⟩
    have hres := e.resultHash
    refine ⟨by simp [Entry.isObj_of_get hi],e.index,⟨hi,e.index_lt⟩,hp,_,hbytes,e.receipt,rfl,_,
      e.parsed,not_not.mpr rfl,_,hh,e.hash,rfl,not_not.mpr hres.symm,e.weight,⟨hw,hw64⟩,
      Nat.ne_of_gt e.weighted,fun h => h.2 (htrim h.1),?_⟩
    split_ifs at hkind with h3
    · obtain ⟨l,hl,hd⟩ := hkind
      refine .inl ⟨h3,l,hl,by omega,by omega,?_⟩
      simp [guestNext,h3,Entry.label,hl,hres]
    · obtain ⟨hc,s,hs⟩ := hkind
      refine .inr ⟨h3,by simp [hc],s,hs,?_⟩
      simp [guestNext,h3,Entry.scalar,hs,hres]

/-- The mirror's loop over all branches. -/
theorem cli_loop (combinerId dictionarySize : ℕ) (branches : List Json) (st : Cli.LoopState) :
    branches.zipIdx.foldlM (Cli.branchStep combinerId dictionarySize) .start = .ok st ↔
      ∃ es, ((∀ e ∈ es, e.Suits combinerId dictionarySize) ∧
        List.Forall₂ Entry.Spells es branches) ∧ Rising none es ∧
        st = es.foldl (cliNext combinerId) .start := by
  have h := loop_eq_ok (p := Cli.LoopState.previousIndex)
    (G := fun e branch => e.Suits combinerId dictionarySize ∧ e.Spells branch)
    (cli_branchStep combinerId dictionarySize) (cliNext_previous combinerId) branches 0 .start st
  simp only [List.forall₂_and_left] at h
  exact h

/-- The guest's loop over all branches. -/
theorem guest_loop (combinerId : ℕ) (params : Reducer.CombinerParams) (branches : List Json)
    (st : Reducer.LoopState) :
    branches.zipIdx.foldlM (Reducer.branchStep combinerId params) .start = .ok st ↔
      ∃ es, ((∀ e ∈ es, e.Suits combinerId params.categoryDictionarySize ∧ e.weight < 2^64) ∧
        List.Forall₂ Entry.Spells es branches) ∧ Rising none es ∧
        st = es.foldl (guestNext combinerId) .start := by
  have h := loop_eq_ok (p := Reducer.LoopState.previousIndex)
    (G := fun e branch => (e.Suits combinerId params.categoryDictionarySize ∧ e.weight < 2^64) ∧
      e.Spells branch)
    (guest_branchStep combinerId params) (guestNext_previous combinerId) branches 0 .start st
  simp only [List.forall₂_and_left] at h
  exact h

end Turns

/-- An artifact that reduces: what is left of a document once every check has passed. -/
structure Artifact where
  combinerId : ℕ
  trimBps : ℕ
  dictionarySize : ℕ
  entries : List Entry
  known : combinerId = 1 ∨ combinerId = 2 ∨ combinerId = 3
  nonempty : entries ≠ []
  bounded : entries.length ≤ 128
  rising : Rising none entries
  suits : ∀ e ∈ entries, e.Suits combinerId dictionarySize
  trims : combinerId = 2 → trimBps < 10000

namespace Artifact

def combinerName (combinerId : ℕ) : String :=
  if combinerId = 1 then "weighted-mean"
  else if combinerId = 2 then "trimmed-mean"
  else "majority-vote"

/-- The documents that spell the artifact; members not named here are free. -/
def Spells (a : Artifact) (doc : Json) : Prop :=
  doc.get "schema" = some (.str "MFA3") ∧
  doc.get "schema_version" = some (.int 3) ∧
  doc.get "combiner_id" = some (.int a.combinerId) ∧
  doc.get "combiner" = some (.str (combinerName a.combinerId)) ∧
  (∃ parameters, doc.get "combiner_parameters" = some parameters ∧ parameters.isObj = true ∧
    SpellsOptional parameters "trim_bps" a.trimBps ∧
    SpellsOptional parameters "category_dictionary_size" a.dictionarySize) ∧
  ∃ branches, doc.get "branches" = some (.arr branches) ∧
    List.Forall₂ Entry.Spells a.entries branches

/-- The integers are of the widths the guest reads them at. -/
def Fits (a : Artifact) : Prop :=
  a.trimBps < 2^32 ∧ a.dictionarySize < 2^32 ∧ ∀ e ∈ a.entries, e.weight < 2^64

def hashes (a : Artifact) : List Digest := a.entries.map Entry.hash

/-- The branch values with their weights. -/
def weighted (a : Artifact) : List (ℕ × ℕ) := a.entries.map (fun e => (e.scalar,e.weight))

def votes (a : Artifact) : List (ℕ × ℕ) := a.entries.map (fun e => (e.label,e.weight))

def outlierCount (a : Artifact) : ℕ := a.entries.length*a.trimBps / 10000

/-- The value a reduction of the artifact commits. -/
def answer (a : Artifact) : ℕ :=
  if a.combinerId = 1 then weightedMean a.weighted
  else if a.combinerId = 2 then trimmedMean (a.entries.map Entry.scalar) a.outlierCount
  else (winner a.votes).getD 0

/-- The root over the receipt hashes. -/
def root (a : Artifact) : Digest :=
  match Reducer.sortedBranchesMerkleRoot a.hashes with
  | .ok root => root
  | .error _ => sha256 []

lemma hashes_ne_nil (a : Artifact) : a.hashes ≠ [] := by simpa [hashes] using a.nonempty

lemma guest_root (a : Artifact) : Reducer.sortedBranchesMerkleRoot a.hashes = .ok a.root := by
  obtain ⟨r,h⟩ := Reducer.merkleRoot_accepts a.hashes_ne_nil
  simp [root,h]

lemma cli_root (a : Artifact) : Cli.sortedBranchesMerkleRoot a.hashes = .ok a.root :=
  (merkleRoot_agrees a.hashes a.root).mpr a.guest_root

lemma outlierCount_lt (a : Artifact) (h : a.combinerId = 2) :
    a.outlierCount < a.entries.length := by
  have := a.trims h
  have := List.length_pos_iff.mpr a.nonempty
  exact Nat.div_lt_of_lt_mul (by nlinarith)

end Artifact

lemma guestFold (combinerId : ℕ) (es : List Entry) (st : Reducer.LoopState) :
    let out := es.foldl (guestNext combinerId) st
    out.branchHashes = st.branchHashes ++ es.map Entry.hash ∧
    (combinerId ≠ 3 → out.scalars = st.scalars ++ es.map (fun e => ⟨e.scalar,e.weight⟩) ∧
      out.scalarValues = st.scalarValues ++ es.map (fun e => (e.scalar : ℤ))) ∧
    (combinerId = 3 → out.votes = st.votes ++ es.map (fun e => ⟨e.label,e.weight⟩)) := by
  induction es generalizing st with
  | nil => simp
  | cons e es ih =>
    obtain ⟨h1,h2,h3⟩ := ih (guestNext combinerId st e)
    refine ⟨?_,fun hne => ⟨?_,?_⟩,fun heq => ?_⟩
    · simpa [guestNext] using h1
    · simpa [guestNext,hne] using (h2 hne).1
    · simpa [guestNext,hne] using (h2 hne).2
    · simpa [guestNext,heq] using h3 heq

lemma cliFold (combinerId : ℕ) (es : List Entry) (st : Cli.LoopState) :
    let out := es.foldl (cliNext combinerId) st
    out.branchHashes = st.branchHashes ++ es.map Entry.hash ∧
    (combinerId ≠ 3 → out.scalars = st.scalars ++ es.map (fun e => ((e.scalar : ℤ),(e.weight : ℤ))) ∧
      out.scalarValues = st.scalarValues ++ es.map (fun e => (e.scalar : ℤ))) ∧
    (combinerId = 3 → out.votes = st.votes ++ es.map (fun e => ((e.label : ℤ),(e.weight : ℤ)))) := by
  induction es generalizing st with
  | nil => simp
  | cons e es ih =>
    obtain ⟨h1,h2,h3⟩ := ih (cliNext combinerId st e)
    refine ⟨?_,fun hne => ⟨?_,?_⟩,fun heq => ?_⟩
    · simpa [cliNext] using h1
    · simpa [cliNext,hne] using (h2 hne).1
    · simpa [cliNext,hne] using (h2 hne).2
    · simpa [cliNext,heq] using h3 heq

end Kswarm.Mirror
