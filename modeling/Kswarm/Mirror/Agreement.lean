import Kswarm.Mirror.Printed

/-! What the two reducers owe each other. On a document both accept they commit the same bytes;
they accept the same documents up to the width of the integers, which only the guest bounds. -/
namespace Kswarm.Mirror
namespace Artifact
variable (a : Artifact)

lemma weightedMean_le {ps : List (ℕ × ℕ)} (hne : ps ≠ []) (hv : ∀ p ∈ ps, p.1 ≤ 10000)
    (hw : ∀ p ∈ ps, 0 < p.2) : weightedMean ps ≤ 10000 :=
  halfUp_le (totalWeight_pos hne hw) (weightedSum_le hv)

lemma trimmedMean_le {values : List ℕ} {k : ℕ} (hk : k < values.length)
    (hv : ∀ v ∈ values, v ≤ 10000) : trimmedMean values k ≤ 10000 := by
  obtain ⟨kept,hkept,hkept',hbps⟩ := retained_cast hv k
  have hne : retained (values.map Nat.cast) k ≠ [] := retained_ne_nil (by simpa using hk)
  rw [hkept] at hne
  simp only [trimmedMean,← hkept']
  exact halfUp_le (List.length_pos_iff.mpr (by simpa using hne)) (sum_le_of_bps hbps)

/-- A committed value is a basis-point value or a label. -/
theorem answer_le : a.answer ≤ 10000 := by
  have hne : a.entries ≠ [] := a.nonempty
  unfold answer
  split_ifs with h1 h2
  · exact weightedMean_le (by simpa [weighted] using hne) a.weighted_bps a.weighted_pos
  · exact trimmedMean_le (by simpa using a.outlierCount_lt h2) a.scalars_bps
  · have hne' : a.votes ≠ [] := by simpa [votes] using hne
    obtain ⟨c,hc,v,hv,rfl⟩ := winner_exists hne' a.votes_pos
    obtain ⟨e,-,rfl⟩ := List.mem_map.mp hv
    rw [hc,Option.getD_some]
    simp only [Entry.label]
    cases e.result.categoricalLabelIndex with
    | none => simp
    | some l =>
      have := l.toNat_lt
      simp only [Option.map_some,Option.getD_some]
      omega

/-- What the mirror packs always fits. -/
lemma cli_packs : Cli.aggregateCommittedOutputs a.cliReduction =
    some ([UInt8.ofNat a.combinerId] ++
      (Cli.combinerParamsDigest a.combinerId a.trimBps a.dictionarySize).val ++ leBytes 4 a.answer ++
      leBytes 4 a.entries.length ++ a.root.val) := by
  have hans := a.answer_le
  have hcount := a.bounded
  have hid : a.combinerId < 256 := by
    have := a.known
    omega
  have hvalue : Cli.packU32 (a.answer : ℤ) = some (leBytes 4 a.answer) := by
    simp only [Cli.packU32,Int.toNat_natCast]
    rw [if_pos (by omega)]
  have hbranches : Cli.packU32 (a.entries.length : ℤ) = some (leBytes 4 a.entries.length) := by
    simp only [Cli.packU32,Int.toNat_natCast]
    rw [if_pos (by omega)]
  have hlen : ([UInt8.ofNat a.combinerId] ++
      (Cli.combinerParamsDigest a.combinerId a.trimBps a.dictionarySize).val ++ leBytes 4 a.answer ++
      leBytes 4 a.entries.length ++ a.root.val).length = Cli.aggregateCommittedOutputsLen := by
    have h1 := (Cli.combinerParamsDigest a.combinerId a.trimBps a.dictionarySize).property
    have h2 := a.root.property
    simp only [List.length_append,List.length_cons,List.length_nil,leBytes_length,h1,h2]
    decide
  simp only [Cli.aggregateCommittedOutputs,cliReduction,if_pos hid,hvalue,hbranches,
    Option.bind_eq_bind,Option.bind_some]
  exact if_neg (not_not.mpr hlen)

/-- The mirror packs the bytes the guest commits. -/
theorem committedOutputs_agree (h : a.Fits) :
    Cli.aggregateCommittedOutputs a.cliReduction =
      some (Reducer.aggregateCommittedOutputs a.guestReduction) := by
  have hans := a.answer_le
  have hdigest : Cli.combinerParamsDigest a.combinerId a.trimBps a.dictionarySize =
      Reducer.combinerParamsDigest a.combinerId ⟨a.trimBps,a.dictionarySize⟩ := by
    obtain ⟨ht,hd,-⟩ := h
    rw [Cli.combinerParamsDigest,Reducer.combinerParamsDigest,
      paramsLine_agrees (by have := a.known; omega) (by simp only; omega) (by simp only; omega)]
  rw [cli_packs,hdigest]
  rfl

end Artifact

section SingleBranch

/-- An `MFB2` receipt for branch 0 with a scalar of 5000 basis points. -/
def scalarReceipt : Bytes :=
  [77,70,66,50,2,1,0,0,0,0,1,136,19] ++ List.replicate 32 0

def scalarResult : Reducer.BranchResult where
  branchIndex := 0
  outputKind := .scalar
  scalarValueBps := some 5000
  categoricalLabelIndex := none
  canonicalHash := List.replicate 32 0
  resultHash := sha256 scalarReceipt

def scalarEntry (weight : ℕ) (h : 0 < weight) : Entry where
  receipt := scalarReceipt
  result := scalarResult
  weight := weight
  parsed := rfl
  weighted := h

/-- The artifact document of one scalar branch. -/
def singleBranch (combinerId weight : ℕ) : Json := .obj [
  ("schema",.str "MFA3"),("schema_version",.int 3),
  ("combiner",.str (Artifact.combinerName combinerId)),("combiner_id",.int combinerId),
  ("combiner_parameters",.obj []),
  ("branches",.arr [.obj [
    ("branch_index",.int 0),
    ("result_bytes",.str (Reducer.encodeHex scalarReceipt)),
    ("result_hash",.str (Reducer.encodeHex (sha256 scalarReceipt).val)),
    ("weight",.int weight)]])]

/-- A mean over one branch of any positive weight is a well-formed artifact. -/
lemma singleBranch_spells {combinerId weight : ℕ} (hid : combinerId = 1 ∨ combinerId = 2)
    (hw : 0 < weight) (h2 : combinerId = 2 → weight = 1) :
    ∃ a : Artifact, a.Spells (singleBranch combinerId weight) ∧ a.combinerId = combinerId ∧
      a.trimBps = 0 ∧ a.dictionarySize = 0 ∧ a.entries = [scalarEntry weight hw] := by
  have hsuits : (scalarEntry weight hw).Suits combinerId 0 := by
    refine ⟨h2,?_⟩
    rw [if_neg (by omega)]
    exact ⟨rfl,5000,rfl⟩
  refine ⟨⟨combinerId,0,0,[scalarEntry weight hw],by omega,by simp,by simp,
    ⟨by simp,by simp⟩,by simpa using hsuits,by omega⟩,?_,rfl,rfl,rfl,rfl⟩
  refine ⟨rfl,rfl,rfl,rfl,⟨.obj [],rfl,rfl,.inl ⟨.inl rfl,rfl⟩,.inl ⟨.inl rfl,rfl⟩⟩,_,rfl,?_⟩
  exact .cons ⟨rfl,rfl,rfl,rfl⟩ .nil

end SingleBranch

/-- On one document the reducers that accept pack the same bytes. -/
lemma reductions_agree {doc : Json} {g : Reducer.AggregateReduction} {c : Cli.AggregateReduction}
    (hg : Reducer.reduceValue doc = .ok g) (hc : Cli.reduceValue doc = .ok c) :
    Cli.aggregateCommittedOutputs c = some (Reducer.aggregateCommittedOutputs g) := by
  obtain ⟨a,hspell,hfits,rfl⟩ := guest_reduceValue.mp hg
  have hc' := cli_reduceValue.mpr ⟨a,hspell,rfl⟩
  obtain rfl := Except.ok.inj (hc.symm.trans hc')
  exact a.committedOutputs_agree hfits

variable (parse : Bytes → Option Json) (artifact : Bytes)

/-- The journal of an artifact the mirror accepts can always be hashed. -/
lemma cli_journalHash {parse : Bytes → Option Json} {artifact : Bytes} {c : Cli.AggregateJournal}
    (h : Cli.aggregateJournal parse artifact = .ok c) : ∃ hash, c.journalHash = some hash := by
  simp only [Cli.aggregateJournal,Cli.reduceAggregateArtifact,bind_eq_ok,require_eq_ok,
    pure_eq_ok] at h
  obtain ⟨reduction,⟨doc,-,hreduce⟩,rfl⟩ := h
  obtain ⟨a,-,rfl⟩ := cli_reduceValue.mp hreduce
  have hout : (⟨Cli.framedInputDigest artifact,a.cliReduction⟩ :
      Cli.AggregateJournal).committedOutputs = some _ := a.cli_packs
  exact ⟨_,by rw [Cli.AggregateJournal.journalHash,hout,Option.map_some]⟩

/-- Where both reducers accept, the committed bytes, their digest and the journal hash agree. -/
theorem journals_agree (hguest : Accepts (Reducer.reduceAggregateArtifact parse artifact))
    (hcli : Accepts (Cli.reduceAggregateArtifact parse artifact)) :
    ∃ g c, Reducer.aggregateJournal parse artifact = .ok g ∧
      Cli.aggregateJournal parse artifact = .ok c ∧
      c.committedOutputs = some g.committedOutputs ∧
      c.outputDigest = some g.outputDigest ∧ c.journalHash = some g.journalHash := by
  obtain ⟨rg,hg⟩ := hguest
  obtain ⟨rc,hc⟩ := hcli
  simp only [Reducer.aggregateJournal,Cli.aggregateJournal,hg,hc,bind_eq_ok]
  simp only [Reducer.reduceAggregateArtifact,Cli.reduceAggregateArtifact,bind_eq_ok,
    require_eq_ok] at hg hc
  obtain ⟨doc,hdoc,hg⟩ := hg
  obtain ⟨doc',hdoc',hc⟩ := hc
  obtain rfl := Option.some.inj (hdoc.symm.trans hdoc')
  have hout := reductions_agree hg hc
  refine ⟨_,_,⟨_,rfl,rfl⟩,⟨_,rfl,rfl⟩,hout,?_,?_⟩
  · simp only [Cli.AggregateJournal.outputDigest,Cli.AggregateJournal.committedOutputs,hout]
    rfl
  · simp only [Cli.AggregateJournal.journalHash,Cli.AggregateJournal.committedOutputs,hout]
    rfl

/-- Three branches, printed. -/
theorem journals_agree_panel : ∃ artifact : Bytes,
    Accepts (Reducer.reduceAggregateArtifact jsonOfBytes artifact) ∧
    Accepts (Cli.reduceAggregateArtifact jsonOfBytes artifact) ∧
    ∃ g c, Reducer.aggregateJournal jsonOfBytes artifact = .ok g ∧
      Cli.aggregateJournal jsonOfBytes artifact = .ok c ∧ g.reduction.branchCount = 3 ∧
      c.committedOutputs = some g.committedOutputs ∧
      c.outputDigest = some g.outputDigest ∧ c.journalHash = some g.journalHash := by
  obtain ⟨a,ha⟩ : ∃ a, a = weightedPanel 7 (by decide) := ⟨_,rfl⟩
  have hfits : a.Fits := ha ▸ weightedPanel_fits (by decide)
  have hg := a.guest_printed_eq bareArtifact bareRecord hfits
  have hc : Cli.reduceAggregateArtifact jsonOfBytes (a.printed bareArtifact bareRecord) =
      .ok a.cliReduction :=
    bind_eq_ok.mpr ⟨_,require_eq_ok.mpr (jsonOfBytes_render (a.document_plain _ _)),
      cli_reduceValue.mpr ⟨a,a.held_spells _ _ hfits,rfl⟩⟩
  obtain ⟨g,c,hjg,hjc,hagree⟩ := journals_agree jsonOfBytes _ ⟨_,hg⟩ ⟨_,hc⟩
  refine ⟨_,⟨_,hg⟩,⟨_,hc⟩,g,c,hjg,hjc,?_,hagree⟩
  rw [Reducer.aggregateJournal,hg,ok_bind,pure_eq_ok] at hjg
  subst hjg ha
  rfl

/-- A document every check but the integer widths accepts. -/
def WellFormed (doc : Json) : Prop := ∃ a : Artifact, a.Spells doc

/-- The two parameters are below `2^32` and the weights below `2^64`. -/
def IntegersFit (doc : Json) : Prop :=
  (∀ parameters, doc.get "combiner_parameters" = some parameters →
    ∀ field ∈ ["trim_bps","category_dictionary_size"], ∀ n : ℤ,
      parameters.get field = some (.int n) → n < 2^32) ∧
  ∀ branches, doc.get "branches" = some (.arr branches) →
    ∀ branch ∈ branches, ∀ n : ℤ, branch.get "weight" = some (.int n) → n < 2^64

lemma spellsOptional_lt {v : Json} {field : String} {n : ℕ} (h : SpellsOptional v field n)
    (b : ℤ) (hb : 0 < b) (hlt : ∀ m : ℤ, v.get field = some (.int m) → m < b) : (n : ℤ) < b := by
  cases h with
  | inl h => simpa [h.2] using hb
  | inr h => exact hlt n h

/-- The widths of the spelled artifact are the widths of the document. -/
lemma fits_iff {a : Artifact} {doc : Json} (h : a.Spells doc) : a.Fits ↔ IntegersFit doc := by
  obtain ⟨-,-,-,-,⟨p,hp,-,ht,hd⟩,bs,hbs,hspell⟩ := h
  have hkey : ∀ (field : String) (n : ℕ), SpellsOptional p field n → n < 2^32 →
      ∀ m : ℤ, p.get field = some (.int m) → m < 2^32 := by
    intro field n hspell hn m hm
    cases hspell with
    | inl h =>
      cases h.1 with
      | inl h => simp [h] at hm
      | inr h => simp [h] at hm
    | inr h =>
      rw [h] at hm
      obtain rfl : (n : ℤ) = m := by simpa using hm
      exact_mod_cast hn
  constructor
  · rintro ⟨htf,hdf,hw⟩
    refine ⟨?_,?_⟩
    · intro p' hp' field hfield m hm
      obtain rfl := Option.some.inj (hp.symm.trans hp')
      simp only [List.mem_cons,List.not_mem_nil,or_false] at hfield
      cases hfield with
      | inl h => exact hkey _ _ ht htf m (h ▸ hm)
      | inr h => exact hkey _ _ hd hdf m (h ▸ hm)
    · intro bs' hbs' b hb n hn
      obtain rfl : bs = bs' := by simpa using hbs.symm.trans hbs'
      obtain ⟨i,hi,rfl⟩ := List.getElem_of_mem hb
      have hl := hspell.length_eq
      have hs := (List.forall₂_iff_get.mp hspell).2 i (by omega) hi
      obtain ⟨-,-,-,hweight⟩ := hs
      rw [List.get_eq_getElem] at hweight
      obtain rfl : ((a.entries.get ⟨i,by omega⟩).weight : ℤ) = n := by
        simpa using hweight.symm.trans hn
      exact_mod_cast hw _ (List.get_mem _ _)
  · rintro ⟨hpar,hw⟩
    refine ⟨?_,?_,?_⟩
    · have := spellsOptional_lt ht (2^32) (by decide) (hpar p hp _ (by simp))
      exact_mod_cast this
    · have := spellsOptional_lt hd (2^32) (by decide) (hpar p hp _ (by simp))
      exact_mod_cast this
    · intro e he
      obtain ⟨i,hi,rfl⟩ := List.getElem_of_mem he
      have hl := hspell.length_eq
      obtain ⟨-,-,-,hweight⟩ := (List.forall₂_iff_get.mp hspell).2 i hi (by omega)
      have := hw bs hbs _ (List.get_mem bs ⟨i,by omega⟩) _ hweight
      rw [List.get_eq_getElem] at this
      exact_mod_cast this

lemma guest_accepts_iff (doc : Json) :
    Accepts (Reducer.reduceValue doc) ↔ WellFormed doc ∧ IntegersFit doc := by
  constructor
  · rintro ⟨r,hr⟩
    obtain ⟨a,hspell,hfits,-⟩ := guest_reduceValue.mp hr
    exact ⟨⟨a,hspell⟩,(fits_iff hspell).mp hfits⟩
  · rintro ⟨⟨a,hspell⟩,hfit⟩
    exact ⟨_,guest_reduceValue.mpr ⟨a,hspell,(fits_iff hspell).mpr hfit,rfl⟩⟩

lemma cli_accepts_iff (doc : Json) : Accepts (Cli.reduceValue doc) ↔ WellFormed doc := by
  constructor
  · rintro ⟨r,hr⟩
    obtain ⟨a,hspell,-⟩ := cli_reduceValue.mp hr
    exact ⟨a,hspell⟩
  · rintro ⟨a,hspell⟩
    exact ⟨_,cli_reduceValue.mpr ⟨a,hspell,rfl⟩⟩

/-- The reducers accept the same document exactly when no integer of an otherwise well-formed
artifact is too wide for the guest. -/
theorem acceptance_agrees_iff :
    (Accepts (Cli.reduceAggregateArtifact parse artifact) ↔
      Accepts (Reducer.reduceAggregateArtifact parse artifact)) ↔
      ∀ doc, parse artifact = some doc → WellFormed doc → IntegersFit doc := by
  cases hdoc : parse artifact with
  | none => simp [Cli.reduceAggregateArtifact,Reducer.reduceAggregateArtifact,hdoc,require,Accepts]
  | some doc =>
    have hc : Cli.reduceAggregateArtifact parse artifact = Cli.reduceValue doc := by
      rw [Cli.reduceAggregateArtifact,hdoc]
      rfl
    have hg : Reducer.reduceAggregateArtifact parse artifact = Reducer.reduceValue doc := by
      rw [Reducer.reduceAggregateArtifact,hdoc]
      rfl
    rw [hc,hg,cli_accepts_iff,guest_accepts_iff]
    simp only [Option.some.injEq,forall_eq']
    tauto

/-- Three branches of weight `2^64`, printed: the mirror accepts the text and the guest refuses it,
whichever of the two readers it is handed to. -/
theorem overweight_branch_divides : ∃ artifact : Bytes,
    Accepts (Cli.reduceAggregateArtifact Cli.loadsBytes artifact) ∧
    ¬Accepts (Reducer.reduceAggregateArtifact jsonOfBytes artifact) ∧
    ¬(Accepts (Cli.reduceAggregateArtifact Cli.loadsBytes artifact) ↔
      Accepts (Reducer.reduceAggregateArtifact Cli.loadsBytes artifact)) := by
  obtain ⟨a,ha⟩ : ∃ a, a = weightedPanel (2^64) (by decide) := ⟨_,rfl⟩
  have hwide : ¬a.Fits := by
    subst ha
    exact fun h => absurd (h.2.2 _ (.head _)) (lt_irrefl (2^64))
  have hspell := a.document_spells bareArtifact bareRecord
  refine ⟨a.printed bareArtifact bareRecord,⟨_,a.cli_printed _ _⟩,
    fun hg => hwide ((a.guest_printed _ _).mp hg),?_⟩
  rw [acceptance_agrees_iff]
  exact fun h => hwide ((fits_iff hspell).mpr (h _ (a.loads_printed _ _) ⟨a,hspell⟩))

end Kswarm.Mirror
