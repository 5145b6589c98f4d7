import Kswarm.Protocol.Receipt
import Kswarm.Worker.Executor

/-! What an accepted model response is known to satisfy: the values are in range for its kind, so
the output it stands for passes validation. -/
namespace Kswarm.Worker
open Protocol Protocol.OutputFields

/-- The values of an answer are in range. -/
def ParsedScalar.Checked (p : ParsedScalar) : Prop :=
  p.scalarValueBps ≤ 10000 ∧ (∀ l ∈ p.confidenceLowerBps, l ≤ 10000) ∧
    (∀ u ∈ p.confidenceUpperBps, u ≤ 10000) ∧
    ∀ l ∈ p.confidenceLowerBps, ∀ u ∈ p.confidenceUpperBps, l ≤ u

/-- The keys of the three guardrails. -/
def guardrailKeys : List String := ["severity_bps","quality_bps","ood_bps"]

def ParsedNarrative.Checked (p : ParsedNarrative) : Prop :=
  p.scalarValueBps ≤ 10000 ∧ p.narrativeText.isEmpty = false ∧
    p.narrativeScores.map Prod.fst = guardrailKeys ∧ ∀ q ∈ p.narrativeScores, q.2 ≤ 10000

/-- An answer of the input's kind, in range, with a label the input lists. -/
def ParsedResponse.Checked (branchInput : BranchInput) : ParsedResponse → Prop
  | .scalar p => branchInput.targetOutputKind = .scalar ∧ p.Checked
  | .categorical l => branchInput.targetOutputKind = .categorical ∧ l ≤ 255 ∧
    ∀ n, labelCount branchInput.parameters = some n → 0 < n → l < n
  | .narrative p => branchInput.targetOutputKind = .narrativeWithScalar ∧ p.Checked

section Parsing

lemma snap_le {mag : ℚ≥0} (h : mag ≤ 1) : snap mag ≤ 10000 := by
  have hq : (mag : ℚ) ≤ 1 := by exact_mod_cast h
  have hone := Binary64.decimalOf_le_one (NNRat.cast_nonneg mag) hq
  rw [snap]
  simp only [bpsScale]
  apply Nat.le_of_lt_succ
  rw [Nat.floor_lt']
  · push_cast
    linarith
  · omega

lemma parseBpsInteger_le {value : Json} {field : String} {n : ℕ}
    (h : parseBpsInteger value field = .ok n) : n ≤ 10000 := by
  unfold parseBpsInteger at h
  split at h
  · simp only [bind_eq_ok,failIf_eq_ok,pure_eq_ok] at h
    obtain ⟨-,hrange,rfl⟩ := h
    rw [bpsScale] at hrange
    omega
  · cases h

lemma parseCategoricalResponse_checked {response : Json} {count l : ℕ}
    (h : parseCategoricalResponse response count = .ok l) :
    l ≤ 255 ∧ (0 < count → l < count) := by
  simp only [parseCategoricalResponse,bind_eq_ok] at h
  obtain ⟨_,-,h⟩ := h
  unfold parseLabelIndex at h
  split at h
  · simp only [bind_eq_ok,failIf_eq_ok,pure_eq_ok] at h
    obtain ⟨-,hbyte,-,hlabels,rfl⟩ := h
    rw [maxLabelIndex] at hbyte
    omega
  · cases h

variable [CharData]

theorem parseProbabilityBps_le {value : Json} {field : String} {n : ℕ}
    (h : parseProbabilityBps value field = .ok n) : n ≤ 10000 := by
  simp only [parseProbabilityBps,bind_eq_ok,failIf_eq_ok,pure_eq_ok] at h
  obtain ⟨⟨neg,mag⟩,-,-,hunit,rfl⟩ := h
  apply snap_le
  by_contra hgt
  have hlt : 1 < mag := not_le.mp hgt
  apply hunit
  cases neg with
  | true => exact .inl ⟨rfl,ne_of_gt (lt_trans zero_lt_one hlt)⟩
  | false => exact .inr ⟨rfl,hlt⟩

lemma parseBound_le {response : Json} {field : String} {o : Option ℕ}
    (h : parseBound response field = .ok o) : ∀ n ∈ o, n ≤ 10000 := by
  intro n hn
  unfold parseBound at h
  split at h
  · obtain rfl := pure_eq_ok.mp h
    cases hn
  · obtain rfl := pure_eq_ok.mp h
    cases hn
  · obtain ⟨m,hm,rfl⟩ := map_eq_ok.mp h
    obtain rfl := Option.mem_some_iff.mp hn
    exact parseProbabilityBps_le hm

lemma nonEmptyText_ne {value : Json} {field s : String} (h : nonEmptyText value field = .ok s) :
    s.isEmpty = false := by
  unfold nonEmptyText at h
  split at h
  · rename_i t
    simp only [bind_eq_ok,failIf_eq_ok,pure_eq_ok] at h
    obtain ⟨-,hne,rfl⟩ := h
    by_contra he
    apply hne
    have hempty : t = "" := by simpa using he
    subst hempty
    rfl
  · cases h

lemma parseScalarResponse_checked {response : Json} {p : ParsedScalar}
    (h : parseScalarResponse response = .ok p) : p.Checked := by
  simp only [parseScalarResponse,bind_eq_ok,failIf_eq_ok,pure_eq_ok] at h
  obtain ⟨_,-,v,hv,lower,hl,upper,hu,-,horder,_,-,rfl⟩ := h
  refine ⟨parseProbabilityBps_le hv,parseBound_le hl,parseBound_le hu,?_⟩
  intro l hl u hu
  by_contra hlt
  apply horder
  simp only [Option.mem_def] at hl hu
  simp [hl,hu,not_le.mp hlt]

lemma parseGuardrail_ok {container : Json} {name : String} {q : String × ℕ}
    (h : parseGuardrail container name = .ok q) : q.1 = name ++ "_bps" ∧ q.2 ≤ 10000 := by
  simp only [parseGuardrail] at h
  split at h
  · cases h
  · obtain ⟨n,hn,rfl⟩ := map_eq_ok.mp h
    exact ⟨rfl,parseProbabilityBps_le hn⟩
  · obtain ⟨n,hn,rfl⟩ := map_eq_ok.mp h
    exact ⟨rfl,parseBpsInteger_le hn⟩
  · cases h

lemma parseGuardrailScores_ok {response : Json} {scores : List (String × ℕ)}
    (h : parseGuardrailScores response = .ok scores) :
    scores.map Prod.fst = guardrailKeys ∧ ∀ q ∈ scores, q.2 ≤ 10000 := by
  simp only [parseGuardrailScores,guardrailNames,List.mapM_cons,List.mapM_nil,bind_eq_ok,
    pure_eq_ok] at h
  obtain ⟨c,-,s,hs,_,⟨q,hq,_,⟨o,ho,_,rfl,rfl⟩,rfl⟩,rfl⟩ := h
  have h1 := parseGuardrail_ok hs
  have h2 := parseGuardrail_ok hq
  have h3 := parseGuardrail_ok ho
  constructor
  · simp only [List.map_cons,List.map_nil,h1.1,h2.1,h3.1]
    decide
  · simp [h1.2,h2.2,h3.2]

lemma parseNarrativeResponse_checked {response : Json} {p : ParsedNarrative}
    (h : parseNarrativeResponse response = .ok p) : p.Checked := by
  simp only [parseNarrativeResponse,bind_eq_ok,pure_eq_ok] at h
  obtain ⟨_,-,v,hv,_,-,t,ht,s,hs,rfl⟩ := h
  obtain ⟨hkeys,hle⟩ := parseGuardrailScores_ok hs
  exact ⟨parseProbabilityBps_le hv,nonEmptyText_ne ht,hkeys,hle⟩

/-- Every accepted response is in range for the input. -/
theorem parseModelResponse_checked {branchInput : BranchInput} {response : Json}
    {p : ParsedResponse} (h : parseModelResponse branchInput response = .ok p) :
    p.Checked branchInput := by
  simp only [parseModelResponse,bind_eq_ok] at h
  obtain ⟨-,-,h⟩ := h
  cases hk : branchInput.targetOutputKind with
  | scalar =>
    rw [hk] at h
    obtain ⟨q,hq,rfl⟩ := map_eq_ok.mp h
    exact ⟨hk,parseScalarResponse_checked hq⟩
  | categorical =>
    rw [hk] at h
    simp only [bind_eq_ok,require_eq_ok,map_eq_ok] at h
    obtain ⟨n,hn,l,hl,rfl⟩ := h
    obtain ⟨hbyte,hlabel⟩ := parseCategoricalResponse_checked hl
    refine ⟨hk,hbyte,?_⟩
    intro m hm hpos
    obtain rfl := Option.some.inj (hn.symm.trans hm)
    exact hlabel hpos
  | narrativeWithScalar =>
    rw [hk] at h
    obtain ⟨q,hq,rfl⟩ := map_eq_ok.mp h
    exact ⟨hk,parseNarrativeResponse_checked hq⟩

end Parsing

section Output
variable [CharData]

lemma isalnum_ascii {cs : List Char} (hne : cs ≠ [])
    (h : ∀ c ∈ cs, c.toNat < 128 ∧ (isDigit c || asciiLetter c) = true) : isalnum cs = true := by
  have hempty : cs.isEmpty = false := by simpa using hne
  rw [isalnum,hempty,Bool.not_false,Bool.true_and,List.all_eq_true]
  intro c hc
  rw [CharData.isAlnum_ascii c (h c hc).1]
  exact (h c hc).2

/-- The guardrail keys are well-formed score keys whatever the character tables. -/
lemma validKey_guardrail {key : String} (h : key ∈ guardrailKeys) :
    OutputFields.validKey key = true := by
  have hall : guardrailKeys.all (fun k => !k.isEmpty && !(k.toList.filter (· ≠ '_')).isEmpty &&
      (k.toList.filter (· ≠ '_')).all (fun c =>
        decide (c.toNat < 128) && (isDigit c || asciiLetter c))) = true := by
    decide +kernel
  have hkey := List.all_eq_true.mp hall key h
  simp only [Bool.and_eq_true,Bool.not_eq_true',List.all_eq_true,decide_eq_true_eq] at hkey
  obtain ⟨⟨hne,hfilter⟩,hchars⟩ := hkey
  rw [OutputFields.validKey,hne,isalnum_ascii (by simpa using hfilter) hchars]
  rfl

/-- The output of an accepted answer validates. -/
theorem answerFields_valid (h : Host) {branchInput : BranchInput} (versionHash : String)
    (verifierReference : Option BranchOutput) {p : ParsedResponse} (hp : p.Checked branchInput) :
    (answerFields h branchInput versionHash verifierReference p).Valid := by
  cases p with
  | scalar p =>
    obtain ⟨-,hv,hl,hu,horder⟩ := hp
    refine ⟨?_,rfl,?_,rfl,by simp [OutputFields.keysDistinct,answerFields,commonFields]⟩
    · simp only [OutputFields.ranges,answerFields,commonFields,Bool.and_eq_true,inRange_iff]
      exact ⟨⟨⟨by simpa using hv,hl⟩,hu⟩,by simp⟩
    · simp only [OutputFields.boundsOrdered,answerFields]
      split
      · rename_i lower upper hlower hupper
        exact decide_eq_true (horder lower hlower upper hupper)
      · rfl
  | categorical l =>
    obtain ⟨-,hl,-⟩ := hp
    refine ⟨?_,rfl,rfl,rfl,by simp [OutputFields.keysDistinct,answerFields,commonFields]⟩
    simp only [OutputFields.ranges,answerFields,commonFields,Bool.and_eq_true,inRange_iff]
    exact ⟨⟨⟨by simp,by simp⟩,by simp⟩,by simpa using hl⟩
  | narrative p =>
    obtain ⟨-,hv,htext,hkeys,hle⟩ := hp
    refine ⟨?_,?_,rfl,?_,?_⟩
    · simp only [OutputFields.ranges,answerFields,commonFields,Bool.and_eq_true,inRange_iff]
      exact ⟨⟨⟨by simpa using hv,by simp⟩,by simp⟩,by simp⟩
    · have hscores : p.narrativeScores.isEmpty = false := by
        cases hs : p.narrativeScores with
        | nil => simp [hs,guardrailKeys] at hkeys
        | cons q qs => rfl
      simp [OutputFields.kindShape,answerFields,commonFields,htext,hscores]
    · simp only [OutputFields.scoresValid,answerFields,Option.all_some,List.all_eq_true,
        Bool.and_eq_true,decide_eq_true_eq]
      intro q hq
      refine ⟨validKey_guardrail ?_,hle q hq⟩
      rw [← hkeys]
      exact List.mem_map_of_mem hq
    · intro s hs
      obtain rfl := Option.some.inj hs
      rw [hkeys]
      decide

/-- An answer the loop returns was accepted. -/
theorem askModelFrom_parsed {h : Host} {branchInput : BranchInput} {messages : Json} {seed : ℕ}
    {extra : Json} (n attempt : ℕ) (rejected : List RejectedAttempt) {a : ModelAnswer}
    (ha : askModelFrom h branchInput messages seed extra n attempt rejected = .ok a) :
    parseModelResponse branchInput a.result.payload = .ok a.parsed := by
  induction n generalizing attempt rejected with
  | zero => cases ha
  | succ n ih =>
    unfold askModelFrom at ha
    split at ha
    · exact ih _ _ ha
    · cases ha
    · cases ha
    · split at ha
      · rename_i hparsed
        obtain rfl := Except.ok.inj ha
        exact hparsed
      · exact ih _ _ ha
      · cases ha

theorem acquire_checked {h : Host} {branchInput : BranchInput} {trace extra : Json}
    {a : ModelAnswer} (ha : acquire h branchInput = .ok (trace,extra,a)) :
    a.parsed.Checked branchInput := by
  simp only [acquire,bind_eq_ok,pure_eq_ok,Prod.mk.injEq] at ha
  obtain ⟨_,-,_,-,b,hb,-,-,rfl⟩ := ha
  exact parseModelResponse_checked (askModelFrom_parsed _ _ _ hb)

end Output

end Kswarm.Worker
