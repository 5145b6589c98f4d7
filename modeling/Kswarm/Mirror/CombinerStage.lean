import Kswarm.Mirror.Agreement

/-! The combiner stage behind the branch loop: for every list of branches the loop lets through it
returns a value, inside the range the branches span, unless a trim asks for all of them. -/
namespace Kswarm.Mirror

section Between

lemma le_halfUp {n d b : ℕ} (hd : 0 < d) (h : b*d ≤ n) : b ≤ halfUp n d := by
  rw [halfUp,Nat.le_div_iff_mul_le (by omega)]
  nlinarith

lemma weightedSum_ge {ps : List (ℕ × ℕ)} {b : ℕ} (h : ∀ p ∈ ps, b ≤ p.1) :
    b*totalWeight ps ≤ weightedSum ps := by
  induction ps with
  | nil => simp [totalWeight,weightedSum]
  | cons p ps ih =>
    have hp := h p (by simp)
    have := ih (fun q hq => h q (by simp [hq]))
    rw [weightedSum_cons,totalWeight_cons]
    nlinarith

/-- Rounding never pushes a mean past the least or the greatest value. -/
lemma weightedMean_between {ps : List (ℕ × ℕ)} (hpos : 0 < totalWeight ps) :
    (∃ p ∈ ps, p.1 ≤ weightedMean ps) ∧ ∃ p ∈ ps, weightedMean ps ≤ p.1 := by
  constructor
  · by_contra hnone
    push Not at hnone
    have := le_halfUp hpos (weightedSum_ge (b := weightedMean ps + 1) hnone)
    exact absurd this (by rw [weightedMean]; omega)
  · by_contra hnone
    push Not at hnone
    have hbelow : ∀ p ∈ ps, p.1 ≤ weightedMean ps - 1 := by
      intro p hp
      have := hnone p hp
      omega
    have hle := halfUp_le hpos (weightedSum_le hbelow)
    have hne : ps ≠ [] := by
      rintro rfl
      simp [totalWeight] at hpos
    obtain ⟨p,rest,rfl⟩ := List.exists_cons_of_ne_nil hne
    have := hnone p (by simp)
    change weightedMean _ ≤ _ at hle
    omega

/-- A trimmed mean is the mean of what it keeps, all weights one. -/
lemma trimmedMean_eq (values : List ℕ) (k : ℕ) :
    trimmedMean values k =
      weightedMean (((retained (values.map Nat.cast) k).map Int.toNat).map (fun v => (v,1))) := by
  simp [trimmedMean,weightedMean,weightedSum,totalWeight,Function.comp_def]

lemma trimmedMean_between {values : List ℕ} {k : ℕ} (hk : k < values.length) :
    (∃ v ∈ values, v ≤ trimmedMean values k) ∧ ∃ v ∈ values, trimmedMean values k ≤ v := by
  have hne : retained (values.map Nat.cast) k ≠ [] := retained_ne_nil (by simpa using hk)
  have hpos : 0 < totalWeight
      (((retained (values.map Nat.cast) k).map Int.toNat).map (fun v => (v,1))) := by
    have := List.length_pos_iff.mpr hne
    simpa [totalWeight,Function.comp_def] using this
  have hmem : ∀ p ∈ ((retained (values.map Nat.cast) k).map Int.toNat).map (fun v => (v,1)),
      p.1 ∈ values := by
    intro p hp
    obtain ⟨v,hv,rfl⟩ := List.mem_map.mp hp
    obtain ⟨x,hx,rfl⟩ := List.mem_map.mp hv
    obtain ⟨w,hw,rfl⟩ := List.mem_map.mp (retained_subset _ _ hx)
    simpa using hw
  obtain ⟨⟨p,hp,hlow⟩,⟨q,hq,hhigh⟩⟩ := weightedMean_between hpos
  rw [trimmedMean_eq]
  exact ⟨⟨p.1,hmem p hp,hlow⟩,⟨q.1,hmem q hq,hhigh⟩⟩

end Between

/-- The result lies among the branches: between two of their values, or at one of their labels. -/
structure Spans (combinerId : ℕ) (params : Reducer.CombinerParams) (st : Reducer.LoopState)
    (r : ℕ) : Prop where
  weighted : combinerId = Reducer.combinerWeightedMean →
    (∃ v ∈ st.scalars, v.value ≤ r) ∧ ∃ v ∈ st.scalars, (r : ℤ) ≤ v.value
  trimmed : combinerId = Reducer.combinerTrimmedMean →
    (∃ v ∈ st.scalarValues, v ≤ r) ∧ ∃ v ∈ st.scalarValues, (r : ℤ) ≤ v
  vote : combinerId = Reducer.combinerMajorityVote →
    (∃ v ∈ st.votes, v.category = r) ∧ r < params.categoryDictionarySize

namespace Artifact
variable (a : Artifact)

/-- What the guest's loop leaves for the combiner. -/
def loopState : Reducer.LoopState := a.entries.foldl (guestNext a.combinerId) .start

lemma answer_spans : Spans a.combinerId ⟨a.trimBps,a.dictionarySize⟩ a.loopState a.answer := by
  obtain ⟨-,hscal,hvote⟩ := guestFold a.combinerId a.entries .start
  refine ⟨?_,?_,?_⟩
  · intro h1
    have h1' : a.combinerId = 1 := h1
    obtain ⟨⟨p,hp,hlow⟩,⟨q,hq,hhigh⟩⟩ := weightedMean_between a.totalWeight_weighted
    obtain ⟨e,he,rfl⟩ := List.mem_map.mp hp
    obtain ⟨f,hf,rfl⟩ := List.mem_map.mp hq
    rw [loopState,(hscal (by omega)).1,answer,if_pos h1']
    exact ⟨⟨⟨e.scalar,e.weight⟩,List.mem_append_right _ (List.mem_map_of_mem he),
      Int.ofNat_le.mpr hlow⟩,⟨⟨f.scalar,f.weight⟩,List.mem_append_right _ (List.mem_map_of_mem hf),
      Int.ofNat_le.mpr hhigh⟩⟩
  · intro h2
    have h2' : a.combinerId = 2 := h2
    have hk : a.outlierCount < (a.entries.map Entry.scalar).length := by
      simpa using a.outlierCount_lt h2'
    obtain ⟨⟨v,hv,hlow⟩,⟨w,hw,hhigh⟩⟩ := trimmedMean_between hk
    obtain ⟨e,he,rfl⟩ := List.mem_map.mp hv
    obtain ⟨f,hf,rfl⟩ := List.mem_map.mp hw
    rw [loopState,(hscal (by omega)).2,answer,if_neg (by omega),if_pos h2']
    exact ⟨⟨e.scalar,List.mem_append_right _ (List.mem_map_of_mem he),by exact_mod_cast hlow⟩,
      ⟨f.scalar,List.mem_append_right _ (List.mem_map_of_mem hf),by exact_mod_cast hhigh⟩⟩
  · intro h3
    have h3' : a.combinerId = 3 := h3
    have hne : a.votes ≠ [] := by simpa [votes] using a.nonempty
    obtain ⟨c,hc,v,hv,rfl⟩ := winner_exists hne a.votes_pos
    obtain ⟨e,he,rfl⟩ := List.mem_map.mp hv
    have hanswer : a.answer = e.label := by simp [answer,h3',hc]
    have hsuits := (a.suits e he).2
    rw [if_pos h3'] at hsuits
    obtain ⟨l,hl,hlt⟩ := hsuits
    rw [loopState,hvote h3',hanswer]
    refine ⟨⟨⟨e.label,e.weight⟩,List.mem_append_right _ (List.mem_map_of_mem he),rfl⟩,?_⟩
    simpa [Entry.label,hl] using hlt

end Artifact

/-- Behind the branch loop the guest refuses nothing but a trim of everything, no 128-bit operation
overflows, and the result lies among the branches. -/
theorem combiner_stage_total {combinerId : ℕ} {params : Reducer.CombinerParams}
    {branches : List Json} {st : Reducer.LoopState}
    (hid : Reducer.validateCombinerId combinerId = .ok ()) (hne : branches ≠ [])
    (hlen : branches.length ≤ Reducer.maxBranches)
    (hloop : branches.zipIdx.foldlM (Reducer.branchStep combinerId params) .start = .ok st) :
    (∀ e, Reducer.reduceBranches combinerId params branches = .error e →
      combinerId = Reducer.combinerTrimmedMean ∧ 10000 ≤ params.trimBps) ∧
    Reducer.combineWatched combinerId params st =
      returned (Reducer.combine combinerId params st) ∧
    ∀ r, Reducer.combine combinerId params st = .ok r → Spans combinerId params st r := by
  have hknown : combinerId = 1 ∨ combinerId = 2 ∨ combinerId = 3 := by
    rw [Reducer.validateCombinerId,failIf_eq_ok] at hid
    simp only [Reducer.combinerWeightedMean,Reducer.combinerTrimmedMean,
      Reducer.combinerMajorityVote] at hid
    omega
  obtain ⟨es,⟨hes,hspell⟩,hrise,rfl⟩ := (guest_loop _ _ _ _).mp hloop
  by_cases htrim : combinerId = 2 ∧ 10000 ≤ params.trimBps
  · obtain ⟨rfl,hbps⟩ := htrim
    have hrefused : Reducer.combine 2 params (es.foldl (guestNext 2) .start) =
        .error .valueOutOfRange := by
      change (Reducer.trimCountFromBps _ _ >>= _) = _
      rw [Reducer.trimCountFromBps,failIf,if_pos hbps]
      rfl
    refine ⟨fun _ _ => ⟨rfl,hbps⟩,?_,fun r hr => ?_⟩
    · rw [hrefused]
      change (Reducer.trimCountFromBpsWatched _ _ >>= _) = _
      rw [Reducer.trimCountFromBpsWatched,failIf,if_pos hbps]
      rfl
    · rw [hrefused] at hr
      cases hr
  · have htrims : combinerId = 2 → params.trimBps < 10000 := fun h => by omega
    obtain ⟨a,rfl,h2,h3,rfl⟩ := exists_artifact hknown hne hlen hspell hrise
      (fun e he => (hes e he).1) htrims
    obtain rfl : params = ⟨a.trimBps,a.dictionarySize⟩ := by rw [h2,h3]
    have hwatched := a.guest_combineWatched (fun e he => (hes e he).2)
    have hcombine := (Reducer.combine_watched _ _ _).eq_ok hwatched
    refine ⟨?_,?_,?_⟩
    · intro e he
      have hok : Accepts
          (Reducer.reduceBranches a.combinerId ⟨a.trimBps,a.dictionarySize⟩ branches) := by
        refine .guard hne (.guard (not_lt.mpr hlen) (.bind hloop ?_))
        refine .bind (by rw [hcombine]; rfl) ?_
        have hroot := a.guest_root
        rw [← a.guest_hashes] at hroot
        refine .bind (by rw [hroot]; rfl) ⟨_,rfl⟩
      obtain ⟨r,hr⟩ := hok
      rw [hr] at he
      cases he
    · rw [hwatched,hcombine]
      rfl
    · intro r hr
      obtain rfl := Except.ok.inj (hcombine.symm.trans hr)
      exact a.answer_spans

/-- Three branches of the greatest weight there is still reduce. -/
theorem combiner_stage_total_heaviest : ∃ branches : List Json, branches.length = 3 ∧
    Accepts (Reducer.reduceBranches 1 ⟨0,0⟩ branches) ∧
      ∃ st, branches.zipIdx.foldlM (Reducer.branchStep 1 ⟨0,0⟩) .start = .ok st ∧
        Reducer.combineWatched 1 ⟨0,0⟩ st = returned (Reducer.combine 1 ⟨0,0⟩ st) ∧
        ∀ r, Reducer.combine 1 ⟨0,0⟩ st = .ok r → Spans 1 ⟨0,0⟩ st r := by
  obtain ⟨a,ha⟩ : ∃ a, a = weightedPanel (2^64-1) (by decide) := ⟨_,rfl⟩
  have hfits : a.Fits := ha ▸ weightedPanel_fits (by decide)
  have hspell : List.Forall₂ Entry.Spells a.entries
      (a.entries.map (fun e => e.record (bareRecord e))) := by
    rw [List.forall₂_map_right_iff]
    exact List.forall₂_same.mpr (fun e _ => e.record_spells _)
  obtain ⟨hid,htrim,hsize,hlen⟩ : a.combinerId = 1 ∧ a.trimBps = 0 ∧ a.dictionarySize = 0 ∧
      a.entries.length = 3 := by
    subst ha
    exact ⟨rfl,rfl,rfl,rfl⟩
  have hsuits : ∀ e ∈ a.entries, e.Suits 1 0 ∧ e.weight < 2^64 := by
    intro e he
    have hs := a.suits e he
    rw [hid,hsize] at hs
    exact ⟨hs,hfits.2.2 e he⟩
  have hloop := (guest_loop 1 ⟨0,0⟩ _ _).mpr ⟨a.entries,⟨hsuits,hspell⟩,a.rising,rfl⟩
  obtain ⟨hne,hbound⟩ := branches_bounds hspell
  obtain ⟨hfails,hwatched,hspans⟩ := combiner_stage_total (by rfl) hne hbound hloop
  refine ⟨_,(List.length_map _).trans hlen,?_,_,hloop,hwatched,hspans⟩
  cases hreduce : Reducer.reduceBranches 1 ⟨0,0⟩ (a.entries.map (fun e => e.record (bareRecord e)))
    with
  | ok r => exact ⟨r,rfl⟩
  | error e => exact absurd (hfails e hreduce).1 (by decide)

end Kswarm.Mirror
