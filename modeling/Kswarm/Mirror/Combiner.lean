import Kswarm.Reducer.CheckedCombiner
import Kswarm.Cli.Aggregate
import Mathlib.Tactic.GCongr
import Mathlib.Algebra.Order.BigOperators.Group.List
import Mathlib.Algebra.BigOperators.Ring.Finset

/-! The three combiners over the inputs an accepted artifact can give them: at most 128 values in
basis points with positive weights. Neither implementation fails on them, no 128-bit operation
wraps, and both return the value stated here over the natural numbers. -/
namespace Kswarm.Mirror

/-- The nearest integer to `n/d`, ties up. -/
def halfUp (n d : ℕ) : ℕ := (2*n + d) / (2*d)

lemma halfUp_le {n d b : ℕ} (hd : 0 < d) (h : n ≤ b*d) : halfUp n d ≤ b := by
  unfold halfUp
  have : 2*n + d < (b+1)*(2*d) := by nlinarith
  exact Nat.lt_succ_iff.mp (Nat.div_lt_of_lt_mul (by linarith [Nat.mul_comm (b+1) (2*d)]))

lemma inI128_eq {n : ℤ} (h0 : 0 ≤ n) (h : n < 2^127) : Reducer.inI128 n = .ok n := by
  rw [Reducer.inI128,Reducer.checkedI128,if_pos (by omega)]
  rfl

lemma inU128_eq {n : ℕ} (h : n < 2^128) : Reducer.inU128 n = .ok n := by
  rw [Reducer.inU128,Reducer.checkedU128,if_pos h]
  rfl

lemma reducer_checkBps {v : ℕ} (h : v ≤ 10000) : Reducer.checkBps v = .ok () := by
  rw [Reducer.checkBps,failIf_eq_ok,Reducer.bpsScale]
  omega

lemma cli_checkBps {v : ℕ} (h : v ≤ 10000) : Cli.checkBps v = .ok () := by
  rw [Cli.checkBps,failIf_eq_ok,Cli.bpsScale]
  omega

/-- Rounding a quotient of bounded naturals, in the guest. -/
lemma guest_roundHalfUp {n d : ℕ} (hd : 0 < d) (h : n ≤ 10000*d) (hn : 2*n + d < 2^127)
    (hs : 2*d < 2^127) : Reducer.roundHalfUpWatched n d = .ok (halfUp n d) := by
  have hle := halfUp_le hd h
  have hq : Int.tdiv ((n : ℤ)*2 + d) ((d : ℤ)*2) = (halfUp n d : ℤ) := by
    rw [Int.tdiv_eq_ediv_of_nonneg (by omega),halfUp]
    push_cast
    rw [mul_comm (n : ℤ),mul_comm (d : ℤ)]
  simp only [Reducer.roundHalfUpWatched,bind_eq_ok,failIf_eq_ok,pure_eq_ok,exists_and_left,
    exists_const]
  refine ⟨by omega,by omega,_,inI128_eq (by omega) (by omega),_,inI128_eq (by omega) (by omega),_,
    inI128_eq (by omega) (by omega),?_,?_⟩
  · rw [hq,Reducer.bpsScale]
    omega
  · rw [hq]
    simp

/-- The same in the mirror, without a bound. -/
lemma cli_roundHalfUp {n d : ℕ} (hd : 0 < d) (h : n ≤ 10000*d) :
    Cli.roundHalfUp n d = .ok (halfUp n d : ℤ) := by
  have hle := halfUp_le hd h
  simp only [Cli.roundHalfUp,bind_eq_ok,failIf_eq_ok,pure_eq_ok,exists_and_left,exists_const]
  have hq : Int.fdiv ((n : ℤ)*2 + d) ((d : ℤ)*2) = (halfUp n d : ℤ) := by
    rw [Int.fdiv_eq_ediv_of_nonneg _ (by omega),halfUp]
    push_cast
    rw [mul_comm (n : ℤ),mul_comm (d : ℤ)]
  rw [hq]
  refine ⟨by omega,by omega,?_,rfl⟩
  simp only [Cli.bpsScale]
  omega

section WeightedMean

def totalWeight (ps : List (ℕ × ℕ)) : ℕ := (ps.map Prod.snd).sum

def weightedSum (ps : List (ℕ × ℕ)) : ℕ := (ps.map (fun p => p.1*p.2)).sum

/-- What `weighted-mean` commits. -/
def weightedMean (ps : List (ℕ × ℕ)) : ℕ := halfUp (weightedSum ps) (totalWeight ps)

lemma totalWeight_cons (p : ℕ × ℕ) (ps : List (ℕ × ℕ)) :
    totalWeight (p::ps) = p.2 + totalWeight ps := by simp [totalWeight]

lemma weightedSum_cons (p : ℕ × ℕ) (ps : List (ℕ × ℕ)) :
    weightedSum (p::ps) = p.1*p.2 + weightedSum ps := by simp [weightedSum]

lemma weightedSum_le {ps : List (ℕ × ℕ)} {b : ℕ} (h : ∀ p ∈ ps, p.1 ≤ b) :
    weightedSum ps ≤ b*totalWeight ps := by
  induction ps with
  | nil => simp [weightedSum]
  | cons p ps ih =>
    have hp := h p (by simp)
    have := ih (fun q hq => h q (by simp [hq]))
    rw [weightedSum_cons,totalWeight_cons]
    nlinarith

lemma totalWeight_pos {ps : List (ℕ × ℕ)} (hne : ps ≠ []) (h : ∀ p ∈ ps, 0 < p.2) :
    0 < totalWeight ps := by
  obtain ⟨p,ps,rfl⟩ := List.exists_cons_of_ne_nil hne
  have := h p (by simp)
  rw [totalWeight_cons]
  omega

lemma totalWeight_lt {ps : List (ℕ × ℕ)} {b : ℕ} (h : ∀ p ∈ ps, p.2 < b) :
    totalWeight ps ≤ ps.length*b := by
  induction ps with
  | nil => simp [totalWeight]
  | cons p ps ih =>
    have hp := h p (by simp)
    have := ih (fun q hq => h q (by simp [hq]))
    rw [totalWeight_cons,List.length_cons,Nat.add_mul]
    omega

/-- The mirror's loop adds up the weights and the weighted values. -/
lemma cli_weightedFold (ps : List (ℕ × ℕ)) (h : ∀ p ∈ ps, p.1 ≤ 10000) (w s : ℤ) :
    (ps.map (fun p => ((p.1 : ℤ),(p.2 : ℤ)))).foldlM Cli.weightedMeanStep (w,s) =
      .ok (w + totalWeight ps,s + weightedSum ps) := by
  induction ps generalizing w s with
  | nil => simp [totalWeight,weightedSum]
  | cons p ps ih =>
    have hp := h p (by simp)
    rw [List.map_cons,List.foldlM_cons,bind_eq_ok]
    refine ⟨(w + p.2,s + p.1*p.2),?_,?_⟩
    · simp only [Cli.weightedMeanStep,cli_checkBps hp,bind_eq_ok,pure_eq_ok]
      exact ⟨(),trivial,trivial⟩
    · rw [ih (fun q hq => h q (by simp [hq])),totalWeight_cons,weightedSum_cons]
      push_cast
      rw [add_assoc,add_assoc]

/-- The guest's loop does the same while its 128-bit sums have room. -/
lemma guest_weightedFold (ps : List (ℕ × ℕ)) (h : ∀ p ∈ ps, p.1 ≤ 10000) (w s : ℕ)
    (hroom : w + totalWeight ps < 2^127 ∧ s + weightedSum ps < 2^127) :
    (ps.map (fun p => (⟨p.1,p.2⟩ : Reducer.WeightedValue))).foldlM
        Reducer.weightedMeanStepWatched (w,(s : ℤ)) =
      .ok (w + totalWeight ps,((s + weightedSum ps : ℕ) : ℤ)) := by
  induction ps generalizing w s with
  | nil => simp [totalWeight,weightedSum]
  | cons p ps ih =>
    have hp := h p (by simp)
    obtain ⟨hw,hs⟩ := hroom
    rw [totalWeight_cons] at hw ⊢
    rw [weightedSum_cons] at hs
    have hprod : Reducer.inI128 ((p.1 : ℤ)*(p.2 : ℤ)) = .ok ((p.1*p.2 : ℕ) : ℤ) := by
      rw [← Nat.cast_mul]
      exact inI128_eq (by omega) (by omega)
    rw [List.map_cons,List.foldlM_cons,bind_eq_ok]
    refine ⟨(w + p.2,((s + p.1*p.2 : ℕ) : ℤ)),?_,?_⟩
    · simp only [Reducer.weightedMeanStepWatched,reducer_checkBps hp,returned_eq_ok,bind_eq_ok,
        pure_eq_ok,hprod]
      refine ⟨(),trivial,_,inU128_eq (by omega),_,rfl,_,?_,rfl⟩
      rw [← Nat.cast_add]
      exact inI128_eq (by omega) (by omega)
    · rw [ih (fun q hq => h q (by simp [hq])) _ _ ⟨by omega,by omega⟩,weightedSum_cons,
        Nat.add_assoc,Nat.add_assoc]

/-- Every 128-bit intermediate of the rounded quotient is in range. -/
def Roomy (ps : List (ℕ × ℕ)) : Prop :=
  2*weightedSum ps + totalWeight ps < 2^127 ∧ 2*totalWeight ps < 2^127

theorem cli_weightedMean {ps : List (ℕ × ℕ)} (hv : ∀ p ∈ ps, p.1 ≤ 10000)
    (hpos : 0 < totalWeight ps) :
    Cli.weightedMeanBps (ps.map (fun p => ((p.1 : ℤ),(p.2 : ℤ)))) =
      .ok (weightedMean ps : ℤ) := by
  have hne : ps ≠ [] := by
    rintro rfl
    simp [totalWeight] at hpos
  simp only [Cli.weightedMeanBps,bind_eq_ok,failIf_eq_ok,exists_and_left,exists_const]
  refine ⟨by simpa using hne,_,cli_weightedFold ps hv 0 0,?_⟩
  simp only [zero_add]
  exact cli_roundHalfUp hpos (weightedSum_le hv)

lemma guest_weightedMean {ps : List (ℕ × ℕ)} (hv : ∀ p ∈ ps, p.1 ≤ 10000)
    (hpos : 0 < totalWeight ps) (hroom : Roomy ps) :
    Reducer.weightedMeanBpsWatched (ps.map (fun p => ⟨p.1,p.2⟩)) = .ok (weightedMean ps) := by
  have hne : ps ≠ [] := by
    rintro rfl
    simp [totalWeight] at hpos
  obtain ⟨hsum,hweight⟩ := hroom
  simp only [Reducer.weightedMeanBpsWatched,bind_eq_ok,failIf_eq_ok,exists_and_left,exists_const]
  refine ⟨by simpa using hne,_,guest_weightedFold ps hv 0 0 (by omega),?_⟩
  simp only [zero_add]
  exact ⟨by omega,_,inI128_eq (by omega) (by omega),
    guest_roundHalfUp hpos (weightedSum_le hv) hsum hweight⟩

theorem reducer_weightedMean {ps : List (ℕ × ℕ)} (hv : ∀ p ∈ ps, p.1 ≤ 10000)
    (hpos : 0 < totalWeight ps) (hroom : Roomy ps) :
    Reducer.weightedMeanBps (ps.map (fun p => ⟨p.1,p.2⟩)) = .ok (weightedMean ps) :=
  (Reducer.weightedMeanBps_watched _).eq_ok (guest_weightedMean hv hpos hroom)

/-- Up to 2^46 weights of 64 bits leave room. -/
lemma roomy_of_length {ps : List (ℕ × ℕ)} (hv : ∀ p ∈ ps, p.1 ≤ 10000) (hw : ∀ p ∈ ps, p.2 < 2^64)
    (hlen : ps.length ≤ 2^46) : Roomy ps := by
  have hle := weightedSum_le hv
  have hlt := totalWeight_lt hw
  have hmul : ps.length*2^64 ≤ 2^46*2^64 := Nat.mul_le_mul_right _ hlen
  unfold Roomy
  omega

end WeightedMean

section TrimmedMean

/-- Equivalent orders sort alike. -/
lemma insertionSort_congr {α : Type} (r s : α → α → Prop) [DecidableRel r] [DecidableRel s]
    (h : ∀ a b, r a b ↔ s a b) (xs : List α) : xs.insertionSort r = xs.insertionSort s := by
  have hrs : r = s := funext₂ (fun a b => propext (h a b))
  subst hrs
  congr

lemma rejection_agrees (median : ℤ) (a b : ℕ × ℤ) :
    Cli.rejectionLe median a b ↔ Reducer.rejectionLe median a b := by
  simp only [Cli.rejectionLe,Reducer.rejectionLe,Reducer.rejectionOrder,ne_eq,
    Ordering.then_eq_gt,compare_gt_iff_gt,compare_eq_iff_eq]
  omega

/-- The pairs rejected by a trim of `k` values. -/
def rejected (values : List ℤ) (k : ℕ) : List ℕ :=
  let indexed := (Cli.enumerate values).insertionSort Cli.valueLe
  let median := (indexed.getD (indexed.length/2) (0,0)).2
  ((indexed.insertionSort (Cli.rejectionLe median)).take k).map Prod.fst

/-- The values a trim of `k` keeps, in their order. -/
def retained (values : List ℤ) (k : ℕ) : List ℤ :=
  (Cli.enumerate values).filterMap (fun p => if p.1 ∈ rejected values k then none else some p.2)

lemma cli_retainedValues {values : List ℤ} {k : ℕ} (h : k < values.length) :
    Cli.retainedValues values k = .ok (retained values k) := by
  simp only [Cli.retainedValues,bind_eq_ok,failIf_eq_ok,pure_eq_ok,exists_and_left,exists_const]
  refine ⟨?_,by omega,by omega,rfl⟩
  rintro rfl
  simp at h

/-- Clearing flags is the same as looking the index up among the rejected pairs. -/
lemma dropFlags_getD (pairs : List (ℕ × ℤ)) (keep : List Bool) (i : ℕ) :
    (Reducer.dropFlags pairs keep).getD i false =
      (keep.getD i false && decide (i ∉ pairs.map Prod.fst)) := by
  induction pairs generalizing keep with
  | nil => simp [Reducer.dropFlags]
  | cons p ps ih =>
    have hstep : Reducer.dropFlags (p::ps) keep =
        Reducer.dropFlags ps (keep.set p.1 false) := rfl
    rw [hstep,ih]
    by_cases hi : i = p.1
    · subst hi
      by_cases hl : p.1 < keep.length
      · simp [List.getD_eq_getElem?_getD,hl]
      · simp [List.getD_eq_getElem?_getD,hl]
    · have hi' : p.1 ≠ i := fun he => hi he.symm
      have hm : i ∈ (p::ps).map Prod.fst ↔ i ∈ ps.map Prod.fst := by simp [hi]
      refine congrArg₂ (· && ·) ?_ (decide_eq_decide.mpr (not_congr hm.symm))
      simp [List.getD_eq_getElem?_getD,hi']

lemma mem_enumerate {values : List ℤ} {p : ℕ × ℤ} (h : p ∈ Cli.enumerate values) :
    p.1 < values.length ∧ p.2 ∈ values := by
  obtain ⟨q,hq,rfl⟩ := List.mem_map.mp h
  obtain ⟨hi,hv⟩ := List.mem_zipIdx' hq
  exact ⟨hi,hv ▸ List.getElem_mem _⟩

lemma reducer_retainedValues {values : List ℤ} {k : ℕ} (h : k < values.length) :
    Reducer.retainedValues values k = .ok (retained values k) := by
  simp only [Reducer.retainedValues,bind_eq_ok,failIf_eq_ok,pure_eq_ok,exists_and_left,
    exists_const]
  refine ⟨?_,by omega,?_⟩
  · rintro rfl
    simp at h
  · refine List.filterMap_congr (fun p hp => ?_)
    obtain ⟨hlt,-⟩ := mem_enumerate hp
    rw [dropFlags_getD,← insertionSort_congr _ _ (rejection_agrees _)]
    change (if (_ && decide (p.1 ∉ rejected values k)) = true then _ else _) = _
    simp only [List.getD_eq_getElem?_getD,List.getElem?_replicate,hlt,if_true,Option.getD_some,
      Bool.true_and,decide_eq_true_eq,ite_not]

lemma rejected_length (values : List ℤ) (k : ℕ) : (rejected values k).length ≤ k := by
  simp only [rejected,List.length_map]
  exact List.length_take_le _ _

/-- Fewer rejections than values leave a value over. -/
lemma retained_ne_nil {values : List ℤ} {k : ℕ} (h : k < values.length) :
    retained values k ≠ [] := by
  intro he
  have hall : List.range values.length ⊆ rejected values k := by
    intro i hi
    by_contra hni
    rw [List.mem_range] at hi
    have hmem : (i,values[i]) ∈ Cli.enumerate values :=
      List.mem_map.mpr ⟨(values[i],i),List.mem_zipIdx_iff_getElem?.mpr (by simp [hi]),rfl⟩
    have hkept : values[i] ∈ retained values k :=
      List.mem_filterMap.mpr ⟨_,hmem,by simp [hni]⟩
    rw [he] at hkept
    simp at hkept
  have := (List.nodup_range.subperm hall).length_le
  have := rejected_length values k
  simp only [List.length_range] at *
  omega

lemma retained_subset (values : List ℤ) (k : ℕ) : retained values k ⊆ values := by
  intro v hv
  obtain ⟨p,hp,hpv⟩ := List.mem_filterMap.mp hv
  split_ifs at hpv
  exact Option.some.inj hpv ▸ (mem_enumerate hp).2

lemma retained_length_le (values : List ℤ) (k : ℕ) :
    (retained values k).length ≤ values.length := by
  refine (List.length_filterMap_le _ _).trans ?_
  simp [Cli.enumerate]

/-- What `trimmed-mean` commits when `k` values are dropped. -/
def trimmedMean (values : List ℕ) (k : ℕ) : ℕ :=
  let kept := (retained (values.map Nat.cast) k).map Int.toNat
  halfUp kept.sum kept.length

/-- The kept values are basis points again. -/
lemma retained_cast {values : List ℕ} (hv : ∀ v ∈ values, v ≤ 10000) (k : ℕ) :
    ∃ kept : List ℕ, retained (values.map Nat.cast) k = kept.map Nat.cast ∧
      kept = (retained (values.map Nat.cast) k).map Int.toNat ∧ ∀ v ∈ kept, v ≤ 10000 := by
  have hmem : ∀ x ∈ retained (values.map Nat.cast) k, ∃ v ∈ values, (v : ℤ) = x := by
    intro x hx
    exact List.mem_map.mp (retained_subset _ _ hx)
  refine ⟨_,?_,rfl,?_⟩
  · rw [List.map_map]
    refine (List.map_congr_left (fun x hx => ?_)).trans (List.map_id _) |>.symm
    obtain ⟨w,-,rfl⟩ := hmem x hx
    simp
  · intro v hv'
    obtain ⟨x,hx,rfl⟩ := List.mem_map.mp hv'
    obtain ⟨w,hw,rfl⟩ := hmem x hx
    simpa using hv w hw

lemma sum_le_of_bps {kept : List ℕ} (h : ∀ v ∈ kept, v ≤ 10000) :
    kept.sum ≤ 10000*kept.length := by
  simpa [Nat.mul_comm] using List.sum_le_card_nsmul kept 10000 h

lemma guest_sumFold (kept : List ℕ) (h : ∀ v ∈ kept, v ≤ 10000) (s : ℕ)
    (hroom : s + 10000*kept.length < 2^127) :
    (kept.map (Nat.cast : ℕ → ℤ)).foldlM (fun sum value => do
      returned (Reducer.checkBps value)
      Reducer.inI128 (sum + value)) (s : ℤ) =
        (.ok ((s + kept.sum : ℕ) : ℤ) : Reducer.Watched ℤ) := by
  induction kept generalizing s with
  | nil => simp
  | cons v vs ih =>
    have hv := h v (by simp)
    simp only [List.length_cons] at hroom
    rw [List.map_cons,List.foldlM_cons,bind_eq_ok]
    refine ⟨((s + v : ℕ) : ℤ),?_,?_⟩
    · simp only [reducer_checkBps hv,returned_eq_ok,bind_eq_ok]
      refine ⟨(),trivial,?_⟩
      rw [← Nat.cast_add]
      exact inI128_eq (by omega) (by omega)
    · rw [ih (fun w hw => h w (by simp [hw])) _ (by omega),List.sum_cons,Nat.add_assoc]

lemma cli_checkAll (kept : List ℕ) (h : ∀ v ∈ kept, v ≤ 10000) :
    (kept.map (Nat.cast : ℕ → ℤ)).forM Cli.checkBps = .ok () := by
  rw [forM_eq_ok]
  intro v hv
  obtain ⟨w,hw,rfl⟩ := List.mem_map.mp hv
  exact cli_checkBps (h w hw)

lemma guest_trimmedMean {values : List ℕ} {k : ℕ} (hk : k < values.length)
    (hlen : values.length ≤ 128) (hv : ∀ v ∈ values, v ≤ 10000) :
    Reducer.trimmedMeanBpsWatched (values.map Nat.cast) k = .ok (trimmedMean values k) := by
  obtain ⟨kept,hkept,hkept',hbps⟩ := retained_cast hv k
  have hne : retained (values.map Nat.cast) k ≠ [] := retained_ne_nil (by simpa using hk)
  have hl := retained_length_le (values.map Nat.cast) k
  simp only [Reducer.trimmedMeanBpsWatched,bind_eq_ok]
  refine ⟨_,returned_eq_ok.mpr (reducer_retainedValues (by simpa using hk)),?_⟩
  rw [hkept] at hne hl ⊢
  simp only [List.length_map] at hl
  refine ⟨_,guest_sumFold kept hbps 0 (by omega),?_⟩
  simp only [trimmedMean,← hkept',List.length_map,Nat.zero_add]
  have hsum := sum_le_of_bps hbps
  refine guest_roundHalfUp ?_ hsum (by omega) (by omega)
  exact List.length_pos_iff.mpr (by simpa using hne)

theorem reducer_trimmedMean {values : List ℕ} {k : ℕ} (hk : k < values.length)
    (hlen : values.length ≤ 128) (hv : ∀ v ∈ values, v ≤ 10000) :
    Reducer.trimmedMeanBps (values.map Nat.cast) k = .ok (trimmedMean values k) :=
  (Reducer.trimmedMeanBps_watched _ _).eq_ok (guest_trimmedMean hk hlen hv)

theorem cli_trimmedMean {values : List ℕ} {k : ℕ} (hk : k < values.length)
    (hv : ∀ v ∈ values, v ≤ 10000) :
    Cli.trimmedMeanBps (values.map Nat.cast) k = .ok (trimmedMean values k : ℤ) := by
  obtain ⟨kept,hkept,hkept',hbps⟩ := retained_cast hv k
  have hne : retained (values.map Nat.cast) k ≠ [] := retained_ne_nil (by simpa using hk)
  simp only [Cli.trimmedMeanBps,bind_eq_ok]
  refine ⟨_,cli_retainedValues (by simpa using hk),?_⟩
  rw [hkept] at hne ⊢
  refine ⟨(),cli_checkAll kept hbps,?_⟩
  have hsum : (kept.map (Nat.cast : ℕ → ℤ)).sum = (kept.sum : ℤ) := (Nat.cast_list_sum kept).symm
  simp only [trimmedMean,← hkept',List.length_map,hsum]
  refine cli_roundHalfUp ?_ (sum_le_of_bps hbps)
  exact List.length_pos_iff.mpr (by simpa using hne)

end TrimmedMean

section MajorityVote

/-- Add a weight to a category's total. -/
def credit (category weight : ℕ) : List (ℕ × ℕ) → List (ℕ × ℕ)
  | [] => [(category,weight)]
  | (c,total)::rest =>
    if c = category then (c,total + weight)::rest else (c,total) :: credit category weight rest

/-- Accumulated weight of each category, in order of first vote. -/
def totals (votes : List (ℕ × ℕ)) : List (ℕ × ℕ) :=
  votes.foldl (fun ts v => if v.2 = 0 then ts else credit v.1 v.2 ts) []

/-- The heaviest category, the lowest on a tie; none without a vote. -/
def winner (votes : List (ℕ × ℕ)) : Option ℕ :=
  ((totals votes).insertionSort Reducer.voteLe).head?.map Prod.fst

def castPair (p : ℕ × ℕ) : ℤ × ℤ := (p.1,p.2)

/-- Reading a dictionary entry and writing it back credits the category. -/
lemma dictSet_credit (ts : List (ℕ × ℕ)) (v : ℕ × ℕ) :
    Cli.dictSet (castPair v).1 (((ts.map castPair).lookup (castPair v).1).getD 0 + (castPair v).2)
      (ts.map castPair) = (credit v.1 v.2 ts).map castPair := by
  induction ts with
  | nil => simp [Cli.dictSet,credit,castPair]
  | cons t ts ih =>
    by_cases hc : t.1 = v.1
    · simp [castPair,hc,Cli.dictSet,credit]
    · have hne : (t.1 : ℤ) ≠ v.1 := by exact_mod_cast hc
      have hbeq : ((v.1 : ℤ) == (t.1 : ℤ)) = false := by simpa using hne.symm
      simp only [List.map_cons,castPair,List.lookup_cons,hbeq,Cli.dictSet,if_neg hne,
        credit,if_neg hc] at ih ⊢
      rw [ih]

lemma cli_tally (votes : List (ℕ × ℕ)) :
    Cli.tally (votes.map castPair) = (totals votes).map castPair := by
  unfold Cli.tally totals
  rw [List.foldl_map]
  change votes.foldl _ (List.map castPair []) = _
  refine List.foldl_hom (List.map castPair) (fun ts v => ?_)
  by_cases hw : v.2 = 0
  · have hw' : (castPair v).2 = 0 := by simp [castPair,hw]
    rw [if_pos hw,if_pos hw']
  · have hw' : (castPair v).2 ≠ 0 := by simpa [castPair] using hw
    rw [if_neg hw,if_neg hw',dictSet_credit]

/-- While every total has room for the weight, the guest's addition stays in range. -/
lemma guest_addVote (ts : List (ℕ × ℕ)) (c w b : ℕ) (hts : ∀ t ∈ ts, t.2 ≤ b)
    (hb : b + w < 2^128) :
    Reducer.addVoteWatched c w ts = .ok (credit c w ts) ∧ ∀ t ∈ credit c w ts, t.2 ≤ b + w := by
  induction ts with
  | nil => simp [Reducer.addVoteWatched,credit,pure,Except.pure]
  | cons t ts ih =>
    have ht := hts t (by simp)
    obtain ⟨heq,hle⟩ := ih (fun u hu => hts u (by simp [hu]))
    constructor
    · simp only [Reducer.addVoteWatched,credit,inU128_eq (show t.2 + w < 2^128 by omega),heq,ok_bind]
      split_ifs <;> rfl
    · intro u hu
      simp only [credit] at hu
      split_ifs at hu with hc
      · rcases List.mem_cons.mp hu with rfl | hu
        · exact Nat.add_le_add_right ht w
        · exact (hts u (by simp [hu])).trans (Nat.le_add_right b w)
      · rcases List.mem_cons.mp hu with rfl | hu
        · exact ht.trans (Nat.le_add_right b w)
        · exact hle u hu

lemma guest_tallyFold (votes ts : List (ℕ × ℕ)) (b : ℕ) (hts : ∀ t ∈ ts, t.2 ≤ b)
    (hb : b + totalWeight votes < 2^128) :
    (votes.map (fun v => (⟨v.1,v.2⟩ : Reducer.CategoricalVote))).foldlM (fun totals vote =>
        if vote.weight = 0 then pure totals
        else Reducer.addVoteWatched vote.category vote.weight totals) ts =
      (.ok (votes.foldl (fun ts v => if v.2 = 0 then ts else credit v.1 v.2 ts) ts) :
        Reducer.Watched (List (ℕ × ℕ))) := by
  induction votes generalizing ts b with
  | nil => rfl
  | cons v vs ih =>
    rw [totalWeight_cons] at hb
    rw [List.map_cons,List.foldlM_cons,List.foldl_cons,bind_eq_ok]
    split_ifs with hw
    · exact ⟨ts,rfl,ih ts b hts (by omega)⟩
    · obtain ⟨heq,hle⟩ := guest_addVote ts v.1 v.2 b hts (by omega)
      exact ⟨_,heq,ih _ (b + v.2) hle (by omega)⟩

lemma guest_tally {votes : List (ℕ × ℕ)} (hb : totalWeight votes < 2^128) :
    Reducer.tallyWatched (votes.map (fun v => ⟨v.1,v.2⟩)) = .ok (totals votes) :=
  guest_tallyFold votes [] 0 (by simp) (by omega)

lemma vote_agrees (a b : ℕ × ℕ) : Reducer.voteLe a b ↔ Cli.voteLe (castPair a) (castPair b) := by
  simp only [Cli.voteLe,Reducer.voteLe,Reducer.voteOrder,ne_eq,castPair,
    Ordering.then_eq_gt,compare_gt_iff_gt,compare_eq_iff_eq]
  omega

lemma guest_majorityVote {votes : List (ℕ × ℕ)} {c : ℕ} (hne : votes ≠ [])
    (hb : totalWeight votes < 2^128) (hw : winner votes = some c) :
    Reducer.majorityVoteWatched (votes.map (fun v => ⟨v.1,v.2⟩)) = .ok c := by
  simp only [Reducer.majorityVoteWatched,bind_eq_ok,failIf_eq_ok,exists_and_left,exists_const]
  refine ⟨by simpa using hne,_,guest_tally hb,?_⟩
  unfold winner at hw
  cases hs : (totals votes).insertionSort Reducer.voteLe with
  | nil => simp [hs] at hw
  | cons w ws => simpa [hs] using hw

theorem reducer_majorityVote {votes : List (ℕ × ℕ)} {c : ℕ} (hne : votes ≠ [])
    (hb : totalWeight votes < 2^128) (hw : winner votes = some c) :
    Reducer.majorityVote (votes.map (fun v => ⟨v.1,v.2⟩)) = .ok c :=
  (Reducer.majorityVote_watched _).eq_ok (guest_majorityVote hne hb hw)

theorem cli_majorityVote {votes : List (ℕ × ℕ)} {c : ℕ} (hne : votes ≠ [])
    (hw : winner votes = some c) : Cli.majorityVote (votes.map castPair) = .ok (c : ℤ) := by
  have hsort := List.map_insertionSort (r := Reducer.voteLe) (s := Cli.voteLe) castPair
    (totals votes) (fun a _ b _ => vote_agrees a b)
  simp only [Cli.majorityVote,bind_eq_ok,failIf_eq_ok,exists_and_left,exists_const,cli_tally,
    ← hsort]
  refine ⟨by simpa using hne,?_⟩
  unfold winner at hw
  cases hs : (totals votes).insertionSort Reducer.voteLe with
  | nil => simp [hs] at hw
  | cons w ws =>
    obtain rfl : w.1 = c := by simpa [hs] using hw
    simp [castPair]

lemma credit_ne_nil (c w : ℕ) (ts : List (ℕ × ℕ)) : credit c w ts ≠ [] := by
  cases ts with
  | nil => simp [credit]
  | cons t ts =>
    simp only [credit]
    split_ifs <;> simp

lemma credit_mem {c w : ℕ} {ts : List (ℕ × ℕ)} {t : ℕ × ℕ} (h : t ∈ credit c w ts) :
    t.1 = c ∨ ∃ u ∈ ts, u.1 = t.1 := by
  induction ts with
  | nil => simp [credit] at h; simp [h]
  | cons u ts ih =>
    simp only [credit] at h
    split_ifs at h with hc
    · rcases List.mem_cons.mp h with rfl | h
      · exact .inl hc
      · exact .inr ⟨t,by simp [h],rfl⟩
    · rcases List.mem_cons.mp h with rfl | h
      · exact .inr ⟨u,by simp,rfl⟩
      · exact (ih h).imp_right (fun ⟨x,hx,he⟩ => ⟨x,by simp [hx],he⟩)

/-- Positive votes leave a non-empty tally of the categories voted for. -/
lemma creditFold_facts (votes ts : List (ℕ × ℕ)) (hw : ∀ v ∈ votes, 0 < v.2)
    (hne : votes ≠ [] ∨ ts ≠ []) :
    let out := votes.foldl (fun ts v => if v.2 = 0 then ts else credit v.1 v.2 ts) ts
    out ≠ [] ∧ ∀ t ∈ out, (∃ v ∈ votes, v.1 = t.1) ∨ ∃ u ∈ ts, u.1 = t.1 := by
  induction votes generalizing ts with
  | nil => exact ⟨by simpa using hne,fun t ht => .inr ⟨t,ht,rfl⟩⟩
  | cons v vs ih =>
    have hv := hw v (by simp)
    simp only [List.foldl_cons,if_neg (by omega : ¬v.2 = 0)]
    obtain ⟨hout,hmem⟩ := ih (credit v.1 v.2 ts) (fun u hu => hw u (by simp [hu]))
      (.inr (credit_ne_nil _ _ _))
    refine ⟨hout,fun t ht => ?_⟩
    rcases hmem t ht with ⟨u,hu,he⟩ | ⟨u,hu,he⟩
    · exact .inl ⟨u,by simp [hu],he⟩
    · rcases credit_mem hu with hc | ⟨x,hx,hxe⟩
      · exact .inl ⟨v,by simp,hc.symm.trans he⟩
      · exact .inr ⟨x,hx,hxe.trans he⟩

/-- Positive votes produce a winner, and it is a category that was voted for. -/
theorem winner_exists {votes : List (ℕ × ℕ)} (hne : votes ≠ []) (hw : ∀ v ∈ votes, 0 < v.2) :
    ∃ c, winner votes = some c ∧ ∃ v ∈ votes, v.1 = c := by
  obtain ⟨hout,hmem⟩ := creditFold_facts votes [] hw (.inl hne)
  have hperm := List.perm_insertionSort Reducer.voteLe (totals votes)
  cases hs : (totals votes).insertionSort Reducer.voteLe with
  | nil =>
    rw [hs] at hperm
    exact absurd hperm.nil_eq.symm hout
  | cons w ws =>
    refine ⟨w.1,by simp [winner,hs],?_⟩
    have hwm : w ∈ totals votes := hperm.mem_iff.mp (by simp [hs])
    rcases hmem w hwm with h | ⟨u,hu,-⟩
    · exact h
    · simp at hu

end MajorityVote

end Kswarm.Mirror
