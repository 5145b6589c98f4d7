import Kswarm.Mirror.CombinerStage
import Kswarm.Mirror.MajorityVote
import Kswarm.Mirror.Outliers
import Kswarm.Mirror.WeightedMean

/-! How far branches that answer anything can move an aggregate. A trim that is not outnumbered
keeps it within one spread of the other branches, a vote falls exactly when its margin is spent, and
a weighted mean moves by the share of the weight behind the change. -/
namespace Kswarm.Mirror
open Reducer (CategoricalVote)

section Order
variable {s : List ℤ} {lo hi : ℤ} {j : ℕ}

/-- Up to the first entry at `lo`, a sorted list counts its entries below `lo`. -/
lemma le_getD_of_countP (hs : s.Pairwise (· ≤ ·)) (hj : j < s.length)
    (h : s.countP (fun v => v < lo) ≤ j) : lo ≤ s.getD j 0 := by
  by_contra hlow
  have hall : ∀ v ∈ s.take (j+1), v < lo := by
    intro v hv
    obtain ⟨i,hi,-,rfl⟩ := mem_take_getD.mp hv
    have := getD_mono hs (show i ≤ j by omega) hj
    omega
  have htake : (s.take (j+1)).countP (fun v => v < lo) = j+1 := by
    rw [List.countP_eq_length.mpr (by simpa using hall),List.length_take]
    omega
  have hle := (List.take_sublist (j+1) s).countP_le (p := fun v => v < lo)
  omega

lemma getD_le_of_countP (hs : s.Pairwise (· ≤ ·))
    (h : s.countP (fun v => hi < v) < s.length - j) : s.getD j 0 ≤ hi := by
  by_contra hhigh
  have hall : ∀ v ∈ s.drop j, hi < v := by
    intro v hv
    obtain ⟨i,hi,hl,rfl⟩ := mem_drop_getD.mp hv
    have := getD_mono hs hi hl
    omega
  have hdrop : (s.drop j).countP (fun v => hi < v) = s.length - j := by
    rw [List.countP_eq_length.mpr (by simpa using hall),List.length_drop]
  have hle := (List.drop_sublist j s).countP_le (p := fun v => hi < v)
  omega

end Order

section Trim
variable {values : List ℤ} {k : ℕ} {lo hi : ℤ}

/-- The values outside a range. -/
def astray (lo hi : ℤ) (values : List ℤ) : ℕ := values.countP (fun v => v < lo ∨ hi < v)

lemma astray_perm {values values' : List ℤ} (h : values.Perm values') :
    astray lo hi values = astray lo hi values' := h.countP_eq _

/-- The element at index `n/2` is in every range that a majority of the values is in. -/
lemma upperMedian_mem (h : 2*astray lo hi values < values.length) :
    lo ≤ upperMedian values ∧ upperMedian values ≤ hi := by
  have hlen := ascending_length values
  have hsorted := ascending_pairwise values
  have hlow : (ascending values).countP (fun v => v < lo) ≤ astray lo hi values := by
    rw [← astray_perm (ascending_perm values)]
    exact List.countP_mono_left (fun v _ hv => by simpa using .inl (by simpa using hv))
  have hhigh : (ascending values).countP (fun v => hi < v) ≤ astray lo hi values := by
    rw [← astray_perm (ascending_perm values)]
    exact List.countP_mono_left (fun v _ hv => by simpa using .inr (by simpa using hv))
  exact ⟨le_getD_of_countP hsorted (by omega) (by omega),
    getD_le_of_countP hsorted (by omega)⟩

/-- A value astray that is retained took the place of one that is not, which is farther from the
median. -/
lemma retained_near (hmajority : 2*astray lo hi values < values.length)
    (htrim : astray lo hi values ≤ k) {v : ℤ} (hv : v ∈ retained values k) :
    2*lo - hi ≤ v ∧ v ≤ 2*hi - lo := by
  obtain ⟨hmlo,hmhi⟩ := upperMedian_mem hmajority
  set m := upperMedian values
  by_cases hin : lo ≤ v ∧ v ≤ hi
  · omega
  have hout : v < lo ∨ hi < v := by omega
  set far := (ascending values).insertionSort (farLe m)
  have hperm : far.Perm values :=
    (List.perm_insertionSort (farLe m) (ascending values)).trans (ascending_perm values)
  have hkept : v ∈ far.drop k := (retained_perm values k).mem_iff.mp hv
  have hsum : astray lo hi (far.take k) + astray lo hi (far.drop k) = astray lo hi values := by
    rw [← astray_perm hperm,astray,astray,← List.countP_append,List.take_append_drop]
    rfl
  have hone : 0 < astray lo hi (far.drop k) :=
    List.countP_pos_iff.mpr ⟨v,hkept,by simpa using hout⟩
  have hlen : (far.take k).length = k := by
    have := List.length_pos_of_mem hkept
    rw [List.length_drop] at this
    rw [List.length_take]
    omega
  obtain ⟨p,hp,hpin⟩ : ∃ p ∈ far.take k, lo ≤ p ∧ p ≤ hi := by
    by_contra hnone
    push Not at hnone
    have hall : astray lo hi (far.take k) = (far.take k).length :=
      List.countP_eq_length.mpr (fun p hp => by
        have := hnone p hp
        simp only [decide_eq_true_eq]
        omega)
    omega
  have hpairs := List.pairwise_insertionSort (farLe m) (ascending values)
  change far.Pairwise _ at hpairs
  rw [← List.take_append_drop k far,List.pairwise_append] at hpairs
  have hfar : farLe m p v := hpairs.2.2 p hp v hkept
  have hle : |v-m| ≤ |p-m| := by
    rcases hfar with h | h
    · exact h.le
    · exact h.1.le
  rcases abs_cases (v-m) with ⟨h1,h1'⟩ | ⟨h1,h1'⟩ <;>
    rcases abs_cases (p-m) with ⟨h2,h2'⟩ | ⟨h2,h2'⟩ <;> omega

/-- The trimmed mean lies between two values it keeps. -/
lemma trimmedMean_kept {values : List ℕ} (hk : k < values.length) :
    (∃ v ∈ retained (values.map Nat.cast) k, v.toNat ≤ trimmedMean values k) ∧
      ∃ v ∈ retained (values.map Nat.cast) k, trimmedMean values k ≤ v.toNat := by
  have hne : retained (values.map Nat.cast) k ≠ [] := retained_ne_nil (by simpa using hk)
  have hpos : 0 < totalWeight
      (((retained (values.map Nat.cast) k).map Int.toNat).map (fun v => (v,1))) := by
    have := List.length_pos_iff.mpr hne
    simpa [totalWeight,Function.comp_def] using this
  obtain ⟨⟨p,hp,hlow⟩,⟨q,hq,hhigh⟩⟩ := weightedMean_between hpos
  rw [List.map_map] at hp hq
  obtain ⟨v,hv,rfl⟩ := List.mem_map.mp hp
  obtain ⟨w,hw,rfl⟩ := List.mem_map.mp hq
  rw [trimmedMean_eq]
  exact ⟨⟨v,hv,hlow⟩,⟨w,hw,hhigh⟩⟩

end Trim

/-- While fewer than half of the values, and no more than the trim drops, lie outside a range, both
implementations return a value at most one width of the range away from it, whatever the others are.
In particular a majority that agrees on one value is answered with that value. -/
theorem trimmed_mean_withstands (values : List ℕ) (k : ℕ) (lo hi : ℤ)
    (hbps : ∀ v ∈ values, v ≤ 10000) (hlen : values.length ≤ 128) (hk : k < values.length)
    (hmajority : 2*astray lo hi (values.map Nat.cast) < values.length)
    (htrim : astray lo hi (values.map Nat.cast) ≤ k) :
    ∃ r : ℕ, Reducer.trimmedMeanBps (values.map Nat.cast) k = .ok r ∧
      Cli.trimmedMeanBps (values.map Nat.cast) k = .ok (r : ℤ) ∧
      2*lo - hi ≤ r ∧ (r : ℤ) ≤ 2*hi - lo := by
  refine ⟨trimmedMean values k,reducer_trimmedMean hk hlen hbps,cli_trimmedMean hk hbps,?_⟩
  obtain ⟨⟨v,hv,hlow⟩,⟨w,hw,hhigh⟩⟩ := trimmedMean_kept hk
  have hnear : ∀ v ∈ retained (values.map Nat.cast) k, 2*lo - hi ≤ v ∧ v ≤ 2*hi - lo :=
    fun v hv => retained_near (by simpa using hmajority) htrim hv
  have hnonneg : ∀ v ∈ retained (values.map Nat.cast) k, 0 ≤ v := by
    intro v hv
    obtain ⟨n,-,rfl⟩ := List.mem_map.mp (retained_subset _ _ hv)
    exact Int.natCast_nonneg n
  have h1 := hnear v hv
  have h2 := hnear w hw
  have h3 := hnonneg v hv
  have h4 := hnonneg w hw
  omega

/-- One answer of five is far off, and one is dropped. -/
theorem trimmed_mean_withstands_one :
    ∃ r : ℕ, Reducer.trimmedMeanBps ([4000,4100,10000,4200,4100].map Nat.cast) 1 = .ok r ∧
      2*4000 - 4200 ≤ (r : ℤ) ∧ (r : ℤ) ≤ 2*4200 - 4000 := by
  obtain ⟨r,hguest,-,hr⟩ := trimmed_mean_withstands [4000,4100,10000,4200,4100] 1 4000 4200
    (by decide) (by decide) (by decide) (by decide) (by decide)
  exact ⟨r,hguest,hr⟩

/-- The distance from the median lets a value beyond the range displace one inside it. -/
example : Reducer.trimmedMeanBps [10,20,20,29] 1 = .ok 23 := by decide +kernel

/-- Half of the values are enough to carry the upper median away. -/
example : Reducer.trimmedMeanBps [0,0,9000,9000] 2 = .ok 9000 := by
  decide +kernel

section Vote
variable {votes extra : List CategoricalVote} {c budget : ℕ}

/-- The weight of all votes. -/
def ballotWeight (votes : List CategoricalVote) : ℕ := (votes.map (fun v => v.weight)).sum

lemma weightOf_append (votes extra : List CategoricalVote) (c : ℕ) :
    weightOf (votes ++ extra) c = weightOf votes c + weightOf extra c := by
  simp [weightOf]

lemma weightOf_le_ballotWeight (votes : List CategoricalVote) (c : ℕ) :
    weightOf votes c ≤ ballotWeight votes := by
  induction votes with
  | nil => exact le_rfl
  | cons v vs ih =>
    rw [weightOf_cons]
    change _ ≤ v.weight + ballotWeight vs
    split_ifs <;> omega

lemma exists_positive_of_weightOf {c : ℕ} (h : 0 < weightOf votes c) :
    ∃ v ∈ votes, 0 < v.weight := by
  by_contra hnone
  push Not at hnone
  have hzero : weightOf votes c = 0 := by
    refine List.sum_eq_zero (fun x hx => ?_)
    obtain ⟨u,hu,rfl⟩ := List.mem_map.mp hx
    have := hnone u hu
    split_ifs <;> omega
  omega

/-- No other category can reach `c` with `budget` more votes, or only one that loses the tie. -/
structure Leads (votes : List CategoricalVote) (c budget : ℕ) : Prop where
  positive : 0 < weightOf votes c
  margin : ∀ d, d ≠ c → weightOf votes d + budget < weightOf votes c ∨
    (weightOf votes d + budget = weightOf votes c ∧ c < d)

lemma Leads.elected (h : Leads votes c budget) (hextra : ballotWeight extra ≤ budget) :
    Elected (votes ++ extra) c := by
  have hmargin : ∀ d, d ≠ c → weightOf (votes ++ extra) d < weightOf (votes ++ extra) c ∨
      (weightOf (votes ++ extra) d = weightOf (votes ++ extra) c ∧ c < d) := by
    intro d hd
    have hgain := weightOf_le_ballotWeight extra d
    rw [weightOf_append,weightOf_append]
    rcases h.margin d hd with hlt | ⟨heq,hcd⟩ <;> omega
  refine ⟨?_,?_,?_⟩
  · rw [weightOf_append]
    exact Nat.add_pos_left h.positive _
  · intro d
    by_cases hd : d = c
    · rw [hd]
    · rcases hmargin d hd with hlt | ⟨heq,-⟩ <;> omega
  · intro d hsame
    by_cases hd : d = c
    · exact hd.ge
    · rcases hmargin d hd with hlt | ⟨-,hcd⟩ <;> omega

/-- The whole budget on one other category is the worst that can happen. -/
lemma leads_of_elected (h : ∀ extra, ballotWeight extra ≤ budget → Elected (votes ++ extra) c) :
    Leads votes c budget := by
  refine ⟨?_,?_⟩
  · have hpos := (h [] (Nat.zero_le _)).positive
    rwa [List.append_nil] at hpos
  · intro d hd
    have he := h [⟨d,budget⟩] (by simp [ballotWeight])
    have hone : ∀ e, weightOf [(⟨d,budget⟩ : CategoricalVote)] e = if d = e then budget else 0 := by
      intro e
      simp [weightOf]
    have hle := he.greatest d
    have htie := he.lowest d
    rw [weightOf_append,weightOf_append,hone,hone,if_pos rfl,if_neg hd,Nat.add_zero] at hle htie
    rcases hle.lt_or_eq with hlt | heq
    · exact .inl hlt
    · exact .inr ⟨heq,lt_of_le_of_ne (htie heq) (Ne.symm hd)⟩

lemma cli_elects_iff (votes : List CategoricalVote) (c : ℕ) :
    Cli.majorityVote (votes.map voteTuple) = .ok (c : ℤ) ↔ Elected votes c := by
  by_cases hpos : ∃ v ∈ votes, 0 < v.weight
  · obtain ⟨d,hd,helected⟩ := cli_elects hpos
    rw [hd]
    constructor
    · intro h
      obtain rfl : d = c := by exact_mod_cast Except.ok.inj h
      exact helected
    · intro h
      rw [helected.unique h rfl]
  · push Not at hpos
    have hzero : ∀ v ∈ votes, v.weight = 0 := fun v hv => Nat.le_zero.mp (hpos v hv)
    have hskip : ∀ (vs : List CategoricalVote), (∀ v ∈ vs, v.weight = 0) →
        Cli.tally (vs.map voteTuple) = [] := by
      intro vs
      induction vs with
      | nil => exact fun _ => rfl
      | cons v vs ih =>
        intro hvs
        have hv : (voteTuple v).2 = 0 := by
          change ((v.weight : ℕ) : ℤ) = 0
          rw [hvs v List.mem_cons_self]
          rfl
        rw [Cli.tally,List.map_cons,List.foldl_cons,if_pos hv]
        exact ih (fun u hu => hvs u (List.mem_cons_of_mem _ hu))
    constructor
    · intro h
      simp [Cli.majorityVote,hskip votes hzero] at h
    · intro h
      obtain ⟨v,hv,hw⟩ := exists_positive_of_weightOf h.positive
      exact absurd (hzero v hv) (by omega)

end Vote

/-- A category wins against every addition of at most `budget` weight, wherever the votes stand,
exactly when it leads by more than the budget, or by the budget a category that loses the tie. -/
theorem majority_margin_exact (votes : List CategoricalVote) (c budget : ℕ) :
    Leads votes c budget ↔
      ∀ extra all, ballotWeight extra ≤ budget → (votes ++ extra).Perm all →
        Cli.majorityVote (all.map voteTuple) = .ok (c : ℤ) ∧
        ∀ b : Ballot, b.votes = all → Reducer.majorityVote b.votes = .ok c := by
  constructor
  · intro h extra all hextra hperm
    have helected := h.elected hextra
    have hweights := (Regrouped.perm hperm).weightOf_eq
    have hpos : ∃ v ∈ all, 0 < v.weight :=
      exists_positive_of_weightOf (hweights ▸ helected.positive)
    refine ⟨?_,?_⟩
    · obtain ⟨d,hd,hother⟩ := cli_elects hpos
      rw [hd,helected.unique hother hweights]
    · rintro b rfl
      obtain ⟨d,hd,hother⟩ := reducer_elects hpos
      rw [hd,helected.unique hother hweights]
  · intro h
    apply leads_of_elected
    intro extra hextra
    exact (cli_elects_iff _ _).mp (h extra _ hextra (.refl _)).1

section Mean
variable {ps : List (ℕ × ℕ)} {weights values : List ℕ}

/-- The pairs with a coalition of these weights that answers these values. -/
def joined (ps : List (ℕ × ℕ)) (values weights : List ℕ) : List (ℕ × ℕ) := ps ++ values.zip weights

lemma totalWeight_joined (h : values.length = weights.length) :
    totalWeight (joined ps values weights) = totalWeight ps + weights.sum := by
  simp [joined,totalWeight,List.map_snd_zip h.ge]

lemma weightedSum_joined (ps : List (ℕ × ℕ)) (values weights : List ℕ) :
    weightedSum (joined ps values weights) = weightedSum ps + weightedSum (values.zip weights) := by
  simp [joined,weightedSum]

lemma weightedSum_replicate (v : ℕ) (weights : List ℕ) :
    weightedSum ((List.replicate weights.length v).zip weights) = v*weights.sum := by
  induction weights with
  | nil => rfl
  | cons w ws ih =>
    rw [List.length_cons,List.replicate_succ,List.zip_cons_cons,weightedSum_cons,ih,List.sum_cons,
      Nat.mul_add]

/-- Steps of less than the divisor move the rounded quotient by one at most. -/
lemma halfUp_step {n d s : ℕ} (hd : 0 < d) (hs : s ≤ d) : halfUp (n + s) d ≤ halfUp n d + 1 := by
  have h1 := (halfUp_bounds (n := n + s) hd).2
  have h2 := (halfUp_bounds (n := n) hd).1
  by_contra hgt
  push Not at hgt
  have h3 : (halfUp n d + 2)*d ≤ halfUp (n + s) d*d := Nat.mul_le_mul_right d hgt
  nlinarith

/-- So every integer between two rounded quotients is met on the way. -/
lemma exists_halfUp_eq {n d s r : ℕ} (hd : 0 < d) (hs : s ≤ d) (count : ℕ)
    (hlow : halfUp n d ≤ r) (hhigh : r ≤ halfUp (n + count*s) d) :
    ∃ v ≤ count, halfUp (n + v*s) d = r := by
  induction count with
  | zero =>
    refine ⟨0,le_rfl,?_⟩
    rw [Nat.zero_mul,Nat.add_zero] at hhigh ⊢
    omega
  | succ count ih =>
    by_cases hle : r ≤ halfUp (n + count*s) d
    · obtain ⟨v,hv,he⟩ := ih hle
      exact ⟨v,by omega,he⟩
    · refine ⟨count+1,le_rfl,?_⟩
      have hstep := halfUp_step (n := n + count*s) hd hs
      rw [Nat.add_assoc,← Nat.add_one_mul] at hstep
      exact le_antisymm (by omega) hhigh

end Mean

/-- What a coalition of given weights can make both implementations return is exactly the integers
from the answer where all of it says 0 to the answer where all of it says 10000. -/
theorem weighted_mean_reach (ps : List (ℕ × ℕ)) (weights : List ℕ) (r : ℕ)
    (hbps : ∀ p ∈ ps, p.1 ≤ 10000) (hps : ∀ p ∈ ps, p.2 < 2^64) (hweights : ∀ w ∈ weights, w < 2^64)
    (hlen : ps.length + weights.length ≤ 128) (hpos : 0 < totalWeight ps + weights.sum) :
    (∃ values : List ℕ, values.length = weights.length ∧ (∀ v ∈ values, v ≤ 10000) ∧
      BothReturn (joined ps values weights) r) ↔
    halfUp (weightedSum ps) (totalWeight ps + weights.sum) ≤ r ∧
      r ≤ halfUp (weightedSum ps + 10000*weights.sum) (totalWeight ps + weights.sum) := by
  have hreturns : ∀ values : List ℕ, values.length = weights.length → (∀ v ∈ values, v ≤ 10000) →
      BothReturn (joined ps values weights) (halfUp
        (weightedSum ps + weightedSum (values.zip weights)) (totalWeight ps + weights.sum)) := by
    intro values hvalues hbound
    rw [← weightedSum_joined,← totalWeight_joined hvalues]
    have hall : ∀ p ∈ joined ps values weights, p.1 ≤ 10000 ∧ p.2 < 2^64 := by
      intro p hp
      rcases List.mem_append.mp hp with hp | hp
      · exact ⟨hbps p hp,hps p hp⟩
      · exact ⟨hbound _ (List.of_mem_zip hp).1,hweights _ (List.of_mem_zip hp).2⟩
    apply bothReturn (fun p hp => (hall p hp).1)
    · rw [totalWeight_joined hvalues]
      exact hpos
    · apply roomy_of_length (fun p hp => (hall p hp).1) (fun p hp => (hall p hp).2)
      rw [joined,List.length_append,List.length_zip,hvalues,Nat.min_self]
      omega
  constructor
  · rintro ⟨values,hvalues,hbound,hr⟩
    have he := Except.ok.inj (hr.1.symm.trans (hreturns values hvalues hbound).1)
    have hle : weightedSum (values.zip weights) ≤ 10000*weights.sum := by
      have h : weightedSum (values.zip weights) ≤ 10000*totalWeight (values.zip weights) :=
        weightedSum_le (fun p hp => hbound _ (List.of_mem_zip hp).1)
      rwa [totalWeight,List.map_snd_zip hvalues.ge] at h
    rw [he]
    exact ⟨halfUp_mono (Nat.le_add_right _ _),halfUp_mono (Nat.add_le_add_left hle _)⟩
  · rintro ⟨hlow,hhigh⟩
    obtain ⟨v,hv,rfl⟩ := exists_halfUp_eq hpos (Nat.le_add_left _ _) 10000 hlow hhigh
    have hbound : ∀ u ∈ List.replicate weights.length v, u ≤ 10000 := by
      intro u hu
      rw [List.eq_of_mem_replicate hu]
      exact hv
    refine ⟨List.replicate weights.length v,List.length_replicate,hbound,?_⟩
    have hrun := hreturns _ List.length_replicate hbound
    rwa [weightedSum_replicate] at hrun

/-- One branch of weight 1 beside three at 4000 reaches every value from 3000 to 5500. -/
theorem weighted_mean_reach_one :
    (∃ values : List ℕ, values.length = [1].length ∧ (∀ v ∈ values, v ≤ 10000) ∧
      BothReturn (joined [(4000,1),(4000,1),(4000,1)] values [1]) 4321) :=
  (weighted_mean_reach [(4000,1),(4000,1),(4000,1)] [1] 4321 (by decide) (by decide) (by decide)
    (by decide) (by decide)).mpr (by decide)

end Kswarm.Mirror
