import Kswarm.Mirror.Combiner

/-! `majority-vote` as a weighted arg-max. The running totals hold each category once, with the
exact sum of its weights so far, in whatever order the votes come; so the winner is a function of
the accumulated weights alone. -/
namespace Kswarm.Mirror
open Reducer (CategoricalVote)

/-- The weight a category has gathered. -/
def weightOf (votes : List CategoricalVote) (c : ℕ) : ℕ :=
  (votes.map (fun v => if v.category = c then v.weight else 0)).sum

/-- The weighted arg-max: a category of greatest weight, the lowest of those. -/
structure Elected (votes : List CategoricalVote) (c : ℕ) : Prop where
  positive : 0 < weightOf votes c
  greatest : ∀ d, weightOf votes d ≤ weightOf votes c
  lowest : ∀ d, weightOf votes d = weightOf votes c → c ≤ d

/-- Reordering the votes, and merging or splitting votes of one category. -/
inductive Regrouped : List CategoricalVote → List CategoricalVote → Prop
  | perm {vs ws} : vs.Perm ws → Regrouped vs ws
  | merge (c w u vs) : Regrouped (⟨c,w⟩::⟨c,u⟩::vs) (⟨c,w + u⟩::vs)
  | split (c w u vs) : Regrouped (⟨c,w + u⟩::vs) (⟨c,w⟩::⟨c,u⟩::vs)
  | trans {vs ws us} : Regrouped vs ws → Regrouped ws us → Regrouped vs us

/-- A Rust slice of votes: 32-bit categories, 64-bit weights, and a length that can be addressed. -/
structure Ballot where
  votes : List CategoricalVote
  category_lt : ∀ v ∈ votes, v.category < 2^32
  weight_lt : ∀ v ∈ votes, v.weight < 2^64
  length_lt : votes.length < 2^63

/-- The mirror's tuple for a vote. -/
def voteTuple (v : CategoricalVote) : ℤ × ℤ := (v.category,v.weight)

section Weights

lemma weightOf_cons (v : CategoricalVote) (vs : List CategoricalVote) (c : ℕ) :
    weightOf (v::vs) c = (if v.category = c then v.weight else 0) + weightOf vs c := by
  simp [weightOf]

/-- A regrouping leaves every category its weight. -/
lemma Regrouped.weightOf_eq {vs ws : List CategoricalVote} (h : Regrouped vs ws) :
    weightOf vs = weightOf ws := by
  funext c
  induction h with
  | perm h => exact (h.map _).sum_eq
  | merge c w u vs =>
    simp only [weightOf_cons]
    split_ifs <;> omega
  | split c w u vs =>
    simp only [weightOf_cons]
    split_ifs <;> omega
  | trans _ _ ih ih' => exact ih.trans ih'

lemma weightOf_pos {votes : List CategoricalVote} {v : CategoricalVote} (hv : v ∈ votes)
    (hw : 0 < v.weight) : 0 < weightOf votes v.category := by
  induction votes with
  | nil => simp at hv
  | cons u us ih =>
    rw [weightOf_cons]
    rcases List.mem_cons.mp hv with rfl | hv
    · rw [if_pos rfl]
      omega
    · have := ih hv
      omega

end Weights

section Totals

/-- What the running totals hold for a category. -/
def held (ts : List (ℕ × ℕ)) (c : ℕ) : ℕ := (ts.map (fun t => if t.1 = c then t.2 else 0)).sum

/-- The running totals stand for the weights `f`: each category once, with its exact sum. -/
structure Tallies (ts : List (ℕ × ℕ)) (f : ℕ → ℕ) : Prop where
  distinct : (ts.map Prod.fst).Nodup
  positive : ∀ t ∈ ts, 0 < t.2
  exact_sum : held ts = f

lemma held_cons (t : ℕ × ℕ) (ts : List (ℕ × ℕ)) (c : ℕ) :
    held (t::ts) c = (if t.1 = c then t.2 else 0) + held ts c := by simp [held]

lemma held_credit (c w : ℕ) (ts : List (ℕ × ℕ)) (d : ℕ) :
    held (credit c w ts) d = (if c = d then w else 0) + held ts d := by
  induction ts with
  | nil => simp [credit,held]
  | cons t ts ih =>
    unfold credit
    by_cases hc : t.1 = c
    · rw [if_pos hc,held_cons,held_cons]
      simp only [hc]
      split_ifs <;> omega
    · rw [if_neg hc,held_cons,held_cons,ih]
      dsimp only
      omega

lemma held_eq_zero {ts : List (ℕ × ℕ)} {c : ℕ} (h : c ∉ ts.map Prod.fst) : held ts c = 0 := by
  induction ts with
  | nil => rfl
  | cons t ts ih =>
    simp only [List.map_cons,List.mem_cons,not_or] at h
    rw [held_cons,if_neg (Ne.symm h.1),ih h.2]

/-- With distinct categories an entry is what is held for its category. -/
lemma held_of_mem {ts : List (ℕ × ℕ)} (hd : (ts.map Prod.fst).Nodup) {t : ℕ × ℕ} (ht : t ∈ ts) :
    held ts t.1 = t.2 := by
  induction ts with
  | nil => simp at ht
  | cons u us ih =>
    obtain ⟨hnot,hrest⟩ := List.nodup_cons.mp hd
    rw [held_cons]
    rcases List.mem_cons.mp ht with rfl | ht
    · rw [if_pos rfl,held_eq_zero hnot,Nat.add_zero]
    · have hne : u.1 ≠ t.1 := fun he => hnot (he ▸ List.mem_map_of_mem ht)
      rw [if_neg hne,ih hrest ht,Nat.zero_add]

lemma mem_credit_fst {c w d : ℕ} {ts : List (ℕ × ℕ)} (h : d ∈ (credit c w ts).map Prod.fst) :
    d = c ∨ d ∈ ts.map Prod.fst := by
  obtain ⟨t,ht,rfl⟩ := List.mem_map.mp h
  rcases credit_mem ht with hc | ⟨u,hu,he⟩
  · exact .inl hc
  · exact .inr (List.mem_map.mpr ⟨u,hu,he⟩)

lemma credit_distinct {c w : ℕ} {ts : List (ℕ × ℕ)} (h : (ts.map Prod.fst).Nodup) :
    ((credit c w ts).map Prod.fst).Nodup := by
  induction ts with
  | nil => simp [credit]
  | cons t ts ih =>
    obtain ⟨hnot,hrest⟩ := List.nodup_cons.mp h
    unfold credit
    split_ifs with hc
    · exact h
    · refine List.nodup_cons.mpr ⟨fun hm => ?_,ih hrest⟩
      rcases mem_credit_fst hm with he | hm
      · exact hc he
      · exact hnot hm

lemma credit_positive {c w : ℕ} {ts : List (ℕ × ℕ)} (hw : 0 < w) (h : ∀ t ∈ ts, 0 < t.2) :
    ∀ t ∈ credit c w ts, 0 < t.2 := by
  induction ts with
  | nil => simpa [credit] using hw
  | cons u us ih =>
    have hu := h u (by simp)
    have hus : ∀ t ∈ us, 0 < t.2 := fun t ht => h t (by simp [ht])
    intro t ht
    unfold credit at ht
    split_ifs at ht with hc
    · rcases List.mem_cons.mp ht with rfl | ht
      · exact Nat.lt_add_right w hu
      · exact hus t ht
    · rcases List.mem_cons.mp ht with rfl | ht
      · exact hu
      · exact ih hus t ht

/-- One vote keeps the totals exact. -/
lemma Tallies.credit {ts : List (ℕ × ℕ)} {f : ℕ → ℕ} (h : Tallies ts f) {c w : ℕ} (hw : 0 < w) :
    Tallies (credit c w ts) (fun d => (if c = d then w else 0) + f d) where
  distinct := credit_distinct h.distinct
  positive := credit_positive hw h.positive
  exact_sum := by
    funext d
    rw [held_credit,h.exact_sum]

/-- The vote as the pair both accumulators read. -/
def votePair (v : CategoricalVote) : ℕ × ℕ := (v.category,v.weight)

/-- The loop over the votes, from any exact totals. -/
lemma tallies_foldl (votes : List CategoricalVote) (ts : List (ℕ × ℕ)) (f : ℕ → ℕ)
    (h : Tallies ts f) :
    Tallies ((votes.map votePair).foldl
      (fun ts v => if v.2 = 0 then ts else Mirror.credit v.1 v.2 ts) ts)
      (fun d => weightOf votes d + f d) := by
  induction votes generalizing ts f with
  | nil => simpa [weightOf] using h
  | cons v vs ih =>
    rw [List.map_cons,List.foldl_cons]
    by_cases hw : v.weight = 0
    · rw [if_pos (show (votePair v).2 = 0 from hw)]
      have hsame : (fun d => weightOf (v::vs) d + f d) = fun d => weightOf vs d + f d := by
        funext d
        simp [weightOf_cons,hw]
      rw [hsame]
      exact ih ts f h
    · rw [if_neg (show ¬(votePair v).2 = 0 from hw)]
      have hsum : (fun d => weightOf (v::vs) d + f d) =
          fun d => weightOf vs d + ((if v.category = d then v.weight else 0) + f d) := by
        funext d
        rw [weightOf_cons]
        omega
      rw [hsum]
      exact ih _ _ (h.credit (Nat.pos_of_ne_zero hw))

/-- Every category voted for stands once among the totals, with its exact weight. -/
theorem totals_exact (votes : List CategoricalVote) :
    Tallies (totals (votes.map votePair)) (weightOf votes) := by
  have hnil : Tallies [] (fun _ => 0) := ⟨List.nodup_nil,by simp,rfl⟩
  exact tallies_foldl votes [] _ hnil

end Totals

section Winner

lemma voteLe_iff (a b : ℕ × ℕ) : Reducer.voteLe a b ↔ b.2 < a.2 ∨ (a.2 = b.2 ∧ a.1 ≤ b.1) := by
  simp only [Reducer.voteLe,Reducer.voteOrder,ne_eq,Ordering.then_eq_gt,compare_gt_iff_gt,
    compare_eq_iff_eq]
  omega

/-- The first of the sorted totals beats every other. -/
lemma head_voteLe {ts ws : List (ℕ × ℕ)} {w t : ℕ × ℕ}
    (hs : ts.insertionSort Reducer.voteLe = w::ws) (ht : t ∈ ts) : Reducer.voteLe w t := by
  have : Std.Total Reducer.voteLe := ⟨fun a b => by simp only [voteLe_iff]; omega⟩
  have : IsTrans _ Reducer.voteLe := ⟨fun a b c => by simp only [voteLe_iff]; omega⟩
  have hsorted := List.pairwise_insertionSort Reducer.voteLe ts
  have hmem := (List.mem_insertionSort Reducer.voteLe).mpr ht
  rw [hs] at hsorted hmem
  rcases List.mem_cons.mp hmem with rfl | hmem
  · simp [voteLe_iff]
  · exact (List.pairwise_cons.mp hsorted).1 t hmem

/-- A vote of positive weight elects a category. -/
theorem winner_elected {votes : List CategoricalVote} (hpos : ∃ v ∈ votes, 0 < v.weight) :
    ∃ c, winner (votes.map votePair) = some c ∧ Elected votes c := by
  obtain ⟨v,hv,hw⟩ := hpos
  have htally := totals_exact votes
  have hentry : ∀ d, 0 < weightOf votes d → (d,weightOf votes d) ∈ totals (votes.map votePair) := by
    intro d hd
    have hmem : d ∈ (totals (votes.map votePair)).map Prod.fst := by
      by_contra hnot
      rw [← htally.exact_sum,held_eq_zero hnot] at hd
      exact absurd hd (lt_irrefl 0)
    obtain ⟨t,ht,rfl⟩ := List.mem_map.mp hmem
    rwa [← htally.exact_sum,held_of_mem htally.distinct ht]
  cases hs : (totals (votes.map votePair)).insertionSort Reducer.voteLe with
  | nil =>
    have hmem := (List.mem_insertionSort Reducer.voteLe).mpr (hentry _ (weightOf_pos hv hw))
    rw [hs] at hmem
    simp at hmem
  | cons t ts =>
    have ht : t ∈ totals (votes.map votePair) :=
      (List.mem_insertionSort Reducer.voteLe).mp (by simp [hs])
    have hweight : weightOf votes t.1 = t.2 := by
      rw [← htally.exact_sum,held_of_mem htally.distinct ht]
    have hbest : ∀ d, 0 < weightOf votes d →
        weightOf votes d < t.2 ∨ (t.2 = weightOf votes d ∧ t.1 ≤ d) :=
      fun d hd => (voteLe_iff _ _).mp (head_voteLe hs (hentry d hd))
    have hpos := htally.positive t ht
    refine ⟨t.1,by simp [winner,hs],by omega,fun d => ?_,fun d hd => ?_⟩
    · rcases Nat.eq_zero_or_pos (weightOf votes d) with hz | hd
      · omega
      · have := hbest d hd
        omega
    · have := hbest d (by omega)
      omega

lemma Elected.unique {vs ws : List CategoricalVote} {c d : ℕ} (hc : Elected vs c)
    (hd : Elected ws d) (h : weightOf vs = weightOf ws) : c = d := by
  have hle := hc.greatest d
  have hge := hd.greatest c
  rw [← h] at hge
  have he : weightOf vs d = weightOf vs c := by omega
  exact le_antisymm (hc.lowest d he) (hd.lowest c (by rw [← h,he]))

lemma Ballot.totalWeight_lt (b : Ballot) : totalWeight (b.votes.map votePair) < 2^128 := by
  have hle : totalWeight (b.votes.map votePair) ≤ (b.votes.map votePair).length*2^64 := by
    refine Mirror.totalWeight_lt (fun p hp => ?_)
    obtain ⟨v,hv,rfl⟩ := List.mem_map.mp hp
    exact b.weight_lt v hv
  have hlen := b.length_lt
  rw [List.length_map] at hle
  omega

/-- The mirror's dictionary elects the arg-max. -/
lemma cli_elects {votes : List CategoricalVote} (hpos : ∃ v ∈ votes, 0 < v.weight) :
    ∃ c : ℕ, Cli.majorityVote (votes.map voteTuple) = .ok (c : ℤ) ∧ Elected votes c := by
  obtain ⟨c,hc,helected⟩ := winner_elected hpos
  obtain ⟨v,hv,-⟩ := hpos
  have hne : votes.map votePair ≠ [] := by simpa using List.ne_nil_of_mem hv
  have hrun := cli_majorityVote hne hc
  rw [List.map_map] at hrun
  exact ⟨c,hrun,helected⟩

/-- The guest's association list elects the arg-max. -/
lemma reducer_elects {b : Ballot} (hpos : ∃ v ∈ b.votes, 0 < v.weight) :
    ∃ c, Reducer.majorityVote b.votes = .ok c ∧ Elected b.votes c := by
  obtain ⟨c,hc,helected⟩ := winner_elected hpos
  obtain ⟨v,hv,-⟩ := hpos
  have hne : b.votes.map votePair ≠ [] := by simpa using List.ne_nil_of_mem hv
  have hrun := reducer_majorityVote hne b.totalWeight_lt hc
  rw [List.map_map] at hrun
  exact ⟨c,(List.map_id b.votes) ▸ hrun,helected⟩

/-- Positive weight survives a regrouping. -/
lemma Regrouped.exists_positive {vs ws : List CategoricalVote} (h : Regrouped vs ws)
    (hpos : ∃ v ∈ vs, 0 < v.weight) : ∃ v ∈ ws, 0 < v.weight := by
  obtain ⟨v,hv,hw⟩ := hpos
  have hsum := weightOf_pos hv hw
  rw [h.weightOf_eq] at hsum
  by_contra hnone
  push Not at hnone
  have hzero : weightOf ws v.category = 0 := by
    refine List.sum_eq_zero (fun x hx => ?_)
    obtain ⟨u,hu,rfl⟩ := List.mem_map.mp hx
    have := hnone u hu
    split_ifs <;> omega
  omega

/-- `majority_vote` is the weighted arg-max in both implementations, and regrouping the votes does
not move it. -/
theorem majorityVote_argMax (votes : List CategoricalVote) (hpos : ∃ v ∈ votes, 0 < v.weight) :
    ∃ c : ℕ, Elected votes c ∧
      (∀ votes', Regrouped votes votes' →
        Cli.majorityVote (votes'.map voteTuple) = .ok (c : ℤ)) ∧
      ∀ b : Ballot, Regrouped votes b.votes → Reducer.majorityVote b.votes = .ok c := by
  obtain ⟨c,-,helected⟩ := winner_elected hpos
  refine ⟨c,helected,fun votes' h => ?_,fun b h => ?_⟩
  · obtain ⟨d,hd,helected'⟩ := cli_elects (h.exists_positive hpos)
    rw [hd,helected.unique helected' h.weightOf_eq]
  · obtain ⟨d,hd,helected'⟩ := reducer_elects (h.exists_positive hpos)
    rw [hd,helected.unique helected' h.weightOf_eq]

/-- Two categories tie at weight 3; the lower one wins although it was voted for in two parts. -/
def tiedVotes : List CategoricalVote := [⟨2,3⟩,⟨1,2⟩,⟨5,0⟩,⟨1,1⟩]

theorem tiedVotes_elect :
    (∃ v ∈ tiedVotes, 0 < v.weight) ∧ Elected tiedVotes 1 ∧
      Cli.majorityVote ([⟨1,3⟩,⟨2,3⟩,⟨5,0⟩].map voteTuple) = .ok 1 := by
  have hpos : ∃ v ∈ tiedVotes, 0 < v.weight := by decide
  have hregroup : Regrouped tiedVotes [⟨1,3⟩,⟨2,3⟩,⟨5,0⟩] :=
    .trans (.perm (by decide : tiedVotes.Perm [⟨1,2⟩,⟨1,1⟩,⟨2,3⟩,⟨5,0⟩])) (.merge 1 2 1 _)
  let ballot : Ballot := ⟨tiedVotes,by decide,by decide,by decide⟩
  obtain ⟨c,helected,hcli,hguest⟩ := majorityVote_argMax tiedVotes hpos
  have hrun : Reducer.majorityVote tiedVotes = .ok 1 := by decide
  obtain rfl : c = 1 := Except.ok.inj ((hguest ballot (.perm (.refl _))).symm.trans hrun)
  exact ⟨hpos,helected,hcli _ hregroup⟩

end Winner

end Kswarm.Mirror
