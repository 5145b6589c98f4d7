import Kswarm.Reducer.Aggregate

/-! The combiner stage with every 128-bit addition and multiplication watched: an operation that
leaves its type faults instead of refusing or wrapping. Where nothing faults, it is the stage. -/
namespace Kswarm.Reducer

abbrev Watched (α : Type) : Type := Except (Stop CombinerError) α

/-- An `i128` result, or the fault of an overflow. -/
def inI128 (n : ℤ) : Watched ℤ := require (checkedI128 n) .fault

/-- A `u128` result, or the fault of an overflow. -/
def inU128 (n : ℕ) : Watched ℕ := require (checkedU128 n) .fault

def roundHalfUpWatched (numerator denominator : ℤ) : Watched ℕ := do
  failIf (denominator ≤ 0) (.refused .zeroWeight)
  failIf (numerator < 0) (.refused .valueOutOfRange)
  let doubled ← inI128 (numerator*2)
  let top ← inI128 (doubled + denominator)
  let bottom ← inI128 (denominator*2)
  let rounded := Int.tdiv top bottom
  failIf (rounded < 0 ∨ bpsScale < rounded) (.refused .resultOutOfRange)
  pure rounded.toNat

def weightedMeanStepWatched (acc : ℕ × ℤ) (branch : WeightedValue) : Watched (ℕ × ℤ) := do
  returned (checkBps branch.value)
  let totalWeight ← inU128 (acc.1 + branch.weight)
  let product ← inI128 (branch.value*branch.weight)
  let weightedSum ← inI128 (acc.2 + product)
  pure (totalWeight,weightedSum)

/-- The cast of the total weight is watched too. -/
def weightedMeanBpsWatched (branches : List WeightedValue) : Watched ℕ := do
  failIf (branches = []) (.refused .emptyBranches)
  let (totalWeight,weightedSum) ← branches.foldlM weightedMeanStepWatched (0,0)
  failIf (totalWeight = 0) (.refused .zeroWeight)
  let denominator ← inI128 totalWeight
  roundHalfUpWatched weightedSum denominator

def trimCountFromBpsWatched (branchCount trimBps : ℕ) : Watched ℕ := do
  failIf (10000 ≤ trimBps) (.refused .valueOutOfRange)
  let product ← inU128 (branchCount*trimBps)
  pure (product / 10000)

def trimmedMeanBpsWatched (values : List ℤ) (outlierCount : ℕ) : Watched ℕ := do
  let retained ← returned (retainedValues values outlierCount)
  let sum ← retained.foldlM (fun sum value => do
    returned (checkBps value)
    inI128 (sum + value)) 0
  roundHalfUpWatched sum retained.length

def addVoteWatched (category weight : ℕ) : List (ℕ × ℕ) → Watched (List (ℕ × ℕ))
  | [] => pure [(category,weight)]
  | (c,total)::rest =>
    if c = category then do
      let sum ← inU128 (total + weight)
      pure ((c,sum)::rest)
    else do
      let rest ← addVoteWatched category weight rest
      pure ((c,total)::rest)

def tallyWatched (votes : List CategoricalVote) : Watched (List (ℕ × ℕ)) :=
  votes.foldlM (fun totals vote =>
    if vote.weight = 0 then pure totals else addVoteWatched vote.category vote.weight totals) []

def majorityVoteWatched (votes : List CategoricalVote) : Watched ℕ := do
  failIf (votes = []) (.refused .emptyBranches)
  let totals ← tallyWatched votes
  match totals.insertionSort voteLe with
  | [] => .error (.refused .zeroWeight)
  | winner::_ => pure winner.1

def combineWatched (combinerId : ℕ) (params : CombinerParams) (st : LoopState) : Watched ℕ :=
  if combinerId = combinerWeightedMean then weightedMeanBpsWatched st.scalars
  else if combinerId = combinerTrimmedMean then do
    let outlierCount ← trimCountFromBpsWatched st.scalarValues.length params.trimBps
    trimmedMeanBpsWatched st.scalarValues outlierCount
  else if combinerId = combinerMajorityVote then majorityVoteWatched st.votes
  else .error (.refused .unknownCombiner)

section Watching

lemma wrapI128_of_checked {n m : ℤ} (h : checkedI128 n = some m) : wrapI128 n = m := by
  unfold checkedI128 at h
  split_ifs at h with hn
  obtain rfl := Option.some.inj h
  unfold wrapI128
  rw [Int.bmod_eq_of_le (by norm_num; omega) (by norm_num; omega)]

lemma watches_failIf (c : Prop) [Decidable c] (e : CombinerError) :
    Watches (failIf c (.refused e)) (failIf c e) := by
  rw [← returned_failIf]
  exact .refl _

/-- A watched result in range is the wrapped one. -/
lemma watches_wrap (n : ℤ) : Watches (inI128 n) (pure (wrapI128 n)) := by
  intro hne
  unfold inI128 at *
  cases h : checkedI128 n with
  | none =>
    rw [h] at hne
    exact absurd rfl hne
  | some m =>
    rw [wrapI128_of_checked h]
    rfl

/-- The checked additions refuse where the watched ones fault. -/
lemma watches_checkedI128 (n : ℤ) : Watches (inI128 n) (require (checkedI128 n) .overflow) := by
  intro hne
  unfold inI128 at *
  cases h : checkedI128 n with
  | none =>
    rw [h] at hne
    exact absurd rfl hne
  | some m => rfl

lemma watches_checkedU128 (n : ℕ) : Watches (inU128 n) (require (checkedU128 n) .overflow) := by
  intro hne
  unfold inU128 at *
  cases h : checkedU128 n with
  | none =>
    rw [h] at hne
    exact absurd rfl hne
  | some m => rfl

lemma watches_inU128 (n : ℕ) : Watches (inU128 n) (pure n) := by
  intro hne
  unfold inU128 checkedU128 at *
  split_ifs at * with h
  · rfl
  · exact absurd rfl hne

lemma watches_modU128 (n : ℕ) : Watches (inU128 n) (pure (n % 2^128)) := by
  intro hne
  unfold inU128 checkedU128 at *
  split_ifs at * with h
  · rw [Nat.mod_eq_of_lt h]
    rfl
  · exact absurd rfl hne

lemma roundHalfUp_watched (numerator denominator : ℤ) :
    Watches (roundHalfUpWatched numerator denominator) (roundHalfUp numerator denominator) := by
  refine (watches_failIf _ _).bind (fun _ => ?_)
  refine (watches_failIf _ _).bind (fun _ => ?_)
  refine (watches_wrap _).step ?_
  refine (watches_wrap _).step ?_
  refine (watches_wrap _).step ?_
  exact (watches_failIf _ _).bind (fun _ => .pure _)

lemma weightedMeanBps_watched (branches : List WeightedValue) :
    Watches (weightedMeanBpsWatched branches) (weightedMeanBps branches) := by
  refine (watches_failIf _ _).bind (fun _ => ?_)
  refine (Watches.foldlM (fun acc branch => ?_) branches _).bind (fun acc => ?_)
  · refine (Watches.refl _).bind (fun _ => ?_)
    refine (watches_checkedU128 _).bind (fun _ => ?_)
    refine (watches_wrap _).step ?_
    exact (watches_checkedI128 _).bind (fun _ => .pure _)
  · refine (watches_failIf _ _).bind (fun _ => ?_)
    exact (watches_wrap _).step (roundHalfUp_watched _ _)

lemma trimCountFromBps_watched (branchCount trimBps : ℕ) :
    Watches (trimCountFromBpsWatched branchCount trimBps) (trimCountFromBps branchCount trimBps) := by
  refine (watches_failIf _ _).bind (fun _ => ?_)
  exact (watches_inU128 _).step (.pure _)

lemma trimmedMeanBps_watched (values : List ℤ) (outlierCount : ℕ) :
    Watches (trimmedMeanBpsWatched values outlierCount) (trimmedMeanBps values outlierCount) := by
  refine (Watches.refl _).bind (fun retained => ?_)
  refine (Watches.foldlM (fun sum value => ?_) retained _).bind
    (fun sum => roundHalfUp_watched _ _)
  refine (Watches.refl _).bind (fun _ => ?_)
  exact watches_wrap _

lemma addVote_watched (category weight : ℕ) (totals : List (ℕ × ℕ)) :
    Watches (addVoteWatched category weight totals) (pure (addVote category weight totals)) := by
  induction totals with
  | nil => exact .pure _
  | cons t totals ih =>
    simp only [addVoteWatched,addVote]
    split_ifs with h
    · exact (watches_modU128 _).step (.pure _)
    · exact ih.step (.pure _)

lemma tally_watched (votes : List CategoricalVote) :
    Watches (tallyWatched votes) (pure (tally votes)) := by
  have hfold : (pure (tally votes) : Except CombinerError _) = votes.foldlM (fun totals vote =>
      pure (if vote.weight = 0 then totals else addVote vote.category vote.weight totals)) [] := by
    rw [List.foldlM_pure]
    rfl
  rw [hfold]
  refine Watches.foldlM (fun totals vote => ?_) votes []
  split_ifs with h
  · exact .pure _
  · exact addVote_watched _ _ _

lemma majorityVote_watched (votes : List CategoricalVote) :
    Watches (majorityVoteWatched votes) (majorityVote votes) := by
  refine (watches_failIf _ _).bind (fun _ => ?_)
  refine (tally_watched votes).step ?_
  cases (tally votes).insertionSort voteLe with
  | nil => exact .refl (.error CombinerError.zeroWeight)
  | cons winner rest => exact .pure winner.1

/-- Where no 128-bit operation overflows, the watched stage is the combiner stage. -/
theorem combine_watched (combinerId : ℕ) (params : CombinerParams) (st : LoopState) :
    Watches (combineWatched combinerId params st) (combine combinerId params st) := by
  unfold combineWatched combine
  split_ifs
  · exact weightedMeanBps_watched _
  · exact (trimCountFromBps_watched _ _).bind (fun _ => trimmedMeanBps_watched _ _)
  · exact majorityVote_watched _
  · exact .refl (.error CombinerError.unknownCombiner)

end Watching
end Kswarm.Reducer
