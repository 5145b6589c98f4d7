import Kswarm.Planner.Plan
import Mathlib.Algebra.BigOperators.Ring.Finset
import Mathlib.Algebra.Order.BigOperators.Group.List
import Mathlib.Data.ENat.Lattice

/-! The rewards of a plan against its budget. A share is the budget times the branch's multiplier
over the number of branches alone, so a multiplier above one, a verification job and the minimum
of one unit all come on top of the equal split, and only the remainder of the division is left to
pay for them. -/
namespace Kswarm.Planner
open Number

def Branch.multiplier (branch : Branch) : ℕ :=
  (IntegerNumber.orElse (some branch.requiredStakeMultiplier) .one).value

/-- A branch that is verified by a second job. -/
def Branch.Rerun (branch : Branch) : Prop := branch.verificationMode = js "replicated-rerun"

instance (branch : Branch) : Decidable branch.Rerun := inferInstanceAs (Decidable (_ = _))

lemma Branch.one_le_multiplier (branch : Branch) : 1 ≤ branch.multiplier := by
  simp only [Branch.multiplier,IntegerNumber.orElse]
  split_ifs with h
  · exact le_refl 1
  · exact Nat.one_le_iff_ne_zero.mpr h

def SwarmPlan.totalReward (plan : SwarmPlan) : ℕ∞ :=
  (plan.childJobs.map ChildJob.rewardShare).sum + plan.aggregateChildJob.rewardShare

namespace ParentRequest
variable (parent : ParentRequest)

def budget : ℕ := parent.rewardBudget.value

def count : ℕ := parent.branches.length

/-- The units of a job before the minimum of one. -/
def units (branch : Branch) (weight : ℚ) : ℕ∞ :=
  floor (dividedBy (times (times (some parent.budget) branch.multiplier) weight) parent.count)

/-- The budget over the number of branches. -/
def equalShare : ℕ∞ := floor (dividedBy (some parent.budget) parent.count)

def branchUnits (branch : Branch) : ℕ∞ :=
  parent.units branch 1 + if branch.Rerun then atLeastOne (parent.units branch (1/2)) else 0

/-- No budget, or a unit for every branch and room for what the branches take. -/
def Within : Prop := parent.budget = 0 ∨
  parent.count ≤ parent.budget ∧ (parent.branches.map parent.branchUnits).sum ≤ parent.budget

/-- What a branch takes above the equal share, in exact arithmetic. -/
def overrun (branch : Branch) : ℕ :=
  parent.budget / parent.count*(branch.multiplier - 1) +
    parent.budget % parent.count*branch.multiplier / parent.count +
    if branch.Rerun then max 1 (parent.budget*branch.multiplier / (2*parent.count)) else 0

/-- The shares of a branch's jobs. -/
def branchTotal (branch : Branch) : ℕ∞ := computeRewardShare parent branch 1 +
  if branch.Rerun then computeRewardShare parent branch (1/2) else 0

variable {parent}

lemma computeRewardShare_eq (branch : Branch) (weight : ℚ) : computeRewardShare parent branch weight =
    if 0 < parent.budget then atLeastOne (parent.units branch weight) else 0 := rfl

lemma branchJobs_rewardShare (branch : Branch) :
    ((branchJobs parent branch).map ChildJob.rewardShare).sum = parent.branchTotal branch := by
  simp only [branchJobs,branchTotal]
  by_cases h : branch.verificationMode = js "replicated-rerun"
  · rw [if_pos h,if_pos (show branch.Rerun from h),List.map_cons,List.sum_cons,List.map_singleton,
      List.sum_singleton]
    rfl
  · rw [if_neg h,if_neg (show ¬branch.Rerun from h),List.map_cons,List.sum_cons,List.map_nil,
      List.sum_nil]
    rfl

lemma sum_branchJobs (branches : List Branch) :
    ((branches.flatMap (branchJobs parent)).map ChildJob.rewardShare).sum =
      (branches.map parent.branchTotal).sum := by
  induction branches with
  | nil => rfl
  | cons branch branches ih =>
    rw [List.flatMap_cons,List.map_append,List.sum_append,branchJobs_rewardShare,ih,List.map_cons,
      List.sum_cons]

lemma one_le_branchTotal (h : 0 < parent.budget) (branch : Branch) :
    1 ≤ parent.branchTotal branch := by
  rw [branchTotal,computeRewardShare_eq,if_pos h]
  exact le_add_right (one_le_atLeastOne _)

/-- With a unit of budget for every branch the minimum of one changes no execution share. -/
lemma one_le_units (hcount : 1 ≤ parent.count) (hsize : parent.count < 2^32)
    (h : parent.count ≤ parent.budget) (branch : Branch) : 1 ≤ parent.units branch 1 := by
  have hsome : AtLeast (some (parent.budget : ℚ)) parent.count :=
    (atLeast_some _).mono (by exact_mod_cast h)
  have hwide : parent.count ≤ 2^53 := hsize.le.trans (by norm_num)
  have hmul : (1 : ℚ) ≤ branch.multiplier := by exact_mod_cast branch.one_le_multiplier
  have hone := ((hsome.times_natCast hcount hwide hmul).times_natCast hcount hwide le_rfl).dividedBy_one
    (by exact_mod_cast hcount)
  simpa [units] using hone.le_floor

lemma sum_const_le {f : Branch → ℕ∞} {e : ℕ∞} (h : ∀ branch ∈ parent.branches, e ≤ f branch) :
    parent.count*e ≤ (parent.branches.map f).sum := by
  have hle := List.card_nsmul_le_sum (parent.branches.map f) e (by simpa using h)
  rwa [List.length_map,nsmul_eq_mul] at hle

lemma within_iff_of_pos (h : 0 < parent.budget) : parent.Within ↔ parent.count ≤ parent.budget ∧
    (parent.branches.map parent.branchUnits).sum ≤ parent.budget :=
  or_iff_right h.ne'

lemma total_le_iff (hcount : 1 ≤ parent.count) (hsize : parent.count < 2^32) :
    (parent.branches.map parent.branchTotal).sum ≤ parent.budget ↔ parent.Within := by
  rcases Nat.eq_zero_or_pos parent.budget with hzero | hpos
  · have hsum : (parent.branches.map parent.branchTotal).sum = 0 := by
      refine List.sum_eq_zero (fun share hshare => ?_)
      obtain ⟨branch,-,rfl⟩ := List.mem_map.mp hshare
      have hnone : ¬0 < parent.budget := by omega
      rw [branchTotal,computeRewardShare_eq,computeRewardShare_eq,if_neg hnone,if_neg hnone,
        ite_self,add_zero]
    rw [hsum]
    exact iff_of_true zero_le (.inl hzero)
  · rw [within_iff_of_pos hpos]
    by_cases hle : parent.count ≤ parent.budget
    · have hshares : ∀ branch ∈ parent.branches,
          parent.branchTotal branch = parent.branchUnits branch := by
        intro branch _
        rw [branchTotal,branchUnits,computeRewardShare_eq,computeRewardShare_eq,if_pos hpos,
          if_pos hpos,atLeastOne_of_one_le (one_le_units hcount hsize hle branch)]
      rw [List.map_congr_left hshares]
      exact (and_iff_right hle).symm
    · -- every branch has a unit at least
      refine iff_of_false (fun h => hle ?_) (fun h => hle h.1)
      have hsum : parent.count*1 ≤ (parent.branches.map parent.branchTotal).sum :=
        sum_const_le (fun branch _ => one_le_branchTotal hpos branch)
      rw [mul_one] at hsum
      exact_mod_cast hsum.trans h

section Exact

variable {branch : Branch}

lemma times_budget (hsafe : parent.budget*branch.multiplier < 2^53) :
    times (some (parent.budget : ℚ)) branch.multiplier =
      some ((parent.budget*branch.multiplier : ℕ) : ℚ) := by
  rw [← Binary64.nearest_natCast hsafe,Nat.cast_mul]
  rfl

variable (hcount : 1 ≤ parent.count) (hsize : parent.count < 2^32)
  (hsafe : parent.budget*branch.multiplier < 2^53)
include hcount hsize hsafe

/-- While the product is below `2^53` the share is the integer quotient. -/
lemma units_one : parent.units branch 1 =
    (parent.budget*branch.multiplier / parent.count : ℕ) := by
  obtain ⟨v,hv,hfloor⟩ := Binary64.floor_nearest_div hsafe hcount (hsize.trans (by norm_num))
  have hsame : times (some ((parent.budget*branch.multiplier : ℕ) : ℚ)) 1 =
      some ((parent.budget*branch.multiplier : ℕ) : ℚ) := by
    rw [← Binary64.nearest_natCast hsafe,times,Binary64.nearest_natCast hsafe,Option.bind_some,
      mul_one,Binary64.nearest_natCast hsafe]
  rw [units,times_budget hsafe,hsame,← hfloor]
  exact congrArg floor hv

lemma units_half : parent.units branch (1/2) =
    (parent.budget*branch.multiplier / (2*parent.count) : ℕ) := by
  obtain ⟨v,hv,hfloor⟩ := Binary64.floor_nearest_div (n := 2*parent.count) hsafe (by omega) (by omega)
  have hhalf : times (some ((parent.budget*branch.multiplier : ℕ) : ℚ)) (1/2) =
      some (((parent.budget*branch.multiplier : ℕ) : ℚ)/2) := by
    rw [← Binary64.nearest_half hsafe,times,Option.bind_some,mul_one_div]
  have hdiv : ((parent.budget*branch.multiplier : ℕ) : ℚ)/2/parent.count =
      ((parent.budget*branch.multiplier : ℕ) : ℚ)/((2*parent.count : ℕ) : ℚ) := by
    rw [div_div]
    push_cast
    rfl
  rw [units,times_budget hsafe,hhalf,← hfloor,dividedBy,Option.bind_some,hdiv,hv]
  rfl

lemma branchUnits_eq : parent.branchUnits branch =
    ((parent.budget / parent.count + parent.overrun branch : ℕ) : ℕ∞) := by
  have hquot : parent.budget*branch.multiplier / parent.count =
      parent.budget / parent.count + (parent.budget / parent.count*(branch.multiplier - 1) +
        parent.budget % parent.count*branch.multiplier / parent.count) := by
    obtain ⟨m,hm⟩ := Nat.exists_eq_add_of_le' branch.one_le_multiplier
    have hsplit : parent.budget*branch.multiplier = parent.budget % parent.count*branch.multiplier +
        parent.count*(parent.budget / parent.count*branch.multiplier) := by
      conv_lhs => rw [← Nat.mod_add_div parent.budget parent.count]
      ring
    rw [hsplit,Nat.add_mul_div_left _ _ hcount,hm,Nat.add_sub_cancel]
    ring
  rw [branchUnits,units_one hcount hsize hsafe,units_half hcount hsize hsafe,hquot,overrun]
  split_ifs with h
  · rw [atLeastOne_natCast,← Nat.cast_add,add_assoc]
  · rw [add_zero,add_zero]

end Exact

/-- While every product is below `2^53`, a plan stays within its budget exactly when the remainder
of the equal split pays for what the branches take above it. -/
lemma within_iff_overrun (hcount : 1 ≤ parent.count) (hsize : parent.count < 2^32)
    (hsafe : ∀ branch ∈ parent.branches, parent.budget*branch.multiplier < 2^53) :
    parent.Within ↔ parent.budget = 0 ∨ parent.count ≤ parent.budget ∧
      (parent.branches.map parent.overrun).sum ≤ parent.budget % parent.count := by
  have hunits : (parent.branches.map parent.branchUnits).sum =
      ((parent.count*(parent.budget / parent.count) +
        (parent.branches.map parent.overrun).sum : ℕ) : ℕ∞) := by
    rw [List.map_congr_left (fun branch h => branchUnits_eq hcount hsize (hsafe branch h))]
    have hcast := Nat.cast_list_sum (R := ℕ∞)
      (parent.branches.map (fun b => parent.budget / parent.count + parent.overrun b))
    rw [List.map_map] at hcast
    refine hcast.symm.trans (congrArg Nat.cast ?_)
    rw [List.sum_map_add,List.map_const',List.sum_replicate,smul_eq_mul]
    rfl
  have hdiv := Nat.div_add_mod parent.budget parent.count
  rw [Within,hunits,Nat.cast_le]
  refine or_congr_right (and_congr_right (fun _ => ?_))
  omega

section Large

/-- What a weight of one brings at least, whatever the rounding. -/
def leastUnits (parent : ParentRequest) : ℚ :=
  parent.budget / parent.count*(1 - 2^(-51 : ℤ))

lemma leastUnits_nonneg : 0 ≤ parent.leastUnits :=
  mul_nonneg (div_nonneg (Nat.cast_nonneg _) (Nat.cast_nonneg _)) (by norm_num)

lemma sum_add_le {f : Branch → ℕ∞} {e g : ℕ} (h : ∀ branch ∈ parent.branches, (e : ℕ∞) ≤ f branch)
    {branch : Branch} (hmem : branch ∈ parent.branches) (hextra : ((e + g : ℕ) : ℕ∞) ≤ f branch) :
    ((parent.count*e + g : ℕ) : ℕ∞) ≤ (parent.branches.map f).sum := by
  have hpart : ∀ part : List Branch, part ⊆ parent.branches →
      ((part.length*e : ℕ) : ℕ∞) ≤ (part.map f).sum := by
    intro part hsub
    have hle := List.card_nsmul_le_sum (part.map f) (e : ℕ∞)
      (by simpa using fun branch hb => h branch (hsub hb))
    rwa [List.length_map,nsmul_eq_mul,← Nat.cast_mul] at hle
  obtain ⟨before,after,hsplit⟩ := List.append_of_mem hmem
  have hbefore := hpart before (by simp [hsplit])
  have hafter := hpart after (by simp [hsplit])
  have hcount : parent.count*e + g = before.length*e + (e + g + after.length*e) := by
    rw [count,hsplit,List.length_append,List.length_cons]
    ring
  rw [hcount,hsplit,List.map_append,List.sum_append,List.map_cons,List.sum_cons,Nat.cast_add,
    Nat.cast_add (e + g)]
  exact add_le_add hbefore (add_le_add hextra hafter)

variable (hcount : 1 ≤ parent.count) (hlarge : 8*parent.count^2 ≤ parent.budget)
include hcount hlarge

lemma large_quotient : 8*(parent.count : ℚ) ≤ parent.budget / parent.count := by
  have hn : (0 : ℚ) < parent.count := by exact_mod_cast hcount
  rw [le_div_iff₀ hn,mul_assoc,← pow_two]
  exact_mod_cast hlarge

lemma le_units (branch : Branch) (weight : ℚ) (hweight : 1/2 ≤ weight) :
    (⌊parent.leastUnits*(branch.multiplier*weight)⌋₊ : ℕ∞) ≤ parent.units branch weight := by
  have hn : (1 : ℚ) ≤ parent.count := by exact_mod_cast hcount
  have hm : (1 : ℚ) ≤ branch.multiplier := by exact_mod_cast branch.one_le_multiplier
  have hpos : (0 : ℚ) < parent.count := by linarith
  have hq : (8 : ℚ) ≤ parent.budget / parent.count := by
    linarith [large_quotient hcount hlarge]
  have hw : (0 : ℚ) ≤ weight := by linarith
  have hb : (8 : ℚ) ≤ parent.budget*branch.multiplier := by
    have hbudget : (8 : ℚ) ≤ parent.budget := hq.trans (div_le_self (Nat.cast_nonneg _) hn)
    exact hbudget.trans (le_mul_of_one_le_right (by linarith) hm)
  have hquot : (4 : ℚ) ≤ parent.budget*branch.multiplier*weight/parent.count := by
    have hqm : (8 : ℚ) ≤ parent.budget / parent.count*branch.multiplier :=
      hq.trans (le_mul_of_one_le_right (by linarith) hm)
    calc (4 : ℚ) = 8*(1/2) := by norm_num
      _ ≤ parent.budget / parent.count*branch.multiplier*weight :=
        mul_le_mul hqm hweight (by norm_num) (by linarith)
      _ = parent.budget*branch.multiplier*weight/parent.count := by ring
  have hproduct : (4 : ℚ) ≤ parent.budget*branch.multiplier*weight := by
    calc (4 : ℚ) = 8*(1/2) := by norm_num
      _ ≤ parent.budget*branch.multiplier*weight :=
        mul_le_mul hb hweight (by norm_num) (by linarith)
  have hunits := (atLeast_quotient (by linarith) hw hpos (by linarith) (by linarith)
    (by linarith : (2 : ℚ) ≤ parent.budget*branch.multiplier*weight/parent.count)).le_floor
  refine le_trans (le_of_eq ?_) hunits
  rw [leastUnits]
  congr 2
  ring

/-- An addition of half a share is more than the equal split leaves. -/
lemma budget_lt_extra (hsize : parent.count < 2^32) :
    parent.budget < parent.count*⌊parent.leastUnits⌋₊ + ⌊parent.leastUnits/2⌋₊ := by
  have hn : (1 : ℚ) ≤ parent.count := by exact_mod_cast hcount
  have hq := large_quotient hcount hlarge
  have hsmall : (parent.count : ℚ) ≤ 2^32 := by exact_mod_cast hsize.le
  have hshare := Nat.lt_floor_add_one parent.leastUnits
  have hhalf := Nat.lt_floor_add_one (parent.leastUnits/2)
  have hbudget : (parent.count : ℚ)*(parent.budget / parent.count) = parent.budget :=
    mul_div_cancel₀ _ (by linarith)
  have hloss : (parent.budget : ℚ)/parent.count*(parent.count*2^(-51 : ℤ)) ≤
      parent.budget / parent.count*(1/8) := by
    refine mul_le_mul_of_nonneg_left ?_ (by linarith)
    norm_num
    linarith
  have hsum : (parent.budget : ℚ) <
      parent.count*⌊parent.leastUnits⌋₊ + ⌊parent.leastUnits/2⌋₊ := by
    have hmul := mul_lt_mul_of_pos_left hshare (by linarith : (0 : ℚ) < parent.count)
    have hleast : parent.leastUnits = parent.budget / parent.count*(1 - 2^(-51 : ℤ)) := rfl
    have hcountLeast : parent.count*parent.leastUnits =
        parent.budget - parent.budget / parent.count*(parent.count*2^(-51 : ℤ)) := by
      rw [hleast,← mul_assoc,hbudget,mul_sub,mul_one,← mul_assoc,mul_comm (parent.budget / _ : ℚ),
        hbudget]
    rw [mul_add,hcountLeast] at hmul
    norm_num at hleast
    linarith
  exact_mod_cast hsum

end Large

/-- A branch with a weight above one or a verification job takes half a share more. -/
lemma extra_le_branchUnits (hcount : 1 ≤ parent.count) (hlarge : 8*parent.count^2 ≤ parent.budget)
    {branch : Branch} (h : ¬(branch.multiplier = 1 ∧ ¬branch.Rerun)) :
    ((⌊parent.leastUnits⌋₊ + ⌊parent.leastUnits/2⌋₊ : ℕ) : ℕ∞) ≤ parent.branchUnits branch := by
  have hnonneg := parent.leastUnits_nonneg
  have hshare := le_units hcount hlarge branch 1 (by norm_num)
  have hm : (1 : ℚ) ≤ branch.multiplier := by exact_mod_cast branch.one_le_multiplier
  by_cases hrerun : branch.Rerun
  · have hhalf := le_units hcount hlarge branch (1/2) le_rfl
    rw [branchUnits,if_pos hrerun,Nat.cast_add]
    refine add_le_add (le_trans (Nat.cast_le.mpr (Nat.floor_mono ?_)) hshare)
      (le_trans (Nat.cast_le.mpr (Nat.floor_mono ?_)) (hhalf.trans (le_atLeastOne _)))
    · rw [mul_one]
      exact le_mul_of_one_le_right hnonneg hm
    · rw [div_eq_mul_one_div]
      exact mul_le_mul_of_nonneg_left (le_mul_of_one_le_left (by norm_num) hm) hnonneg
  · have htwo : (2 : ℚ) ≤ branch.multiplier := by
      have hne : branch.multiplier ≠ 1 := fun he => h ⟨he,hrerun⟩
      have hone := branch.one_le_multiplier
      have hle : 2 ≤ branch.multiplier := by omega
      exact_mod_cast hle
    rw [branchUnits,if_neg hrerun,add_zero]
    refine le_trans (Nat.cast_le.mpr (Nat.le_floor ?_)) hshare
    have hfloor := Nat.floor_le hnonneg
    have hhalf := Nat.floor_le (div_nonneg hnonneg (by norm_num : (0 : ℚ) ≤ 2))
    have hmul := mul_le_mul_of_nonneg_left htwo hnonneg
    rw [mul_one]
    push_cast
    linarith

/-- The share of a branch with a weight of one is the equal share. -/
lemma branchUnits_of_plain {branch : Branch} (hm : branch.multiplier = 1) (h : ¬branch.Rerun) :
    parent.branchUnits branch = parent.equalShare := by
  have hsame : times (some (parent.budget : ℚ)) 1 = some (parent.budget : ℚ) := by
    rw [times,Option.bind_some,mul_one]
    exact parent.rewardBudget.representable
  rw [branchUnits,if_neg h,add_zero,units,hm,Nat.cast_one,hsame,hsame,equalShare]

/-- A plan that divides a budget much larger than its branches stays within it only where nothing is
added to the equal shares. -/
lemma within_iff_equal (hcount : 1 ≤ parent.count) (hsize : parent.count < 2^32)
    (hlarge : 8*parent.count^2 ≤ parent.budget) :
    parent.Within ↔ (∀ branch ∈ parent.branches, branch.multiplier = 1 ∧ ¬branch.Rerun) ∧
      parent.count*parent.equalShare ≤ parent.budget := by
  have hsquare : parent.count ≤ parent.count^2 := Nat.le_self_pow (by norm_num) _
  rw [within_iff_of_pos (by omega),and_iff_right (by omega : parent.count ≤ parent.budget)]
  by_cases hplain : ∀ branch ∈ parent.branches, branch.multiplier = 1 ∧ ¬branch.Rerun
  · have hequal : (parent.branches.map parent.branchUnits).sum = parent.count*parent.equalShare := by
      rw [List.map_congr_left (fun branch h =>
        branchUnits_of_plain (hplain branch h).1 (hplain branch h).2),List.map_const',
        List.sum_replicate,nsmul_eq_mul]
      rfl
    rw [hequal]
    exact (and_iff_right hplain).symm
  · refine iff_of_false (fun h => ?_) (fun h => hplain h.1)
    push Not at hplain
    obtain ⟨branch,hmem,hextra⟩ := hplain
    have hleast : ∀ branch ∈ parent.branches,
        (⌊parent.leastUnits⌋₊ : ℕ∞) ≤ parent.branchUnits branch := by
      intro branch _
      have hm : (1 : ℚ) ≤ branch.multiplier := by exact_mod_cast branch.one_le_multiplier
      refine le_trans ?_ (le_add_right (le_units hcount hlarge branch 1 (by norm_num)))
      rw [mul_one]
      exact Nat.cast_le.mpr (Nat.floor_mono (le_mul_of_one_le_right parent.leastUnits_nonneg hm))
    have hsum := sum_add_le hleast hmem
      (extra_le_branchUnits hcount hlarge (fun hc => hc.2 (hextra hc.1)))
    have hlt := budget_lt_extra hcount hlarge hsize
    exact absurd (Nat.cast_le.mp (hsum.trans h)) (by omega)

end ParentRequest

lemma totalReward_of_expand {parent : ParentRequest} {plan : SwarmPlan}
    (h : expandParentIntoChildJobs parent = .ok plan) :
    plan.totalReward = (parent.branches.map parent.branchTotal).sum := by
  simp only [expandParentIntoChildJobs,bind_eq_ok,failIf_eq_ok,pure_eq_ok,exists_and_left,
    exists_const] at h
  obtain ⟨-,rfl⟩ := h
  rw [SwarmPlan.totalReward,ParentRequest.sum_branchJobs]
  exact add_zero _

/-- A template of `example-swarm-plan.mjs`. -/
def Template.world (branchKey scenarioLabel : String) (highValue : Option Bool)
    (verificationMode : Option CodeUnits) : Template where
  branchKey := some (js branchKey)
  deterministicReducer := none
  highValue := highValue
  requiredStakeMultiplier := none
  scenarioLabel := some (js scenarioLabel)
  verificationMode := verificationMode
  zkvmProgramDigest := some (js "branch-reducer-v1")

/-- The budget and the templates of `example-swarm-plan.mjs`, up to the mode of the third one, under
shorter ids. -/
def Request.worlds (verificationMode : Option CodeUnits) : Request where
  aggregateZkvmProgramDigest := none
  branchPlanName := js "default-branch-plan-v1"
  branchTemplates := some [
    .world "baseline" "Baseline world" none none,
    .world "optimistic" "Optimistic world" none none,
    .world "pessimistic" "Pessimistic world" (some true) verificationMode,
    .world "tariff-shock" "Tariff shock" (some true) none]
  inputCid := some (js "i")
  inputHash := some (js "h")
  parentRequestId := some (js "p")
  rewardBudget := .ofNat 300 (by norm_num)
  simulationObjective := none
  verificationPolicy := js "proofs-plus-challenge"
  sized := by
    intro templates h
    obtain rfl := Option.some.inj h
    exact Nat.lt_of_lt_of_le (Nat.lt_succ_self 4) (by decide)

/-- When the rewards of a plan stay within the budget: for every request, in exact arithmetic while
the weighted budget is below `2^53`, and for a budget large against the number of branches. -/
theorem totalReward_le_budget_iff {r : Request} {parent : ParentRequest}
    (h : buildParentSwarmRequest r = .ok parent) :
    ∃ plan, expandParentIntoChildJobs parent = .ok plan ∧
      (plan.totalReward ≤ parent.budget ↔ parent.Within) ∧
      ((∀ branch ∈ parent.branches, parent.budget*branch.multiplier < 2^53) →
        (plan.totalReward ≤ parent.budget ↔ parent.budget = 0 ∨ parent.count ≤ parent.budget ∧
          (parent.branches.map parent.overrun).sum ≤ parent.budget % parent.count)) ∧
      (8*parent.count^2 ≤ parent.budget →
        (plan.totalReward ≤ parent.budget ↔
          (∀ branch ∈ parent.branches, branch.multiplier = 1 ∧ ¬branch.Rerun) ∧
            parent.count*parent.equalShare ≤ parent.budget)) := by
  obtain ⟨hne,hsize⟩ := branches_of_build h
  have hcount : 1 ≤ parent.count := List.length_pos_of_ne_nil hne
  have hplan := expand_of_build h
  have hwithin := ParentRequest.total_le_iff hcount hsize
  rw [← totalReward_of_expand hplan] at hwithin
  refine ⟨_,hplan,hwithin,fun hsafe => ?_,fun hlarge => ?_⟩
  · rw [hwithin,ParentRequest.within_iff_overrun hcount hsize hsafe]
  · rw [hwithin,ParentRequest.within_iff_equal hcount hsize hlarge]

theorem totalReward_worlds :
    ∃ parent plan, buildParentSwarmRequest (.worlds none) = .ok parent ∧
      expandParentIntoChildJobs parent = .ok plan ∧ plan.totalReward ≤ parent.budget := by
  obtain ⟨plan,hplan,-,hexact,-⟩ := totalReward_le_budget_iff (r := .worlds none) rfl
  refine ⟨_,plan,rfl,hplan,(hexact ?_).mpr (.inr ⟨?_,?_⟩)⟩
  · decide
  · decide
  · decide

/-- With its own third template the example hands out 337 of 300. -/
theorem totalReward_worlds_rerun :
    ∃ parent plan,
      buildParentSwarmRequest (.worlds (some (js "replicated-rerun"))) = .ok parent ∧
      expandParentIntoChildJobs parent = .ok plan ∧ ¬plan.totalReward ≤ parent.budget := by
  have hparent : buildParentSwarmRequest (.worlds (some (js "replicated-rerun"))) = .ok _ := rfl
  have hplan := expand_of_build hparent
  obtain ⟨hne,hsize⟩ := branches_of_build hparent
  have hcount := List.length_pos_of_ne_nil hne
  refine ⟨_,_,hparent,hplan,?_⟩
  rw [totalReward_of_expand hplan,ParentRequest.total_le_iff hcount hsize,
    ParentRequest.within_iff_overrun hcount hsize (by decide)]
  decide

end Kswarm.Planner
