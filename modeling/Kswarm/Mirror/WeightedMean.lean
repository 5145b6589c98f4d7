import Kswarm.Mirror.Combiner

/-! The weighted mean as a rounded quotient: the nearest integer, ties up, in whatever order the
pairs come, and growing with every value. -/
namespace Kswarm.Mirror

section Rounding
variable {n m d : ℕ}

/-- The division of doubled quantities lands in the half-open interval around the quotient. -/
lemma halfUp_bounds (hd : 0 < d) : 2*n < 2*(halfUp n d)*d + d ∧ 2*(halfUp n d)*d ≤ 2*n + d := by
  have hdiv := Nat.div_add_mod (2*n + d) (2*d)
  have hmod := Nat.mod_lt (2*n + d) (show 0 < 2*d by omega)
  have hprod : 2*d*((2*n + d)/(2*d)) = 2*(halfUp n d)*d := by
    rw [halfUp]
    ring
  rw [hprod] at hdiv
  omega

/-- Only one integer lies in that interval. -/
lemma halfUp_unique (hd : 0 < d) (r : ℤ) :
    (2*(n : ℤ) - d < 2*r*d ∧ 2*r*d ≤ 2*n + d) ↔ r = halfUp n d := by
  obtain ⟨hlow,hhigh⟩ := halfUp_bounds (n := n) hd
  have hlow' : 2*(n : ℤ) - d < 2*(halfUp n d : ℤ)*d := by
    have : ((2*n : ℕ) : ℤ) < ((2*(halfUp n d)*d + d : ℕ) : ℤ) := by exact_mod_cast hlow
    push_cast at this
    linarith
  have hhigh' : 2*(halfUp n d : ℤ)*d ≤ 2*n + d := by exact_mod_cast hhigh
  have hd' : (0 : ℤ) < d := by exact_mod_cast hd
  constructor
  · rintro ⟨hr,hr'⟩
    have hle : r ≤ halfUp n d := by
      by_contra hlt
      have : (halfUp n d : ℤ) + 1 ≤ r := by omega
      nlinarith
    have hge : (halfUp n d : ℤ) ≤ r := by
      by_contra hlt
      have : r + 1 ≤ (halfUp n d : ℤ) := by omega
      nlinarith
    omega
  · rintro rfl
    exact ⟨hlow',hhigh'⟩

lemma halfUp_mono (h : n ≤ m) : halfUp n d ≤ halfUp m d :=
  Nat.div_le_div_right (by omega)

end Rounding

section Pairs
variable {ps ps' : List (ℕ × ℕ)}

lemma totalWeight_perm (h : ps.Perm ps') : totalWeight ps = totalWeight ps' :=
  (h.map Prod.snd).sum_eq

lemma weightedSum_perm (h : ps.Perm ps') : weightedSum ps = weightedSum ps' :=
  (h.map _).sum_eq

/-- The same weights on values that are all at least as large. -/
def Raised (ps ps' : List (ℕ × ℕ)) : Prop :=
  List.Forall₂ (fun p q => p.1 ≤ q.1 ∧ p.2 = q.2) ps ps'

lemma Raised.totalWeight_eq (h : Raised ps ps') : totalWeight ps = totalWeight ps' := by
  induction h with
  | nil => rfl
  | cons hpq _ ih => rw [totalWeight_cons,totalWeight_cons,hpq.2,ih]

lemma Raised.weightedSum_le (h : Raised ps ps') : weightedSum ps ≤ weightedSum ps' := by
  induction h with
  | nil => exact le_rfl
  | cons hpq _ ih =>
    rw [weightedSum_cons,weightedSum_cons,hpq.2]
    exact Nat.add_le_add (Nat.mul_le_mul_right _ hpq.1) ih

lemma Raised.weightedMean_le (h : Raised ps ps') : weightedMean ps ≤ weightedMean ps' := by
  rw [weightedMean,weightedMean,h.totalWeight_eq]
  exact halfUp_mono h.weightedSum_le

end Pairs

/-- The pairs as the guest and as the command line hold them. -/
def guestPairs (ps : List (ℕ × ℕ)) : List Reducer.WeightedValue := ps.map (fun p => ⟨p.1,p.2⟩)
def cliPairs (ps : List (ℕ × ℕ)) : List (ℤ × ℤ) := ps.map (fun p => ((p.1 : ℤ),(p.2 : ℤ)))

/-- Both implementations return `r` for the pairs. -/
def BothReturn (ps : List (ℕ × ℕ)) (r : ℕ) : Prop :=
  Reducer.weightedMeanBps (guestPairs ps) = .ok r ∧ Cli.weightedMeanBps (cliPairs ps) = .ok (r : ℤ)

lemma bothReturn {ps : List (ℕ × ℕ)} (hv : ∀ p ∈ ps, p.1 ≤ 10000) (hpos : 0 < totalWeight ps)
    (hroom : Roomy ps) : BothReturn ps (weightedMean ps) :=
  ⟨reducer_weightedMean hv hpos hroom,cli_weightedMean hv hpos⟩

/-- While the sums have room, both implementations return the one integer nearest to the quotient,
ties up; reordering the pairs does not change it and raising values does not lower it. -/
theorem weighted_mean_rounds (ps : List (ℕ × ℕ)) (hv : ∀ p ∈ ps, p.1 ≤ 10000)
    (hpos : 0 < totalWeight ps) (hroom : Roomy ps) :
    ∃ r : ℕ, BothReturn ps r ∧
      (∀ r' : ℤ, (2*(weightedSum ps : ℤ) - totalWeight ps < 2*r'*totalWeight ps ∧
        2*r'*totalWeight ps ≤ 2*weightedSum ps + totalWeight ps) ↔ r' = r) ∧
      (∀ ps', ps.Perm ps' → BothReturn ps' r) ∧
      ∀ ps', Raised ps ps' → (∀ p ∈ ps', p.1 ≤ 10000) → Roomy ps' →
        ∃ r', BothReturn ps' r' ∧ r ≤ r' := by
  refine ⟨weightedMean ps,bothReturn hv hpos hroom,halfUp_unique hpos,?_,?_⟩
  · intro ps' hperm
    have hmean : weightedMean ps = weightedMean ps' := by
      rw [weightedMean,weightedMean,totalWeight_perm hperm,weightedSum_perm hperm]
    rw [hmean]
    apply bothReturn
    · exact fun p hp => hv p (hperm.mem_iff.mpr hp)
    · rwa [← totalWeight_perm hperm]
    · rwa [Roomy,← totalWeight_perm hperm,← weightedSum_perm hperm]
  · intro ps' hraised hv' hroom'
    refine ⟨weightedMean ps',bothReturn hv' ?_ hroom',hraised.weightedMean_le⟩
    rwa [← hraised.totalWeight_eq]

/-- A tie rounds up: 2500 and 2501 with equal weights near 2^64 settle at 2501. -/
theorem weighted_mean_rounds_tie :
    BothReturn [(2500,2^64-1),(2501,2^64-1)] 2501 := by
  have hv : ∀ p ∈ [(2500,2^64-1),(2501,2^64-1)], p.1 ≤ 10000 := by decide
  have hpos : 0 < totalWeight [(2500,2^64-1),(2501,2^64-1)] := by decide
  have hroom : Roomy [(2500,2^64-1),(2501,2^64-1)] := by
    unfold Roomy
    decide
  obtain ⟨r,hboth,hunique,-⟩ := weighted_mean_rounds _ hv hpos hroom
  have hr : (2501 : ℤ) = r := (hunique 2501).mp (by decide)
  obtain rfl : 2501 = r := by exact_mod_cast hr
  exact hboth

end Kswarm.Mirror
