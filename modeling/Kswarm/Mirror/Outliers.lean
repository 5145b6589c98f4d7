import Kswarm.Lib.Farthest
import Kswarm.Mirror.Combiner

/-! Which values a trim drops: those farthest from one element of the sorted values, whatever order
they come in. The element is the one at index `n/2`: the upper of two middle ones, although the
documentation calls it the lower median. -/
namespace Kswarm.Mirror

/-- The values in ascending order. -/
def ascending (values : List ℤ) : List ℤ := values.insertionSort (· ≤ ·)

/-- The element at index `n/2`: the upper of two middle values. -/
def upperMedian (values : List ℤ) : ℤ := (ascending values).getD (values.length/2) 0

/-- The element at index `(n-1)/2`: the lower of two middle values. -/
def lowerMedian (values : List ℤ) : ℤ := (ascending values).getD ((values.length-1)/2) 0

/-- Farther from `m`, then smaller, then earlier in the list. -/
def RejectedBefore (m : ℤ) (p q : ℕ × ℤ) : Prop :=
  |q.2-m| < |p.2-m| ∨ (|q.2-m| = |p.2-m| ∧ (p.2 < q.2 ∨ (p.2 = q.2 ∧ p.1 ≤ q.1)))

/-- `kept` is the list without `k` positions that all come before the others around `m`. -/
def DropsFarthest (m : ℤ) (values : List ℤ) (k : ℕ) (kept : List ℤ) : Prop :=
  ∃ dropped : Finset ℕ, dropped ⊆ Finset.range values.length ∧ dropped.card = k ∧
    kept = ((Cli.enumerate values).filter (fun p => p.1 ∉ dropped)).map Prod.snd ∧
    ∀ p ∈ Cli.enumerate values, ∀ q ∈ Cli.enumerate values, p.1 ∈ dropped → q.1 ∉ dropped →
      RejectedBefore m p q

section Enumerate

lemma enumerate_fst (values : List ℤ) :
    (Cli.enumerate values).map Prod.fst = List.range values.length := by
  rw [Cli.enumerate,List.map_map,List.range_eq_range']
  exact List.zipIdx_map_snd 0 values

lemma enumerate_snd (values : List ℤ) : (Cli.enumerate values).map Prod.snd = values := by
  rw [Cli.enumerate,List.map_map]
  exact List.zipIdx_map_fst 0 values

lemma enumerate_length (values : List ℤ) : (Cli.enumerate values).length = values.length := by
  simp [Cli.enumerate]

/-- A position names one pair. -/
lemma enumerate_inj {values : List ℤ} {p q : ℕ × ℤ} (hp : p ∈ Cli.enumerate values)
    (hq : q ∈ Cli.enumerate values) (h : p.1 = q.1) : p = q := by
  refine List.inj_on_of_nodup_map ?_ hp hq h
  rw [enumerate_fst]
  exact List.nodup_range

/-- Dropping positions gives a subsequence. -/
lemma kept_sublist (values : List ℤ) (dropped : Finset ℕ) :
    (((Cli.enumerate values).filter (fun p => p.1 ∉ dropped)).map Prod.snd).Sublist values := by
  have hsub := (List.filter_sublist (p := fun p : ℕ × ℤ => p.1 ∉ dropped)
    (l := Cli.enumerate values)).map Prod.snd
  rwa [enumerate_snd] at hsub

end Enumerate

section Order
variable (m : ℤ)

lemma rejectionLe_iff {p q : ℕ × ℤ} : Cli.rejectionLe m p q ↔ RejectedBefore m p q := by
  unfold Cli.rejectionLe RejectedBefore
  omega

instance : Std.Total (Cli.rejectionLe m) := ⟨fun a b => by unfold Cli.rejectionLe; omega⟩

instance : IsTrans (ℕ × ℤ) (Cli.rejectionLe m) :=
  ⟨fun a b d h h' => by unfold Cli.rejectionLe at *; omega⟩

instance : Std.Antisymm (Cli.rejectionLe m) :=
  ⟨fun a b h h' => by
    unfold Cli.rejectionLe at *
    exact Prod.ext (by omega) (by omega)⟩

instance : Std.Total Cli.valueLe := ⟨fun a b => by unfold Cli.valueLe; omega⟩

instance : IsTrans (ℕ × ℤ) Cli.valueLe := ⟨fun a b d h h' => by unfold Cli.valueLe at *; omega⟩

lemma RejectedBefore.farLe {p q : ℕ × ℤ} (h : RejectedBefore m p q) : farLe m p.2 q.2 := by
  unfold RejectedBefore at h
  unfold Kswarm.farLe
  omega

end Order

section Rejection
variable {values : List ℤ} {k : ℕ}

/-- Both sorts of the code as one: the pairs in rejection order. -/
def byRejection (values : List ℤ) : List (ℕ × ℤ) :=
  (Cli.enumerate values).insertionSort (Cli.rejectionLe (upperMedian values))

lemma ascending_perm (values : List ℤ) : (ascending values).Perm values :=
  List.perm_insertionSort _ values

lemma ascending_length (values : List ℤ) : (ascending values).length = values.length :=
  List.length_insertionSort _ values

lemma ascending_pairwise (values : List ℤ) : (ascending values).Pairwise (· ≤ ·) :=
  List.pairwise_insertionSort _ values

lemma median_eq (values : List ℤ) :
    (((Cli.enumerate values).insertionSort Cli.valueLe).getD (values.length/2) (0,0)).2 =
      upperMedian values := by
  have hsnd : ((Cli.enumerate values).insertionSort Cli.valueLe).map Prod.snd =
      ascending values := by
    rw [map_insertionSort_of_mono (q := Cli.valueLe) (r := (· ≤ ·)) (f := Prod.snd)
      (fun _ _ h => h),enumerate_snd]
    rfl
  rw [upperMedian,← hsnd]
  exact (List.getD_map _ _ Prod.snd).symm

lemma rejected_eq (values : List ℤ) (k : ℕ) :
    rejected values k = ((byRejection values).take k).map Prod.fst := by
  simp only [rejected,List.length_insertionSort,enumerate_length,median_eq]
  rw [insertionSort_perm (List.perm_insertionSort Cli.valueLe (Cli.enumerate values))]
  rfl

lemma byRejection_perm (values : List ℤ) : (byRejection values).Perm (Cli.enumerate values) :=
  List.perm_insertionSort _ _

lemma byRejection_nodup (values : List ℤ) : ((byRejection values).map Prod.fst).Nodup := by
  rw [((byRejection_perm values).map Prod.fst).nodup_iff,enumerate_fst]
  exact List.nodup_range

/-- By value alone, the rejection order is the order by distance. -/
lemma byRejection_snd (values : List ℤ) :
    (byRejection values).map Prod.snd =
      (ascending values).insertionSort (farLe (upperMedian values)) := by
  rw [byRejection,map_insertionSort_of_mono (q := Cli.rejectionLe (upperMedian values))
    (r := farLe (upperMedian values)) (f := Prod.snd)
    (fun _ _ h => ((rejectionLe_iff _).mp h).farLe),enumerate_snd]
  exact insertionSort_perm (ascending_perm values).symm

/-- A position is rejected exactly when its pair is among the first. -/
lemma mem_rejected {p : ℕ × ℤ} (hp : p ∈ Cli.enumerate values) :
    p.1 ∈ rejected values k ↔ p ∈ (byRejection values).take k := by
  rw [rejected_eq,List.mem_map]
  constructor
  · rintro ⟨q,hq,hqp⟩
    have hq' := (byRejection_perm values).mem_iff.mp (List.mem_of_mem_take hq)
    exact enumerate_inj hq' hp hqp ▸ hq
  · intro h
    exact ⟨p,h,rfl⟩

lemma not_mem_rejected {p : ℕ × ℤ} (hp : p ∈ Cli.enumerate values)
    (h : p.1 ∉ rejected values k) : p ∈ (byRejection values).drop k := by
  have hmem := (byRejection_perm values).mem_iff.mpr hp
  rw [← List.take_append_drop k (byRejection values),List.mem_append] at hmem
  exact hmem.resolve_left (fun hin => h ((mem_rejected hp).mpr hin))

lemma retained_eq (values : List ℤ) (k : ℕ) :
    retained values k =
      ((Cli.enumerate values).filter (fun p => p.1 ∉ (rejected values k).toFinset)).map Prod.snd := by
  rw [retained,← List.filterMap_eq_map,List.filterMap_filter]
  refine List.filterMap_congr (fun p _ => ?_)
  by_cases h : p.1 ∈ rejected values k <;> simp [h]

/-- The code drops the `k` values farthest from the upper median. -/
theorem retained_dropsFarthest (hk : k < values.length) :
    DropsFarthest (upperMedian values) values k (retained values k) := by
  have hnodup : (rejected values k).Nodup := by
    rw [rejected_eq,List.map_take]
    exact (byRejection_nodup values).sublist (List.take_sublist _ _)
  have hlen : (byRejection values).length = values.length := by
    rw [(byRejection_perm values).length_eq,enumerate_length]
  refine ⟨(rejected values k).toFinset,?_,?_,retained_eq values k,?_⟩
  · intro i hi
    rw [List.mem_toFinset,rejected_eq] at hi
    obtain ⟨p,hp,rfl⟩ := List.mem_map.mp hi
    have hp' := (byRejection_perm values).mem_iff.mp (List.mem_of_mem_take hp)
    exact Finset.mem_range.mpr (mem_enumerate hp').1
  · rw [List.toFinset_card_of_nodup hnodup,rejected_eq,List.length_map,List.length_take,hlen]
    omega
  · intro p hp q hq hpd hqd
    rw [List.mem_toFinset] at hpd hqd
    have hpairs := List.pairwise_insertionSort (Cli.rejectionLe (upperMedian values))
      (Cli.enumerate values)
    change (byRejection values).Pairwise _ at hpairs
    rw [← List.take_append_drop k (byRejection values),List.pairwise_append] at hpairs
    exact (rejectionLe_iff _).mp
      (hpairs.2.2 p ((mem_rejected hp).mp hpd) q (not_mem_rejected hq hqd))

/-- Up to order, the retained values are the end of the sort by distance. -/
lemma retained_perm (values : List ℤ) (k : ℕ) :
    (retained values k).Perm
      (((ascending values).insertionSort (farLe (upperMedian values))).drop k) := by
  rw [← byRejection_snd,← List.map_drop]
  have hsplit := List.take_append_drop k (byRejection values)
  have hnodup := byRejection_nodup values
  rw [← hsplit,List.map_append,List.nodup_append] at hnodup
  have hfront : ∀ p ∈ (byRejection values).take k, p.1 ∈ rejected values k := by
    intro p hp
    rw [rejected_eq]
    exact List.mem_map_of_mem hp
  have hback : ∀ p ∈ (byRejection values).drop k, p.1 ∉ rejected values k := by
    intro p hp hin
    rw [rejected_eq] at hin
    exact hnodup.2.2 p.1 hin p.1 (List.mem_map_of_mem hp) rfl
  have hperm := (byRejection_perm values).symm.filterMap
    (fun p => if p.1 ∈ rejected values k then none else some p.2)
  rw [← hsplit,List.filterMap_append,
    List.filterMap_eq_nil_iff.mpr (fun p hp => if_pos (hfront p hp)),List.nil_append] at hperm
  refine hperm.trans (List.Perm.of_eq ?_)
  rw [← List.filterMap_eq_map]
  exact List.filterMap_congr (fun p hp => if_neg (hback p hp))

lemma retained_length (values : List ℤ) (k : ℕ) :
    (retained values k).length = values.length-k := by
  rw [(retained_perm values k).length_eq,List.length_drop,List.length_insertionSort,
    ascending_length]

lemma retained_sublist (values : List ℤ) (k : ℕ) : (retained values k).Sublist values := by
  rw [retained_eq]
  exact kept_sublist values _

end Rejection

section Reordered
variable {values values' : List ℤ}

lemma ascending_eq_of_perm (h : values.Perm values') : ascending values = ascending values' :=
  insertionSort_perm h

lemma upperMedian_eq_of_perm (h : values.Perm values') :
    upperMedian values = upperMedian values' := by
  rw [upperMedian,upperMedian,ascending_eq_of_perm h,h.length_eq]

/-- Reordering the values reorders what is retained. -/
lemma retained_reordered (h : values.Perm values') (k : ℕ) :
    (retained values k).Perm (retained values' k) := by
  have hperm := retained_perm values k
  rw [ascending_eq_of_perm h,upperMedian_eq_of_perm h] at hperm
  exact hperm.trans (retained_perm values' k).symm

/-- The guest's checked sum: the wrapped sum, or the refusal of a value out of range. -/
lemma sumFold_eq (kept : List ℤ) (s : ℤ) :
    kept.foldlM (fun sum value => do
      Reducer.checkBps value
      pure (Reducer.wrapI128 (sum + value))) s =
        if ∀ v ∈ kept, 0 ≤ v ∧ v ≤ Reducer.bpsScale then
          .ok (kept.foldl (fun sum value => Reducer.wrapI128 (sum + value)) s)
        else (.error .valueOutOfRange : Except Reducer.CombinerError ℤ) := by
  induction kept generalizing s with
  | nil => simp [pure,Except.pure]
  | cons v vs ih =>
    rw [List.foldlM_cons,List.foldl_cons]
    by_cases hv : 0 ≤ v ∧ v ≤ Reducer.bpsScale
    · rw [Reducer.checkBps,failIf_of_not (not_not.mpr hv)]
      change vs.foldlM _ (Reducer.wrapI128 (s + v)) = _
      rw [ih]
      simp [hv]
    · rw [Reducer.checkBps,failIf,if_pos hv,if_neg (by simp [hv])]
      rfl

lemma sumFold_perm {kept kept' : List ℤ} (h : kept.Perm kept') (s : ℤ) :
    kept.foldl (fun sum value => Reducer.wrapI128 (sum + value)) s =
      kept'.foldl (fun sum value => Reducer.wrapI128 (sum + value)) s := by
  have : RightCommutative (fun sum value : ℤ => Reducer.wrapI128 (sum + value)) := by
    refine ⟨fun a b c => ?_⟩
    simp only [Reducer.wrapI128,Int.bmod_add_bmod]
    congr 1
    ring
  exact h.foldl_eq s

theorem guest_trimmedMean_reordered (h : values.Perm values') {k : ℕ} (hk : k < values.length) :
    Reducer.trimmedMeanBps values k = Reducer.trimmedMeanBps values' k := by
  have hkept := retained_reordered h k
  rw [Reducer.trimmedMeanBps,Reducer.trimmedMeanBps,reducer_retainedValues hk,
    reducer_retainedValues (h.length_eq ▸ hk),ok_bind,ok_bind,sumFold_eq,sumFold_eq,
    sumFold_perm hkept,hkept.length_eq]
  simp only [hkept.mem_iff]

theorem cli_trimmedMean_reordered (h : values.Perm values') {k : ℕ} (hk : k < values.length) :
    SameOk (Cli.trimmedMeanBps values k) (Cli.trimmedMeanBps values' k) := by
  have hkept := retained_reordered h k
  intro r
  rw [Cli.trimmedMeanBps,Cli.trimmedMeanBps,cli_retainedValues hk,
    cli_retainedValues (h.length_eq ▸ hk),ok_bind,ok_bind,bind_eq_ok,bind_eq_ok,hkept.length_eq,
    hkept.sum_eq]
  have hcheck : (retained values k).forM Cli.checkBps = .ok () ↔
      (retained values' k).forM Cli.checkBps = .ok () := by
    rw [forM_eq_ok,forM_eq_ok]
    simp only [hkept.mem_iff]
  exact exists_congr (fun _ => and_congr hcheck Iff.rfl)

end Reordered

/-- A trim returns the subsequence left by the `k` values farthest from the element at index
`n/2`; both implementations return it, and reordering the input only reorders it. -/
theorem outlier_rejection_exact (values : List ℤ) (k : ℕ) (hk : k < values.length) :
    ∃ kept, Reducer.retainedValues values k = .ok kept ∧ Cli.retainedValues values k = .ok kept ∧
      kept.length = values.length-k ∧ kept.Sublist values ∧
      DropsFarthest (upperMedian values) values k kept ∧
      ∀ values', values.Perm values' →
        (∃ kept', Reducer.retainedValues values' k = .ok kept' ∧
          Cli.retainedValues values' k = .ok kept' ∧ kept.Perm kept') ∧
        Reducer.trimmedMeanBps values k = Reducer.trimmedMeanBps values' k ∧
        SameOk (Cli.trimmedMeanBps values k) (Cli.trimmedMeanBps values' k) := by
  refine ⟨retained values k,reducer_retainedValues hk,cli_retainedValues hk,
    retained_length values k,retained_sublist values k,retained_dropsFarthest hk,?_⟩
  intro values' h
  have hk' : k < values'.length := h.length_eq ▸ hk
  refine ⟨⟨retained values' k,reducer_retainedValues hk',cli_retainedValues hk',
    retained_reordered h k⟩,guest_trimmedMean_reordered h hk,cli_trimmedMean_reordered h hk⟩

theorem outlier_rejection_exact_four : ∃ kept,
    Reducer.retainedValues [1,10,2,3] 1 = .ok kept ∧ kept.Sublist [1,10,2,3] ∧ kept.length = 3 ∧
      Reducer.trimmedMeanBps [1,10,2,3] 1 = Reducer.trimmedMeanBps [3,2,10,1] 1 := by
  obtain ⟨kept,hguest,-,hlen,hsub,-,hperm⟩ := outlier_rejection_exact [1,10,2,3] 1 (by decide)
  exact ⟨kept,hguest,hsub,hlen,(hperm [3,2,10,1] (by decide)).2.1⟩

section Medians
variable {values : List ℤ} {k : ℕ}

/-- No pair of sorted values `n-k` apart, the lower among the first `k`, is balanced about a point
above the lower median and not above the upper one. -/
def MediansAgree (values : List ℤ) (k : ℕ) : Prop :=
  ∀ j < k, ¬(2*lowerMedian values <
      (ascending values).getD j 0 + (ascending values).getD (j+(values.length-k)) 0 ∧
    (ascending values).getD j 0 + (ascending values).getD (j+(values.length-k)) 0 ≤
      2*upperMedian values)

/-- Both implementations return what is left by the `k` values farthest from `m`. -/
def MeasuredFrom (m : ℤ) (values : List ℤ) (k : ℕ) : Prop :=
  ∃ kept, Reducer.retainedValues values k = .ok kept ∧ Cli.retainedValues values k = .ok kept ∧
    DropsFarthest m values k kept

/-- No value lies between the two medians. -/
lemma le_or_ge_medians (values : List ℤ) {j : ℕ} (hj : j < values.length) :
    (j ≤ (values.length-1)/2 ∧ (ascending values).getD j 0 ≤ lowerMedian values) ∨
      (values.length/2 ≤ j ∧ upperMedian values ≤ (ascending values).getD j 0) := by
  have hs := ascending_pairwise values
  have hlen := ascending_length values
  by_cases h : j ≤ (values.length-1)/2
  · exact .inl ⟨h,getD_mono hs h (by omega)⟩
  · exact .inr ⟨by omega,getD_mono hs (by omega) (by omega)⟩

lemma lowerMedian_le_upperMedian (values : List ℤ) (h : 0 < values.length) :
    lowerMedian values ≤ upperMedian values := by
  have hlen := ascending_length values
  exact getD_mono (ascending_pairwise values) (by omega) (by omega)

/-- Pairs the two medians order differently lie on the two sides of them. -/
lemma rejectedBefore_lower {L U : ℤ} (hLU : L ≤ U) {p q : ℕ × ℤ} (hp : p.2 ≤ L ∨ U ≤ p.2)
    (hq : q.2 ≤ L ∨ U ≤ q.2) (h : RejectedBefore U p q)
    (hstraddle : p.2 ≤ L → U ≤ q.2 → L < U → p.2 + q.2 ≤ 2*L) : RejectedBefore L p q := by
  unfold RejectedBefore at *
  rcases abs_cases (p.2-L) with ⟨h1,h1'⟩ | ⟨h1,h1'⟩ <;>
    rcases abs_cases (q.2-L) with ⟨h2,h2'⟩ | ⟨h2,h2'⟩ <;>
    rcases abs_cases (p.2-U) with ⟨h3,h3'⟩ | ⟨h3,h3'⟩ <;>
    rcases abs_cases (q.2-U) with ⟨h4,h4'⟩ | ⟨h4,h4'⟩ <;> omega

/-- Whatever positions explain the retained list, the values there are the first of the sort. -/
lemma dropped_perm {dropped : Finset ℕ} (h : retained values k =
      ((Cli.enumerate values).filter (fun p => p.1 ∉ dropped)).map Prod.snd) :
    (((Cli.enumerate values).filter (fun p => p.1 ∈ dropped)).map Prod.snd).Perm
      (((ascending values).insertionSort (farLe (upperMedian values))).take k) := by
  have hall := (List.filter_append_perm (fun p : ℕ × ℤ => decide (p.1 ∈ dropped))
    (Cli.enumerate values)).map Prod.snd
  rw [enumerate_snd,List.map_append] at hall
  have hneg : (Cli.enumerate values).filter (fun p => !decide (p.1 ∈ dropped)) =
      (Cli.enumerate values).filter (fun p => p.1 ∉ dropped) :=
    List.filter_congr (fun p _ => by simp)
  rw [hneg,← h] at hall
  have hsorted := (List.perm_insertionSort (farLe (upperMedian values)) (ascending values)).trans
    (ascending_perm values)
  rw [← List.take_append_drop k ((ascending values).insertionSort _)] at hsorted
  have hback := List.Perm.append_left
    (((ascending values).insertionSort (farLe (upperMedian values))).take k) (retained_perm values k)
  exact (List.perm_append_right_iff _).mp (hall.trans (hback.trans hsorted).symm)

/-- The sorted values at the two ends are dropped, those between them are kept. -/
lemma mem_dropped {dropped : Finset ℕ} (h : retained values k =
      ((Cli.enumerate values).filter (fun p => p.1 ∉ dropped)).map Prod.snd) {i : ℕ}
    (hw : Window (upperMedian values) (ascending values) k i) (v : ℤ) :
    (∃ p ∈ Cli.enumerate values, p.1 ∈ dropped ∧ p.2 = v) ↔
      v ∈ (ascending values).take i ∨ v ∈ (ascending values).drop (i+((ascending values).length-k)) := by
  rw [← hw.mem_take (ascending_pairwise values),← (dropped_perm h).mem_iff]
  simp [and_assoc]

lemma mem_kept {dropped : Finset ℕ} (h : retained values k =
      ((Cli.enumerate values).filter (fun p => p.1 ∉ dropped)).map Prod.snd) {i : ℕ}
    (hw : Window (upperMedian values) (ascending values) k i) (v : ℤ) :
    (∃ p ∈ Cli.enumerate values, p.1 ∉ dropped ∧ p.2 = v) ↔
      v ∈ ((ascending values).drop i).take ((ascending values).length-k) := by
  rw [← hw.mem_drop (ascending_pairwise values),← (retained_perm values k).mem_iff,h]
  simp [and_assoc]

lemma le_or_ge_of_mem_enumerate {p : ℕ × ℤ} (hp : p ∈ Cli.enumerate values) :
    p.2 ≤ lowerMedian values ∨ upperMedian values ≤ p.2 := by
  have hv : p.2 ∈ values := enumerate_snd values ▸ List.mem_map_of_mem hp
  obtain ⟨j,hj,hjv⟩ := List.getElem_of_mem ((ascending_perm values).mem_iff.mpr hv)
  rw [← hjv,← List.getD_eq_getElem _ 0 hj]
  rw [ascending_length] at hj
  exact (le_or_ge_medians values hj).imp And.right And.right

/-- A balanced pair lies within the lower block of the trim. -/
lemma lt_of_balanced {i j : ℕ} (hw : Window (upperMedian values) (ascending values) k i)
    (hk : k < values.length) (hj : j < k)
    (hhigh : (ascending values).getD j 0 + (ascending values).getD (j+(values.length-k)) 0 ≤
      2*upperMedian values) : j < i := by
  have hs := ascending_pairwise values
  have hlen := ascending_length values
  have habove := hw.above
  rw [hlen] at habove
  by_contra hij
  have h1 := habove (by omega)
  have h2 := getD_mono hs (show i ≤ j by omega) (by omega)
  have h3 := getD_mono hs (show i+(values.length-k) ≤ j+(values.length-k) by omega) (by omega)
  linarith

/-- What is dropped from the lower block is as far from the lower median as the first value kept
beyond it. -/
lemma mediansAgree_of_measured (hk : k < values.length) (h : MeasuredFrom (lowerMedian values) values k) :
    MediansAgree values k := by
  obtain ⟨kept,hguest,-,dropped,-,-,hkept,hbefore⟩ := h
  obtain rfl := Except.ok.inj ((reducer_retainedValues hk).symm.trans hguest)
  have hs := ascending_pairwise values
  have hlen := ascending_length values
  obtain ⟨i,hw⟩ := exists_window (s := ascending values) (upperMedian values) (k := k) (by omega)
  have hle := hw.le
  have hbelow := hw.below
  rw [hlen] at hbelow
  rintro j hj ⟨hlow,hhigh⟩
  have hji := lt_of_balanced hw hk hj hhigh
  -- The pair at the end of the lower block is balanced above the lower median too.
  have h1 := getD_mono hs (show j ≤ i-1 by omega) (by omega)
  have h2 := getD_mono hs (show j+(values.length-k) ≤ i-1+(values.length-k) by omega) (by omega)
  have h3 := hbelow (i-1) (by omega)
  have hpq := getD_mono hs (show i-1 ≤ i-1+(values.length-k) by omega) (by omega)
  obtain ⟨q,hq,hqd,hqv⟩ :=
    (mem_kept hkept hw ((ascending values).getD (i-1+(values.length-k)) 0)).mpr
      (mem_window_getD.mpr ⟨_,by omega,by omega,by omega,rfl⟩)
  have hfar : ∀ a < i, farLe (lowerMedian values) ((ascending values).getD a 0) q.2 := by
    intro a ha
    obtain ⟨p,hp,hpd,hpv⟩ := (mem_dropped hkept hw ((ascending values).getD a 0)).mpr
      (.inl (mem_take_getD.mpr ⟨a,ha,by omega,rfl⟩))
    rw [← hpv]
    exact (hbefore p hp q hq hpd hqd).farLe
  rw [hqv] at hfar
  rcases lt_or_eq_of_le hpq with hlt | heq
  · have := add_le_of_farLe hlt (hfar (i-1) (by omega))
    linarith
  · -- Both equal the upper median, so the lower median itself has been dropped.
    rcases le_or_ge_medians values (show i-1 < values.length by omega) with ⟨-,hL⟩ | ⟨hmid,hU⟩
    · linarith
    · have hmedian := hfar ((values.length-1)/2) (by omega)
      rw [show (ascending values).getD ((values.length-1)/2) 0 = lowerMedian values from rfl]
        at hmedian
      have := add_le_of_farLe (by linarith) hmedian
      linarith

lemma measured_of_mediansAgree (hk : k < values.length) (hagree : MediansAgree values k) :
    MeasuredFrom (lowerMedian values) values k := by
  have hs := ascending_pairwise values
  have hlen := ascending_length values
  have hLU := lowerMedian_le_upperMedian values (by omega)
  obtain ⟨i,hw⟩ := exists_window (s := ascending values) (upperMedian values) (k := k) (by omega)
  have hle := hw.le
  have hbelow := hw.below
  rw [hlen] at hbelow
  obtain ⟨dropped,hsub,hcard,hkept,hbefore⟩ := retained_dropsFarthest hk
  refine ⟨retained values k,reducer_retainedValues hk,cli_retainedValues hk,dropped,hsub,hcard,
    hkept,?_⟩
  intro p hp q hq hpd hqd
  apply rejectedBefore_lower hLU (le_or_ge_of_mem_enumerate hp) (le_or_ge_of_mem_enumerate hq)
    (hbefore p hp q hq hpd hqd)
  intro hpL hqU hlt
  obtain ⟨b,hib,hbw,hbl,hb⟩ := mem_window_getD.mp ((mem_kept hkept hw q.2).mp ⟨q,hq,hqd,rfl⟩)
  rcases (mem_dropped hkept hw p.2).mp ⟨p,hp,hpd,rfl⟩ with ha | ha
  · obtain ⟨a,hai,hal,ha⟩ := mem_take_getD.mp ha
    have h1 := getD_mono hs (show a ≤ i-1 by omega) (by omega)
    have h2 := getD_mono hs (show b ≤ i-1+(values.length-k) by omega) (by omega)
    have h3 := hbelow (i-1) (by omega)
    by_contra hgt
    exact hagree (i-1) (by omega) ⟨by linarith,h3⟩
  · obtain ⟨a,hai,hal,ha⟩ := mem_drop_getD.mp ha
    have := getD_mono hs (show b ≤ a by omega) hal
    linarith

end Medians

/-- The values dropped are those farthest from the lower median exactly when no pair of values at
the ends of the trim is balanced between the two medians. -/
theorem measured_from_lower_median_iff (values : List ℤ) (k : ℕ) (hk : k < values.length) :
    MeasuredFrom (lowerMedian values) values k ↔ MediansAgree values k :=
  ⟨mediansAgree_of_measured hk,measured_of_mediansAgree hk⟩

/-- A trim measures from the element at index `n/2` of the sorted values; the lower median would
drop the same values exactly when no pair at the ends of the trim is balanced between the two. -/
theorem measured_from_middle (values : List ℤ) (k : ℕ) (hk : k < values.length) :
    MeasuredFrom (upperMedian values) values k ∧
      (MeasuredFrom (lowerMedian values) values k ↔ MediansAgree values k) :=
  ⟨⟨retained values k,reducer_retainedValues hk,cli_retainedValues hk,retained_dropsFarthest hk⟩,
    measured_from_lower_median_iff values k hk⟩

/-- The list of the guest's own test, where both medians drop the same value. -/
theorem measured_from_middle_four : 1 < [1,2,3,10].length ∧
    MeasuredFrom 3 [1,2,3,10] 1 ∧ MeasuredFrom 2 [1,2,3,10] 1 := by
  obtain ⟨hmiddle,hlower⟩ := measured_from_middle [1,2,3,10] 1 (by decide)
  refine ⟨by decide,hmiddle,hlower.mpr ?_⟩
  unfold MediansAgree
  decide

/-- Of 4000 and 6000 the code drops the lower median itself. -/
theorem lower_median_dropped : ¬MeasuredFrom (lowerMedian [4000,6000]) [4000,6000] 1 := by
  rintro ⟨kept,hguest,-,dropped,-,-,hkept,hbefore⟩
  have hcode : Reducer.retainedValues [4000,6000] 1 = .ok [6000] := by decide
  have hpairs : Cli.enumerate [4000,6000] = [(0,4000),(1,6000)] := rfl
  obtain rfl := Except.ok.inj (hcode.symm.trans hguest)
  rw [hpairs] at hkept hbefore
  have h0 : 0 ∈ dropped := by
    by_contra h
    simp [h] at hkept
  have h1 : 1 ∉ dropped := by
    intro h
    simp [h0,h] at hkept
  have hfirst := hbefore (0,4000) (by simp) (1,6000) (by simp) h0 h1
  have hmedian : lowerMedian [4000,6000] = 4000 := by decide
  rw [hmedian] at hfirst
  unfold RejectedBefore at hfirst
  simp at hfirst

end Kswarm.Mirror
