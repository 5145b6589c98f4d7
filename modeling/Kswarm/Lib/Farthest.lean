import Mathlib.Data.List.GetD
import Mathlib.Data.List.Sort
import Mathlib.Algebra.Order.Group.Abs
import Mathlib.Algebra.Order.Group.Int
import Mathlib.Tactic.Linarith

/-! Sorting by distance from a centre, farthest first. Of a list in ascending order, the elements
that come first are a block at each end, and what stays is the block between them. -/
namespace Kswarm

section Sorting
variable {α β : Type} {r : α → α → Prop} [DecidableRel r] [Std.Antisymm r] [Std.Total r] [IsTrans α r]

/-- The sort is the one sorted arrangement. -/
lemma insertionSort_unique {xs ys : List α} (h : xs.Perm ys) (hys : ys.Pairwise r) :
    xs.insertionSort r = ys :=
  List.Perm.eq_of_pairwise' (List.pairwise_insertionSort r xs) hys
    ((List.perm_insertionSort r xs).trans h)

lemma insertionSort_perm {xs ys : List α} (h : xs.Perm ys) :
    xs.insertionSort r = ys.insertionSort r :=
  insertionSort_unique (h.trans (List.perm_insertionSort r ys).symm)
    (List.pairwise_insertionSort r ys)

/-- Everything in `front` sorts before everything in `back`. -/
lemma insertionSort_split {xs front back : List α} (h : xs.Perm (front ++ back))
    (hle : ∀ a ∈ front, ∀ b ∈ back, r a b) :
    xs.insertionSort r = front.insertionSort r ++ back.insertionSort r := by
  have hfront := List.perm_insertionSort r front
  have hback := List.perm_insertionSort r back
  apply insertionSort_unique
  · exact h.trans (hfront.append hback).symm
  · rw [List.pairwise_append]
    refine ⟨List.pairwise_insertionSort r front,List.pairwise_insertionSort r back,?_⟩
    intro a ha b hb
    exact hle a (hfront.mem_iff.mp ha) b (hback.mem_iff.mp hb)

/-- A map that keeps the order commutes with sorting. -/
lemma map_insertionSort_of_mono {q : β → β → Prop} [DecidableRel q] [Std.Total q] [IsTrans β q]
    {f : β → α} (hf : ∀ a b, q a b → r (f a) (f b)) (xs : List β) :
    (xs.insertionSort q).map f = (xs.map f).insertionSort r := by
  symm
  apply insertionSort_unique
  · exact ((List.perm_insertionSort q xs).map f).symm
  · exact (List.pairwise_insertionSort q xs).map f (fun a b => hf a b)

end Sorting

/-- Farther from `c` first, the smaller first at the same distance. -/
def farLe (c a b : ℤ) : Prop := |b-c| < |a-c| ∨ (|b-c| = |a-c| ∧ a ≤ b)

instance (c : ℤ) : DecidableRel (farLe c) := fun _ _ => inferInstanceAs (Decidable (_ ∨ _))

instance (c : ℤ) : Std.Total (farLe c) := ⟨fun a b => by unfold farLe; omega⟩

instance (c : ℤ) : IsTrans ℤ (farLe c) := ⟨fun a b d h h' => by unfold farLe at *; omega⟩

instance (c : ℤ) : Std.Antisymm (farLe c) := ⟨fun a b h h' => by unfold farLe at *; omega⟩

section Centre
variable {c a b : ℤ}

/-- A smaller element whose mirror image is not exceeded comes first. -/
lemma farLe_of_add_le (hab : a ≤ b) (h : a + b ≤ 2*c) : farLe c a b := by
  have hb : |b-c| ≤ c-a := abs_le.mpr ⟨by linarith,by linarith⟩
  have ha : c-a ≤ |a-c| := by rw [abs_sub_comm]; exact le_abs_self _
  unfold farLe
  omega

/-- A larger element beyond the mirror image comes first. -/
lemma farLe_of_lt_add (hba : b ≤ a) (h : 2*c < a + b) : farLe c a b := by
  have hb : |b-c| ≤ a-c := abs_le.mpr ⟨by linarith,by linarith⟩
  have ha : a-c ≤ |a-c| := le_abs_self _
  have hpos : 0 < a-c := by linarith
  rw [abs_of_pos hpos] at ha
  unfold farLe
  rcases lt_or_eq_of_le hb with hlt | heq
  · left
    rwa [abs_of_pos hpos]
  · right
    refine ⟨by rw [heq,abs_of_pos hpos],?_⟩
    rcases abs_cases (b-c) with ⟨h1,-⟩ | ⟨h1,-⟩ <;> omega

/-- A smaller element comes first only if its mirror image is not exceeded, or nothing separates
the two. -/
lemma add_le_of_farLe (hab : a < b) (h : farLe c a b) : a + b ≤ 2*c := by
  unfold farLe at h
  rcases abs_cases (a-c) with ⟨h1,h1'⟩ | ⟨h1,h1'⟩ <;>
    rcases abs_cases (b-c) with ⟨h2,h2'⟩ | ⟨h2,h2'⟩ <;> omega

end Centre

section Window
variable {s : List ℤ}

lemma getD_mono (hs : s.Pairwise (· ≤ ·)) {i j : ℕ} (hij : i ≤ j) (hj : j < s.length) :
    s.getD i 0 ≤ s.getD j 0 := by
  rw [List.getD_eq_getElem _ _ (lt_of_le_of_lt hij hj),List.getD_eq_getElem _ _ hj]
  rcases lt_or_eq_of_le hij with hlt | rfl
  · exact List.pairwise_iff_getElem.mp hs i j _ hj hlt
  · exact le_rfl

lemma mem_take_getD {i : ℕ} {a : ℤ} :
    a ∈ s.take i ↔ ∃ j, j < i ∧ j < s.length ∧ s.getD j 0 = a := by
  rw [List.mem_take_iff_getElem]
  constructor
  · rintro ⟨j,hj,rfl⟩
    exact ⟨j,by omega,by omega,List.getD_eq_getElem _ _ _⟩
  · rintro ⟨j,hji,hj,rfl⟩
    exact ⟨j,by omega,(List.getD_eq_getElem _ _ hj).symm⟩

lemma mem_drop_getD {i : ℕ} {a : ℤ} :
    a ∈ s.drop i ↔ ∃ j, i ≤ j ∧ j < s.length ∧ s.getD j 0 = a := by
  rw [List.mem_drop_iff_getElem]
  constructor
  · rintro ⟨j,hj,rfl⟩
    exact ⟨i+j,by omega,by omega,List.getD_eq_getElem _ _ _⟩
  · rintro ⟨j,hij,hj,rfl⟩
    refine ⟨j-i,by omega,?_⟩
    rw [List.getD_eq_getElem _ _ hj]
    congr 1
    omega

lemma mem_window_getD {i w : ℕ} {a : ℤ} :
    a ∈ (s.drop i).take w ↔ ∃ j, i ≤ j ∧ j < i+w ∧ j < s.length ∧ s.getD j 0 = a := by
  rw [List.take_drop,mem_drop_getD]
  constructor
  · rintro ⟨j,hij,hj,rfl⟩
    rw [List.length_take] at hj
    refine ⟨j,hij,by omega,by omega,?_⟩
    rw [List.getD_eq_getElem _ _ (by omega),List.getD_eq_getElem _ _ (by simp; omega),
      List.getElem_take]
  · rintro ⟨j,hij,hjw,hj,rfl⟩
    refine ⟨j,hij,by simp; omega,?_⟩
    rw [List.getD_eq_getElem _ _ (by simp; omega),List.getElem_take,List.getD_eq_getElem _ _ hj]

/-- Where the block that stays begins: `i` elements go below it, the others of `k` above. -/
structure Window (c : ℤ) (s : List ℤ) (k i : ℕ) : Prop where
  le : i ≤ k
  fits : k ≤ s.length
  below : ∀ j < i, s.getD j 0 + s.getD (j+(s.length-k)) 0 ≤ 2*c
  above : i < k → 2*c < s.getD i 0 + s.getD (i+(s.length-k)) 0

lemma exists_window (c : ℤ) {k : ℕ} (hk : k ≤ s.length) : ∃ i, Window c s k i := by
  by_cases h : ∃ j, j < k ∧ 2*c < s.getD j 0 + s.getD (j+(s.length-k)) 0
  · obtain ⟨hlt,habove⟩ := Nat.find_spec h
    refine ⟨Nat.find h,hlt.le,hk,?_,fun _ => habove⟩
    intro j hj
    have hmin := Nat.find_min h hj
    by_contra hne
    exact hmin ⟨by omega,by omega⟩
  · refine ⟨k,le_rfl,hk,?_,fun hlt => absurd hlt (lt_irrefl k)⟩
    intro j hj
    by_contra hne
    exact h ⟨j,hj,by omega⟩

namespace Window
variable {c : ℤ} {k i : ℕ}

/-- Below the block: even the last of the lower end mirrors the last of the block. -/
lemma lower (h : Window c s k i) (hs : s.Pairwise (· ≤ ·)) {a b : ℕ} (ha : a < i)
    (hib : i ≤ b) (hb : b < i+(s.length-k)) : farLe c (s.getD a 0) (s.getD b 0) := by
  have hle := h.le
  have hfits := h.fits
  have hbelow := h.below (i-1) (by omega)
  have hA := getD_mono hs (show a ≤ i-1 by omega) (by omega)
  have hB := getD_mono hs (show b ≤ i-1+(s.length-k) by omega) (by omega)
  exact farLe_of_add_le (getD_mono hs (by omega) (by omega)) (by linarith)

/-- Above it: even the first of the upper end lies beyond the mirror of the first of the block. -/
lemma upper (h : Window c s k i) (hs : s.Pairwise (· ≤ ·)) {a b : ℕ} (ha : i+(s.length-k) ≤ a)
    (hal : a < s.length) (hib : i ≤ b) (hb : b < i+(s.length-k)) :
    farLe c (s.getD a 0) (s.getD b 0) := by
  have hfits := h.fits
  have habove := h.above (by omega)
  have hA := getD_mono hs ha hal
  have hB := getD_mono hs hib (by omega)
  exact farLe_of_lt_add (getD_mono hs (by omega) (by omega)) (by linarith)

/-- The sort by distance lists both ends first and the block after them. -/
theorem insertionSort_eq (h : Window c s k i) (hs : s.Pairwise (· ≤ ·)) :
    s.insertionSort (farLe c) =
      (s.take i ++ s.drop (i+(s.length-k))).insertionSort (farLe c) ++
        ((s.drop i).take (s.length-k)).insertionSort (farLe c) := by
  apply insertionSort_split
  · rw [List.append_assoc,← List.drop_drop]
    have hsplit := List.take_append_drop (s.length-k) (s.drop i)
    have hall := List.take_append_drop i s
    conv_lhs => rw [← hall,← hsplit]
    exact List.Perm.append_left _ List.perm_append_comm
  · intro a ha b hb
    obtain ⟨y,hiy,hyw,-,rfl⟩ := mem_window_getD.mp hb
    rcases List.mem_append.mp ha with ha | ha
    · obtain ⟨x,hx,-,rfl⟩ := mem_take_getD.mp ha
      exact h.lower hs hx hiy hyw
    · obtain ⟨x,hx,hxl,rfl⟩ := mem_drop_getD.mp ha
      exact h.upper hs hx hxl hiy hyw

/-- The first `k` of the sort are the two ends. -/
lemma mem_take (h : Window c s k i) (hs : s.Pairwise (· ≤ ·)) {a : ℤ} :
    a ∈ (s.insertionSort (farLe c)).take k ↔
      a ∈ s.take i ∨ a ∈ s.drop (i+(s.length-k)) := by
  have hle := h.le
  have hfits := h.fits
  rw [h.insertionSort_eq hs,List.take_append_of_le_length (by simp; omega),
    List.take_of_length_le (by simp; omega),List.mem_insertionSort,List.mem_append]

/-- The others are the block between them. -/
lemma mem_drop (h : Window c s k i) (hs : s.Pairwise (· ≤ ·)) {a : ℤ} :
    a ∈ (s.insertionSort (farLe c)).drop k ↔ a ∈ (s.drop i).take (s.length-k) := by
  have hle := h.le
  have hfits := h.fits
  rw [h.insertionSort_eq hs,List.drop_append_of_le_length (by simp; omega),
    List.drop_eq_nil_of_le (by simp; omega),List.nil_append,List.mem_insertionSort]

end Window
end Window
end Kswarm
