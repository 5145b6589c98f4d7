import Mathlib.Data.List.Nodup
import Mathlib.Tactic.Common

/-! Collision extraction. A binding statement about a hash has the form "the inputs are equal, or
two distinct strings among those hashed have one digest", so every result below carries the list
of strings that were really hashed. -/
namespace Kswarm
variable {μ β : Type}

/-- Two distinct members of `S` with one image. -/
def Collision (H : μ → β) (S : List μ) : Prop := ∃ x ∈ S, ∃ y ∈ S, x ≠ y ∧ H x = H y

theorem Collision.mono {H : μ → β} {S T : List μ} (h : Collision H S) (hs : S ⊆ T) :
    Collision H T := by
  obtain ⟨x,hx,y,hy,hne,he⟩ := h
  exact ⟨x,hs hx,y,hs hy,hne,he⟩

/-- Equal digests of two hashed strings identify the strings or exhibit the collision. -/
theorem eq_or_collision {H : μ → β} {S : List μ} {x y : μ} (hx : x ∈ S) (hy : y ∈ S)
    (h : H x = H y) : x = y ∨ Collision H S := by
  by_cases he : x = y
  · exact .inl he
  · exact .inr ⟨x,hx,y,hy,he,h⟩

lemma collision_pair {H : μ → β} {x y : μ} : Collision H [x,y] ↔ x ≠ y ∧ H x = H y := by
  simp only [Collision,List.mem_cons,List.not_mem_nil,or_false]
  constructor
  · rintro ⟨a,rfl | rfl,b,rfl | rfl,hne,he⟩
    · exact absurd rfl hne
    · exact ⟨hne,he⟩
    · exact ⟨hne.symm,he.symm⟩
    · exact absurd rfl hne
  · intro h
    exact ⟨x,.inl rfl,y,.inr rfl,h⟩

/-- Pointwise form: lists of hashed strings with equal digest lists. -/
theorem map_eq_or_collision {H : μ → β} {S : List μ} {xs ys : List μ} (hx : xs ⊆ S)
    (hy : ys ⊆ S) (h : xs.map H = ys.map H) : xs = ys ∨ Collision H S := by
  induction xs generalizing ys with
  | nil => cases ys with
    | nil => exact .inl rfl
    | cons y ys => simp at h
  | cons x xs ih => cases ys with
    | nil => simp at h
    | cons y ys =>
      simp only [List.map_cons,List.cons.injEq] at h
      simp only [List.cons_subset] at hx hy
      rcases eq_or_collision hx.1 hy.1 h.1 with rfl | hc
      · exact (ih hx.2 hy.2 h.2).imp_left (congrArg (x::·))
      · exact .inr hc

/-- Distinct strings have distinct digests, or two of them collide. -/
theorem nodup_map_or_collision {H : μ → β} {S : List μ} (h : S.Nodup) :
    (S.map H).Nodup ∨ Collision H S := by
  by_cases hc : Collision H S
  · exact .inr hc
  · refine .inl (List.Nodup.map_on ?_ h)
    intro x hx y hy he
    by_contra hne
    exact hc ⟨x,hx,y,hy,hne,he⟩

end Kswarm
