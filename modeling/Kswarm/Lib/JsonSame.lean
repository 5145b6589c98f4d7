import Kswarm.Lib.JsonRoundTrip

/-! Documents up to the order of their keys: lookups and removals commute with sorting, and the
compact text of a sorted tree determines the document. -/
namespace Kswarm
namespace Json

/-- Remove the members with the given keys. -/
def without (ks : List String) : Json → Json
  | .obj fs => .obj (fs.filter (fun p => decide (p.1 ∉ ks)))
  | v => v

lemma lookup_eq_some_of_nodup {α : Type} {fs : List (String × α)} (h : (fs.map Prod.fst).Nodup)
    (k : String) (x : α) : fs.lookup k = some x ↔ (k,x) ∈ fs := by
  induction fs with
  | nil => simp
  | cons p fs ih =>
    obtain ⟨c,y⟩ := p
    rw [List.map_cons,List.nodup_cons] at h
    rw [lookup_cons_ite,List.mem_cons,Prod.mk.injEq]
    split_ifs with hk
    · subst hk
      constructor
      · intro he
        exact .inl ⟨rfl,(Option.some.inj he).symm⟩
      · intro hm
        cases hm with
        | inl he => rw [he.2]
        | inr hm => exact absurd (List.mem_map.mpr ⟨_,hm,rfl⟩) h.1
    · rw [ih h.2]
      constructor
      · exact .inr
      · intro hm
        exact hm.resolve_left (fun he => hk he.1)

/-- A rearrangement of distinct keys answers every lookup alike. -/
lemma lookup_perm {α : Type} {fs gs : List (String × α)} (hp : fs.Perm gs)
    (h : (fs.map Prod.fst).Nodup) (k : String) : fs.lookup k = gs.lookup k := by
  have hg : (gs.map Prod.fst).Nodup := (hp.map Prod.fst).nodup_iff.mp h
  apply Option.ext
  intro x
  rw [lookup_eq_some_of_nodup h,lookup_eq_some_of_nodup hg,hp.mem_iff]

lemma lookup_map_snd {α β : Type} (f : α → β) (fs : List (String × α)) (k : String) :
    (fs.map (fun p => (p.1,f p.2))).lookup k = (fs.lookup k).map f := by
  induction fs with
  | nil => rfl
  | cons p fs ih =>
    rw [List.map_cons,lookup_cons_ite,ih,show p = (p.1,p.2) from rfl,lookup_cons_ite]
    split_ifs <;> rfl

/-- A member of the sorted tree is the sorted member. -/
theorem get_sortKeys {v : Json} (hv : v.Plain) (k : String) :
    v.sortKeys.get k = (v.get k).map sortKeys := by
  cases v with
  | obj fs =>
    have hp := List.perm_insertionSort (fun a b : String × Json => codePointLe a.1 b.1)
      (sortFields codePointLe fs)
    have hn : ((sortFields codePointLe fs).map Prod.fst).Nodup := by
      rw [sortFields_keys]
      exact hv.1
    calc (sortKeys (.obj fs)).get k
        = (sortFields codePointLe fs).lookup k := (lookup_perm hp.symm hn k).symm
      _ = _ := by
        rw [sortFields_eq_map]
        exact lookup_map_snd sortKeys fs k
  | _ => rfl

/-- Members of the same document are the same documents. -/
theorem Same.get {v w : Json} (h : v.Same w) (hv : v.Plain) (hw : w.Plain) (k : String) :
    (v.get k).map sortKeys = (w.get k).map sortKeys := by
  rw [← get_sortKeys hv,← get_sortKeys hw,h]

/-- Sorted members with distinct keys are determined by their multiset. -/
lemma sorted_members_unique {fs gs : List (String × Json)} (hp : fs.Perm gs)
    (h : (fs.map Prod.fst).Nodup) (hf : fs.Pairwise (fun a b => codePointLe a.1 b.1))
    (hg : gs.Pairwise (fun a b => codePointLe a.1 b.1)) : fs = gs := by
  refine hp.eq_of_pairwise ?_ hf hg
  intro a b ha hb hab hba
  have hk : a.1 = b.1 := String.toList_inj.mp (le_antisymm hab hba)
  have hb' : b ∈ fs := hp.mem_iff.mpr hb
  have h1 := (lookup_eq_some_of_nodup h a.1 a.2).mpr ha
  have h2 := (lookup_eq_some_of_nodup h b.1 b.2).mpr hb'
  rw [← hk,h1] at h2
  exact Prod.ext hk (Option.some.inj h2)

instance : Std.Total (fun a b : String × Json => codePointLe a.1 b.1) :=
  ⟨fun a b => le_total a.1.toList b.1.toList⟩

instance : IsTrans (String × Json) (fun a b => codePointLe a.1 b.1) :=
  ⟨fun _ _ _ h h' => le_trans h h'⟩

/-- Removing members commutes with sorting. -/
theorem without_sortKeys (ks : List String) {v : Json} (hv : v.Plain) :
    v.sortKeys.without ks = (v.without ks).sortKeys := by
  cases v with
  | obj fs =>
    have hn : ((sortFields codePointLe fs).map Prod.fst).Nodup := by
      rw [sortFields_keys]
      exact hv.1
    have hfilter : sortFields codePointLe (fs.filter (fun p => decide (p.1 ∉ ks))) =
        (sortFields codePointLe fs).filter (fun p => decide (p.1 ∉ ks)) := by
      rw [sortFields_eq_map,sortFields_eq_map,List.filter_map]
      rfl
    change Json.obj _ = Json.obj _
    rw [hfilter]
    congr 1
    have hp := List.perm_insertionSort (fun a b : String × Json => codePointLe a.1 b.1)
      (sortFields codePointLe fs)
    refine sorted_members_unique ?_ ?_ ?_ (List.pairwise_insertionSort _ _)
    · exact (hp.filter _).trans (List.perm_insertionSort _ _).symm
    · apply List.Nodup.sublist (List.filter_sublist.map Prod.fst)
      rw [(hp.map Prod.fst).nodup_iff]
      exact hn
    · exact (List.pairwise_insertionSort _ _).filter _
  | _ => rfl

theorem Plain.without {v : Json} (ks : List String) (hv : v.Plain) : (v.without ks).Plain := by
  cases v with
  | obj fs =>
    refine ⟨?_,?_⟩
    · exact hv.1.sublist (List.filter_sublist.map Prod.fst)
    · have h := (plainFields_iff fs).mp hv.2
      exact (plainFields_iff _).mpr (fun p hp => h p (List.mem_filter.mp hp).1)
  | _ => exact hv

lemma sortFields_of_sorted {fs : List (String × Json)} (h : ∀ p ∈ fs, p.2.sortKeys = p.2) :
    sortFields codePointLe fs = fs := by
  rw [sortFields_eq_map]
  calc fs.map (fun p => (p.1,sortBy codePointLe p.2)) = fs.map id := by
        apply List.map_congr_left
        intro p hp
        exact Prod.ext rfl (h p hp)
    _ = fs := List.map_id fs

mutual
/-- Sorting twice is sorting once. -/
theorem sortKeys_idem : (v : Json) → v.sortKeys.sortKeys = v.sortKeys
  | .null | .bool _ | .int _ | .float _ | .str _ => rfl
  | .arr xs => congrArg Json.arr (sortElems_idem xs)
  | .obj fs => by
    have hmem : ∀ p ∈ (sortFields codePointLe fs).insertionSort (fun a b => codePointLe a.1 b.1),
        p.2.sortKeys = p.2 := by
      intro p hp
      exact sortFields_idem fs p ((List.perm_insertionSort _ _).mem_iff.mp hp)
    change Json.obj _ = Json.obj _
    rw [sortFields_of_sorted hmem]
    exact congrArg Json.obj (List.pairwise_insertionSort _ _).insertionSort_eq
theorem sortElems_idem : (xs : List Json) →
    sortElems codePointLe (sortElems codePointLe xs) = sortElems codePointLe xs
  | [] => rfl
  | x::xs => congrArg₂ List.cons (sortKeys_idem x) (sortElems_idem xs)
theorem sortFields_idem : (fs : List (String × Json)) →
    ∀ p ∈ sortFields codePointLe fs, p.2.sortKeys = p.2
  | [],_,hp => by simp [sortFields] at hp
  | (_,x)::fs,p,hp => by
    cases List.mem_cons.mp hp with
    | inl he =>
      subst he
      exact sortKeys_idem x
    | inr ht => exact sortFields_idem fs p ht
end

mutual
/-- How deep arrays and objects nest. -/
def depth : Json → ℕ
  | .arr xs => depthElems xs + 1
  | .obj fs => depthFields fs + 1
  | _ => 0
def depthElems : List Json → ℕ
  | [] => 0
  | x::xs => max (depth x) (depthElems xs)
def depthFields : List (String × Json) → ℕ
  | [] => 0
  | (_,x)::fs => max (depth x) (depthFields fs)
end

lemma depth_obj_le {fs : List (String × Json)} {n : ℕ} (h : ∀ p ∈ fs, p.2.depth ≤ n) :
    (Json.obj fs).depth ≤ n+1 := by
  change depthFields fs + 1 ≤ n+1
  apply Nat.succ_le_succ
  induction fs with
  | nil => exact Nat.zero_le n
  | cons p fs ih =>
    exact max_le (h p (by simp)) (ih (fun q hq => h q (by simp [hq])))

lemma depth_without_le (ks : List String) (v : Json) : (v.without ks).depth ≤ v.depth := by
  cases v with
  | obj fs =>
    change depthFields _ + 1 ≤ depthFields fs + 1
    apply Nat.succ_le_succ
    induction fs with
    | nil => exact le_rfl
    | cons p fs ih =>
      rw [List.filter_cons]
      split_ifs
      · exact max_le_max le_rfl ih
      · exact ih.trans (le_max_right _ _)
  | _ => exact le_rfl

lemma length_render_le_of_mem {fs : List (String × Json)} {p : String × Json} (hp : p ∈ fs) :
    (render p.2).length ≤ (render (.obj fs)).length := by
  have hfields : ∀ gs : List (String × Json), p ∈ gs →
      (render p.2).length ≤ (renderFields gs).length := by
    intro gs
    induction gs with
    | nil => simp
    | cons q gs ih =>
      intro hm
      simp only [renderFields,List.length_cons,List.length_append]
      cases List.mem_cons.mp hm with
      | inl he =>
        subst he
        omega
      | inr ht =>
        have := ih ht
        omega
  cases fs with
  | nil => simp at hp
  | cons q fs =>
    have hone := hfields (q::fs) hp
    simpa only [renderFields,render,List.length_cons] using hone

/-- A member's text is part of the text of the sorted tree. -/
theorem length_render_le {fs : List (String × Json)} {k : String} {v : Json} (h : (k,v) ∈ fs) :
    (render v.sortKeys).length ≤ (render (sortKeys (.obj fs))).length := by
  apply length_render_le_of_mem (p := (k,v.sortKeys))
  refine (List.perm_insertionSort _ _).mem_iff.mpr ?_
  rw [sortFields_eq_map]
  exact List.mem_map.mpr ⟨_,h,rfl⟩

/-- The compact text of the sorted tree determines the document. -/
theorem same_of_render {v w : Json} (hv : v.Plain) (hw : w.Plain)
    (h : utf8 (render v.sortKeys) = utf8 (render w.sortKeys)) : v.Same w :=
  render_injective_of_plain hv.sortKeys hw.sortKeys (utf8_injective h)

section Reordering

/-- One tree from another by rearranging the members of objects, at any depth. -/
inductive Reordered : Json → Json → Prop
  | refl (v) : Reordered v v
  | members {fs gs} : fs.Perm gs → Reordered (.obj fs) (.obj gs)
  | element {x y} (xs ys) : Reordered x y → Reordered (.arr (xs ++ x::ys)) (.arr (xs ++ y::ys))
  | value {x y} (k fs gs) : Reordered x y →
      Reordered (.obj (fs ++ (k,x)::gs)) (.obj (fs ++ (k,y)::gs))
  | trans {u v w} : Reordered u v → Reordered v w → Reordered u w

lemma Reordered.symm {v w : Json} (h : Reordered v w) : Reordered w v := by
  induction h with
  | refl v => exact .refl v
  | members hp => exact .members hp.symm
  | element xs ys _ ih => exact .element xs ys ih
  | value k fs gs _ ih => exact .value k fs gs ih
  | trans _ _ ih ih' => exact ih'.trans ih

mutual
/-- Sorting rearranges. -/
theorem reordered_sortKeys : (v : Json) → Reordered v v.sortKeys
  | .null | .bool _ | .int _ | .float _ | .str _ => .refl _
  | .arr xs => reordered_sortElems [] xs
  | .obj fs => (reordered_sortFields [] fs).trans (.members (List.perm_insertionSort _ _).symm)
theorem reordered_sortElems : (pre xs : List Json) →
    Reordered (.arr (pre ++ xs)) (.arr (pre ++ sortElems codePointLe xs))
  | pre,[] => .refl (.arr (pre ++ []))
  | pre,x::xs => by
    have hrest := reordered_sortElems (pre ++ [x.sortKeys]) xs
    rw [List.append_assoc,List.append_assoc] at hrest
    exact (Reordered.element pre xs (reordered_sortKeys x)).trans hrest
theorem reordered_sortFields : (pre fs : List (String × Json)) →
    Reordered (.obj (pre ++ fs)) (.obj (pre ++ sortFields codePointLe fs))
  | pre,[] => .refl (.obj (pre ++ []))
  | pre,(k,x)::fs => by
    have hrest := reordered_sortFields (pre ++ [(k,x.sortKeys)]) fs
    rw [List.append_assoc,List.append_assoc] at hrest
    exact (Reordered.value k pre fs (reordered_sortKeys x)).trans hrest
end

/-- Members with distinct keys sort alike in any order. -/
lemma same_of_perm {fs gs : List (String × Json)} (hp : fs.Perm gs)
    (h : (fs.map Prod.fst).Nodup) : Same (.obj fs) (.obj gs) := by
  have hsorted : (sortFields codePointLe fs).Perm (sortFields codePointLe gs) := by
    rw [sortFields_eq_map,sortFields_eq_map]
    exact hp.map _
  have hperm := (List.perm_insertionSort (fun a b : String × Json => codePointLe a.1 b.1)
    (sortFields codePointLe fs)).trans
    (hsorted.trans (List.perm_insertionSort (fun a b => codePointLe a.1 b.1) _).symm)
  refine congrArg Json.obj (sorted_members_unique hperm ?_ (List.pairwise_insertionSort _ _)
    (List.pairwise_insertionSort _ _))
  rw [((List.perm_insertionSort _ _).map Prod.fst).nodup_iff,sortFields_keys]
  exact h

/-- A rearrangement is the same document, and as plain. -/
lemma Reordered.same {v w : Json} (h : Reordered v w) (hv : v.Plain) : w.Plain ∧ v.Same w := by
  induction h with
  | refl v => exact ⟨hv,rfl⟩
  | @members fs gs hp =>
    refine ⟨⟨(hp.map Prod.fst).nodup_iff.mp hv.1,?_⟩,same_of_perm hp hv.1⟩
    have hall := (plainFields_iff fs).mp hv.2
    exact (plainFields_iff gs).mpr (fun p hm => hall p (hp.mem_iff.mpr hm))
  | @element x y xs ys _ ih =>
    have hall := (plainElems_iff _).mp hv
    obtain ⟨hy,hsame⟩ := ih (hall x (by simp))
    refine ⟨(plainElems_iff _).mpr (fun z hz => ?_),?_⟩
    · rcases List.mem_append.mp hz with hz | hz
      · exact hall z (by simp [hz])
      · rcases List.mem_cons.mp hz with rfl | hz
        · exact hy
        · exact hall z (by simp [hz])
    · change Json.arr (sortElems codePointLe _) = Json.arr (sortElems codePointLe _)
      simp only [sortElems_eq_map,List.map_append,List.map_cons]
      rw [show sortBy codePointLe x = sortBy codePointLe y from hsame]
  | @value x y k fs gs _ ih =>
    have hall := (plainFields_iff _).mp hv.2
    obtain ⟨hy,hsame⟩ := ih (hall (k,x) (by simp))
    refine ⟨⟨?_,(plainFields_iff _).mpr (fun p hp => ?_)⟩,?_⟩
    · simpa using hv.1
    · rcases List.mem_append.mp hp with hp | hp
      · exact hall p (by simp [hp])
      · rcases List.mem_cons.mp hp with rfl | hp
        · exact hy
        · exact hall p (by simp [hp])
    · have hfields : sortFields codePointLe (fs ++ (k,x)::gs) =
          sortFields codePointLe (fs ++ (k,y)::gs) := by
        simp only [sortFields_eq_map,List.map_append,List.map_cons]
        rw [show sortBy codePointLe x = sortBy codePointLe y from hsame]
      change Json.obj _ = Json.obj _
      rw [hfields]
  | trans _ _ ih ih' =>
    obtain ⟨hw,hs⟩ := ih hv
    obtain ⟨hu,hs'⟩ := ih' hw
    exact ⟨hu,hs.trans hs'⟩

/-- Being the same document is being a rearrangement. -/
theorem same_iff_reordered {v w : Json} (hv : v.Plain) : v.Same w ↔ Reordered v w := by
  constructor
  · intro h
    have hw := (reordered_sortKeys w).symm
    rw [← show v.sortKeys = w.sortKeys from h] at hw
    exact (reordered_sortKeys v).trans hw
  · exact fun h => (h.same hv).2

end Reordering

end Json
end Kswarm
