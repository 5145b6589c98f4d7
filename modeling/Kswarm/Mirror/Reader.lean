import Kswarm.Reducer.BranchReceipt

/-! The reader of JSON the guests are built with. It holds an integer outside `i64` and `u64` as a
floating-point number, which no canonical document contains and no field of an artifact is read
from. -/
namespace Kswarm
namespace Json

mutual
/-- The tree `serde_json` holds: an integer outside `i64` and `u64` becomes a floating-point
number, `approx` says which. -/
def held (approx : ℤ → Binary64) : Json → Json
  | .int n => if -2^63 ≤ n ∧ n < 2^64 then .int n else .float (approx n)
  | .arr xs => .arr (heldElems approx xs)
  | .obj fs => .obj (heldFields approx fs)
  | v => v
def heldElems (approx : ℤ → Binary64) : List Json → List Json
  | [] => []
  | x::xs => held approx x :: heldElems approx xs
def heldFields (approx : ℤ → Binary64) : List (String × Json) → List (String × Json)
  | [] => []
  | (k,x)::fs => (k,held approx x) :: heldFields approx fs
end

/-- The binary64 number closest to an integer. -/
def nearest (n : ℤ) : Binary64 := Binary64.ofDecimal (decide (n < 0)) n.natAbs 0

variable {approx : ℤ → Binary64}

lemma heldFields_eq_map (fs : List (String × Json)) :
    heldFields approx fs = fs.map (fun p => (p.1,held approx p.2)) := by
  induction fs with
  | nil => rfl
  | cons p fs ih => simp [heldFields,ih]

lemma get_held (v : Json) (k : String) :
    (v.held approx).get k = (v.get k).map (held approx) := by
  cases v with
  | obj fs =>
    change (heldFields approx fs).lookup k = _
    rw [heldFields_eq_map]
    exact lookup_map_snd (held approx) fs k
  | int n =>
    unfold held
    split_ifs <;> rfl
  | _ => rfl

end Json

namespace Reducer
open Json
variable {approx : ℤ → Binary64}

lemma rejectEntries_eq_ok {fs : List (String × Json)} :
    rejectEntries fs = .ok () ↔ ∀ p ∈ fs, rejectFloats p.2 = .ok () := by
  induction fs with
  | nil => simp [rejectEntries]
  | cons p fs ih =>
    rw [List.forall_mem_cons,← ih]
    simp only [rejectEntries,bind_eq_ok]
    constructor
    · rintro ⟨_,hx,hfs⟩
      exact ⟨hx,hfs⟩
    · rintro ⟨hx,hfs⟩
      exact ⟨(),hx,hfs⟩

mutual
/-- What the guest lets through holds the integers of the text. -/
theorem held_of_rejectFloats : (v : Json) → rejectFloats (v.held approx) = .ok () → v.held approx = v
  | .null,_ | .bool _,_ | .float _,_ | .str _,_ => rfl
  | .int n,h => by
    unfold held at h ⊢
    split_ifs at h ⊢
    · rfl
    · simp [rejectFloats,isF64] at h
  | .arr xs,h => congrArg Json.arr (heldElems_of_reject xs h)
  | .obj fs,h => congrArg Json.obj (heldFields_of_reject fs h)
theorem heldElems_of_reject : (xs : List Json) →
    rejectElems (heldElems approx xs) = .ok () → heldElems approx xs = xs
  | [],_ => rfl
  | x::xs,h => by
    simp only [heldElems,rejectElems,bind_eq_ok] at h
    obtain ⟨_,hx,hxs⟩ := h
    exact congrArg₂ List.cons (held_of_rejectFloats x hx) (heldElems_of_reject xs hxs)
theorem heldFields_of_reject : (fs : List (String × Json)) →
    rejectEntries (heldFields approx fs) = .ok () → heldFields approx fs = fs
  | [],_ => rfl
  | (k,x)::fs,h => by
    simp only [heldFields,rejectEntries,bind_eq_ok] at h
    obtain ⟨_,hx,hfs⟩ := h
    exact congrArg₂ List.cons (congrArg (Prod.mk k) (held_of_rejectFloats x hx))
      (heldFields_of_reject fs hfs)
end

mutual
/-- Every integer the guest accepts is held as it is. -/
theorem held_eq_of_rejectFloats : (v : Json) → rejectFloats v = .ok () → v.held approx = v
  | .null,_ | .bool _,_ | .float _,_ | .str _,_ => rfl
  | .int n,h => by
    simp only [rejectFloats,isF64,failIf_eq_ok,decide_eq_true_eq,not_not] at h
    rw [held,if_pos h]
  | .arr xs,h => congrArg Json.arr (heldElems_eq_of_reject xs h)
  | .obj fs,h => congrArg Json.obj (heldFields_eq_of_reject fs h)
theorem heldElems_eq_of_reject : (xs : List Json) →
    rejectElems xs = .ok () → heldElems approx xs = xs
  | [],_ => rfl
  | x::xs,h => by
    simp only [rejectElems,bind_eq_ok] at h
    obtain ⟨_,hx,hxs⟩ := h
    exact congrArg₂ List.cons (held_eq_of_rejectFloats x hx) (heldElems_eq_of_reject xs hxs)
theorem heldFields_eq_of_reject : (fs : List (String × Json)) →
    rejectEntries fs = .ok () → heldFields approx fs = fs
  | [],_ => rfl
  | (k,x)::fs,h => by
    simp only [rejectEntries,bind_eq_ok] at h
    obtain ⟨_,hx,hfs⟩ := h
    exact congrArg₂ List.cons (congrArg (Prod.mk k) (held_eq_of_rejectFloats x hx))
      (heldFields_eq_of_reject fs hfs)
end

mutual
/-- Sorting keys brings in no number. -/
theorem rejectFloats_sortKeys : (v : Json) → rejectFloats v = .ok () →
    rejectFloats v.sortKeys = .ok ()
  | .null,h | .bool _,h | .int _,h | .float _,h | .str _,h => h
  | .arr xs,h => rejectElems_sortElems xs h
  | .obj fs,h => by
    refine rejectEntries_eq_ok.mpr (fun p hp => ?_)
    exact rejectEntries_eq_ok.mp (rejectEntries_sortFields fs h) p
      ((List.perm_insertionSort _ _).mem_iff.mp hp)
theorem rejectElems_sortElems : (xs : List Json) → rejectElems xs = .ok () →
    rejectElems (sortElems codePointLe xs) = .ok ()
  | [],_ => rfl
  | x::xs,h => by
    simp only [rejectElems,sortElems,bind_eq_ok] at h ⊢
    obtain ⟨u,hx,hxs⟩ := h
    exact ⟨u,rejectFloats_sortKeys x hx,rejectElems_sortElems xs hxs⟩
theorem rejectEntries_sortFields : (fs : List (String × Json)) → rejectEntries fs = .ok () →
    rejectEntries (sortFields codePointLe fs) = .ok ()
  | [],_ => rfl
  | (_,x)::fs,h => by
    simp only [rejectEntries,sortFields,bind_eq_ok] at h ⊢
    obtain ⟨u,hx,hfs⟩ := h
    exact ⟨u,rejectFloats_sortKeys x hx,rejectEntries_sortFields fs hfs⟩
end

lemma rejectFloats_without (ks : List String) {v : Json} (h : rejectFloats v = .ok ()) :
    rejectFloats (v.without ks) = .ok () := by
  cases v with
  | obj fs =>
    refine rejectEntries_eq_ok.mpr (fun p hp => ?_)
    exact rejectEntries_eq_ok.mp h p (List.mem_filter.mp hp).1
  | _ => exact h

/-- On a sorted document the guest writes what Python writes. -/
theorem canonicalJsonBytes_sortKeys {v : Json} (h : rejectFloats v.sortKeys = .ok ()) :
    canonicalJsonBytes v.sortKeys = .ok (utf8 (render v.sortKeys)) := by
  simp only [canonicalJsonBytes,bind_eq_ok,pure_eq_ok,sortBy_byteLe,sortKeys_idem]
  exact ⟨(),h,trivial⟩

end Reducer

namespace Mirror

/-- A JSON parser over UTF-8 bytes that holds numbers as `serde_json` does. -/
def jsonOfBytes (b : Bytes) : Option Json :=
  ((decodeUtf8 b).bind Json.loads).map (Json.held Json.nearest)

/-- Printed text is read back as it is held. -/
theorem jsonOfBytes_render {v : Json} (h : v.Plain) :
    jsonOfBytes (utf8 (Json.render v)) = some (v.held Json.nearest) := by
  rw [jsonOfBytes,decodeUtf8_utf8,Option.bind_some,Json.loads_render _ h,Option.map_some]

end Mirror
end Kswarm
