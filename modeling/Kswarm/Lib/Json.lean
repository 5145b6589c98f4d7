import Kswarm.Lib.Binary64
import Kswarm.Lib.Utf8
import Mathlib.Data.List.Sort

/-! JSON document trees: integers of any size, binary64 numbers, scalar-value strings, arrays and
key-value objects. `sortKeys` is the normal form under reordering of object keys. -/
namespace Kswarm

inductive Json where
  | null
  | bool (b : Bool)
  | int (n : ℤ)
  | float (f : Binary64)
  | str (s : String)
  | arr (xs : List Json)
  | obj (fs : List (String × Json))

namespace Json

/-- Member lookup; anything but an object has no members. -/
def get (k : String) : Json → Option Json
  | .obj fs => fs.lookup k
  | _ => none

lemma lookup_cons_ite {α β : Type} [DecidableEq α] (k : α) (v : β) (fs : List (α × β)) (z : α) :
    ((k,v)::fs).lookup z = if z = k then some v else fs.lookup z := by
  by_cases h : z = k
  · simp [h]
  · have hb : (z == k) = false := by simpa using h
    simp [List.lookup_cons,hb,h]

def isObj : Json → Bool
  | .obj _ => true
  | _ => false

/-- `bool(value)`. -/
def truthy : Json → Bool
  | .null => false
  | .bool b => b
  | .int n => n != 0
  | .float (.finite _ mag) => decide (mag ≠ 0)
  | .float _ => true
  | .str s => !s.isEmpty
  | .arr xs => !xs.isEmpty
  | .obj fs => !fs.isEmpty

mutual
/-- The same tree with the members of every object sorted by key. -/
def sortBy (r : String → String → Prop) [DecidableRel r] : Json → Json
  | .arr xs => .arr (sortElems r xs)
  | .obj fs => .obj ((sortFields r fs).insertionSort (fun a b => r a.1 b.1))
  | v => v
def sortElems (r : String → String → Prop) [DecidableRel r] : List Json → List Json
  | [] => []
  | x::xs => sortBy r x :: sortElems r xs
def sortFields (r : String → String → Prop) [DecidableRel r] :
    List (String × Json) → List (String × Json)
  | [] => []
  | (k,x)::fs => (k,sortBy r x) :: sortFields r fs
end

/-- Code point order. -/
def codePointLe (a b : String) : Prop := a.toList ≤ b.toList

instance : DecidableRel codePointLe := fun a b => inferInstanceAs (Decidable (a.toList ≤ b.toList))

/-- Byte order of the UTF-8 encodings. -/
def byteLe (a b : String) : Prop := byteKey (utf8 a.toList) ≤ byteKey (utf8 b.toList)

instance : DecidableRel byteLe :=
  fun a b => inferInstanceAs (Decidable (byteKey (utf8 a.toList) ≤ byteKey (utf8 b.toList)))

/-- The normal form under reordering of keys. -/
def sortKeys (v : Json) : Json := sortBy codePointLe v

/-- The two orders of keys are one. -/
theorem sortBy_byteLe (v : Json) : sortBy byteLe v = v.sortKeys := by
  have hle : byteLe = codePointLe := by
    funext a b
    exact propext (utf8_le_iff a.toList b.toList)
  have hdec : ∀ (r s : String → String → Prop) (dr : DecidableRel r) (ds : DecidableRel s),
      r = s → @sortBy r dr v = @sortBy s ds v := by
    intro r s dr ds h
    subst h
    rw [Subsingleton.elim dr ds]
  exact hdec _ _ _ _ hle

/-- Two trees are the same document when they differ in key order only. -/
def Same (v w : Json) : Prop := v.sortKeys = w.sortKeys

mutual
/-- A tree without binary64 numbers in which no object repeats a key. -/
def Plain : Json → Prop
  | .float _ => False
  | .arr xs => PlainElems xs
  | .obj fs => (fs.map Prod.fst).Nodup ∧ PlainFields fs
  | _ => True
def PlainElems : List Json → Prop
  | [] => True
  | x::xs => Plain x ∧ PlainElems xs
def PlainFields : List (String × Json) → Prop
  | [] => True
  | (_,x)::fs => Plain x ∧ PlainFields fs
end

section Sorting
variable (r : String → String → Prop) [DecidableRel r]

lemma sortFields_eq_map (fs : List (String × Json)) :
    sortFields r fs = fs.map (fun p => (p.1,sortBy r p.2)) := by
  induction fs with
  | nil => rfl
  | cons p fs ih => simp [sortFields,ih]

lemma sortElems_eq_map (xs : List Json) : sortElems r xs = xs.map (sortBy r) := by
  induction xs with
  | nil => rfl
  | cons x xs ih => simp [sortElems,ih]

lemma sortFields_keys (fs : List (String × Json)) :
    (sortFields r fs).map Prod.fst = fs.map Prod.fst := by
  rw [sortFields_eq_map,List.map_map]
  rfl

end Sorting

lemma plainFields_iff (fs : List (String × Json)) :
    PlainFields fs ↔ ∀ p ∈ fs, p.2.Plain := by
  induction fs with
  | nil => simp [PlainFields]
  | cons p fs ih => simp [PlainFields,ih]

lemma plainElems_iff (xs : List Json) : PlainElems xs ↔ ∀ x ∈ xs, x.Plain := by
  induction xs with
  | nil => simp [PlainElems]
  | cons x xs ih => simp [PlainElems,ih]

mutual
theorem Plain.sortBy (r : String → String → Prop) [DecidableRel r] :
    (v : Json) → v.Plain → (v.sortBy r).Plain
  | .null,h | .bool _,h | .int _,h | .float _,h | .str _,h => h
  | .arr xs,h => PlainElems.sortElems r xs h
  | .obj fs,h => by
    have hp := List.perm_insertionSort (fun a b : String × Json => r a.1 b.1) (sortFields r fs)
    have hf := (plainFields_iff _).mp (PlainFields.sortFields r fs h.2)
    refine ⟨?_,(plainFields_iff _).mpr (fun p hm => hf p (hp.mem_iff.mp hm))⟩
    rw [(hp.map Prod.fst).nodup_iff,sortFields_keys]
    exact h.1
theorem PlainElems.sortElems (r : String → String → Prop) [DecidableRel r] :
    (xs : List Json) → PlainElems xs → PlainElems (sortElems r xs)
  | [],_ => trivial
  | x::xs,h => ⟨Plain.sortBy r x h.1,PlainElems.sortElems r xs h.2⟩
theorem PlainFields.sortFields (r : String → String → Prop) [DecidableRel r] :
    (fs : List (String × Json)) → PlainFields fs → PlainFields (sortFields r fs)
  | [],_ => trivial
  | (_,x)::fs,h => ⟨Plain.sortBy r x h.1,PlainFields.sortFields r fs h.2⟩
end

theorem Plain.sortKeys {v : Json} (h : v.Plain) : v.sortKeys.Plain := Plain.sortBy _ v h

end Json
end Kswarm
