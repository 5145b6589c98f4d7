import Kswarm.Lib.Farthest
import Kswarm.Lib.Sha256
import Mathlib.Data.List.Lex

/-! Byte strings in lexicographic order, and the stable sort of fixed arrays in that order. -/
namespace Kswarm

/-- Numerical values of the bytes, compared lexicographically. -/
def byteKey (b : Bytes) : List ℕ := b.map UInt8.toNat

theorem byteKey_injective : Function.Injective byteKey :=
  List.map_injective_iff.mpr (fun _ _ h => UInt8.toNat_inj.mp h)

lemma byteKey_append (a b : Bytes) : byteKey (a ++ b) = byteKey a ++ byteKey b :=
  List.map_append

/-- Array comparison of 32-byte arrays: bytes from the left. -/
def digestLe (a b : Digest) : Prop := byteKey a.val ≤ byteKey b.val

instance : DecidableRel digestLe :=
  fun a b => inferInstanceAs (Decidable (byteKey a.val ≤ byteKey b.val))

instance : Std.Total digestLe := ⟨fun a b => le_total (byteKey a.val) (byteKey b.val)⟩

instance : IsTrans Digest digestLe := ⟨fun _ _ _ h h' => le_trans h h'⟩

instance : Std.Antisymm digestLe :=
  ⟨fun _ _ h h' => Subtype.ext (byteKey_injective (le_antisymm h h'))⟩

/-- Sorting forgets the order of its input. -/
theorem sorted_eq_of_perm {xs ys : List Digest} (h : xs.Perm ys) :
    xs.insertionSort digestLe = ys.insertionSort digestLe := insertionSort_perm h

lemma sorted_ne_nil {xs : List Digest} (h : xs ≠ []) : xs.insertionSort digestLe ≠ [] := by
  intro he
  have := (List.perm_insertionSort digestLe xs).length_eq
  rw [he] at this
  exact h (List.eq_nil_of_length_eq_zero this.symm)

end Kswarm
