import Kswarm.Lib.JsonWriters
import Kswarm.Protocol.CanonicalHash
import Kswarm.Reducer.BranchReceipt

/-! Canonical JSON in both languages. Both canonicalizers write the compact text of the document
with its keys sorted, each through its own writer, and the text determines the document up to the
order of keys. -/
namespace Kswarm
namespace Json

mutual
/-- Every integer of the tree fits `i64` or `u64`. -/
def Ranged : Json → Prop
  | .int n => -2^63 ≤ n ∧ n < 2^64
  | .arr xs => RangedElems xs
  | .obj fs => RangedFields fs
  | _ => True
def RangedElems : List Json → Prop
  | [] => True
  | x::xs => Ranged x ∧ RangedElems xs
def RangedFields : List (String × Json) → Prop
  | [] => True
  | (_,x)::fs => Ranged x ∧ RangedFields fs
end

mutual
theorem rejectFloats_of_ranged : (v : Json) → v.Plain → v.Ranged →
    Reducer.rejectFloats v = .ok ()
  | .null,_,_ | .bool _,_,_ | .str _,_,_ => rfl
  | .float _,hp,_ => hp.elim
  | .int n,_,hr => by
    have hfit : Reducer.isF64 (.int n) = false := by
      simp only [Reducer.isF64,decide_eq_false_iff_not,not_not]
      exact hr
    exact failIf_of_not (by simp [hfit])
  | .arr xs,hp,hr => rejectElems_of_ranged xs hp hr
  | .obj fs,hp,hr => rejectEntries_of_ranged fs hp.2 hr
theorem rejectElems_of_ranged : (xs : List Json) → PlainElems xs → RangedElems xs →
    Reducer.rejectElems xs = .ok ()
  | [],_,_ => rfl
  | x::xs,hp,hr => by
    rw [Reducer.rejectElems,rejectFloats_of_ranged x hp.1 hr.1,ok_bind]
    exact rejectElems_of_ranged xs hp.2 hr.2
theorem rejectEntries_of_ranged : (fs : List (String × Json)) → PlainFields fs →
    RangedFields fs → Reducer.rejectEntries fs = .ok ()
  | [],_,_ => rfl
  | (_,x)::fs,hp,hr => by
    rw [Reducer.rejectEntries,rejectFloats_of_ranged x hp.1 hr.1,ok_bind]
    exact rejectEntries_of_ranged fs hp.2 hr.2
end

end Json

namespace Mirror

/-- A JSON value without floats whose objects repeat no key and whose integers Rust can hold. -/
structure CanonicalValue where
  value : Json
  plain : value.Plain
  ranged : value.Ranged

namespace CanonicalValue

lemma protocol_bytes (v : CanonicalValue) :
    Protocol.canonicalJsonBytes v.value = .ok (utf8 v.value.dumps) := by
  rw [Protocol.canonicalJsonBytes,failIf_of_not (by simp [v.plain.finite]),ok_bind,Json.dumps_eq]
  rfl

lemma reducer_bytes (v : CanonicalValue) (ryu : Binary64 → Bytes) :
    Reducer.canonicalJsonBytes v.value = .ok (v.value.toVec ryu) := by
  rw [Reducer.canonicalJsonBytes,Json.rejectFloats_of_ranged _ v.plain v.ranged,ok_bind,
    Json.toVec_eq ryu _ v.plain]
  rfl

/-- The two writers agree. -/
lemma writers_agree (v : CanonicalValue) (ryu : Binary64 → Bytes) :
    v.value.toVec ryu = utf8 v.value.dumps := by
  rw [Json.toVec_eq ryu _ v.plain,Json.dumps_eq,Json.sortBy_byteLe]

end CanonicalValue

/-- Canonical JSON is one function in both languages, and it is injective up to key order. -/
theorem canonicalJson_injective (v w : CanonicalValue) :
    (∃ bytes, Protocol.canonicalJsonBytes v.value = .ok bytes ∧
      Reducer.canonicalJsonBytes v.value = .ok bytes ∧
      bytes = utf8 v.value.dumps ∧ ∀ ryu, bytes = v.value.toVec ryu) ∧
    (Protocol.canonicalJsonBytes v.value = Protocol.canonicalJsonBytes w.value ↔
      v.value.Reordered w.value) := by
  refine ⟨⟨_,v.protocol_bytes,?_,rfl,fun ryu => (v.writers_agree ryu).symm⟩,?_⟩
  · rw [v.reducer_bytes (fun _ => []),v.writers_agree]
  · rw [v.protocol_bytes,w.protocol_bytes,← Json.same_iff_reordered v.plain,Json.dumps_eq,
      Json.dumps_eq]
    constructor
    · exact fun h => Json.same_of_render v.plain w.plain (Except.ok.inj h)
    · intro h
      rw [show v.value.sortKeys = w.value.sortKeys from h]

/-- Two orders of the members of one object. -/
def firstOrder : CanonicalValue where
  value := .obj [("scores",.arr [.int (-7),.str "ü"]),("cid",.null)]
  plain := by simp [Json.Plain,Json.PlainFields,Json.PlainElems]
  ranged := by simp [Json.Ranged,Json.RangedFields,Json.RangedElems]

def secondOrder : CanonicalValue where
  value := .obj [("cid",.null),("scores",.arr [.int (-7),.str "ü"])]
  plain := by simp [Json.Plain,Json.PlainFields,Json.PlainElems]
  ranged := by simp [Json.Ranged,Json.RangedFields,Json.RangedElems]

/-- They are different trees with one text. -/
theorem canonicalJson_injective_orders : firstOrder.value ≠ secondOrder.value ∧
    (∃ bytes, Protocol.canonicalJsonBytes firstOrder.value = .ok bytes ∧
      Reducer.canonicalJsonBytes firstOrder.value = .ok bytes) ∧
    Protocol.canonicalJsonBytes firstOrder.value =
      Protocol.canonicalJsonBytes secondOrder.value := by
  obtain ⟨⟨bytes,hpython,hrust,-⟩,hsame⟩ := canonicalJson_injective firstOrder secondOrder
  refine ⟨?_,⟨bytes,hpython,hrust⟩,hsame.mpr (.members (.swap _ _ _))⟩
  simp [firstOrder,secondOrder]

end Mirror
end Kswarm
