import Kswarm.Lib.JsonSame

/-! Values as a dynamic language compares and prints them: numbers by value whatever their type,
dictionaries without regard to order. -/
namespace Kswarm
namespace Json

/-- The number a value is. -/
def number : Json → Option ℚ
  | .bool b => some (if b then 1 else 0)
  | .int n => some n
  | .float (.finite neg mag) => some (if neg then -(mag : ℚ) else mag)
  | _ => none

def isNull : Json → Bool
  | .null => true
  | _ => false

mutual
/-- `v == w`. -/
def equal : Json → Json → Bool
  | .null,w => w.isNull
  | .str a,.str b => decide (a = b)
  | .arr xs,.arr ys => equalElems xs ys
  | .obj fs,.obj gs => decide (fs.length = gs.length) && equalFields fs gs
  | .float (.inf a),.float (.inf b) => a == b
  | v,w => match v.number,w.number with
    | some a,some b => decide (a = b)
    | _,_ => false
def equalElems : List Json → List Json → Bool
  | [],ys => ys.isEmpty
  | x::xs,y::ys => equal x y && equalElems xs ys
  | _::_,[] => false
/-- Every member has an equal one under its key. -/
def equalFields : List (String × Json) → List (String × Json) → Bool
  | [],_ => true
  | (k,x)::fs,gs => (match gs.lookup k with
    | some y => equal x y
    | none => false) && equalFields fs gs
end

/-- `value.get(key) or {}` as a dictionary, where it is one. -/
def dictMember (v : Json) (k : String) : Option Json :=
  let m := (v.get k).getD .null
  if m.truthy = false then some (.obj []) else if m.isObj then some m else none

/-- `str(value)`, given how a value that is no text is printed. -/
def textOf (str : Json → String) : Json → String
  | .str s => s
  | v => str v

mutual
/-- A plain tree equals itself. -/
theorem equal_refl : (v : Json) → v.Plain → v.equal v = true
  | .null,_ => rfl
  | .bool b,_ => by cases b <;> rfl
  | .int n,_ => by simp [equal,number]
  | .float _,h => h.elim
  | .str s,_ => by simp [equal]
  | .arr xs,h => equalElems_refl xs h
  | .obj fs,h => by
    have hmembers : ∀ p ∈ fs, fs.lookup p.1 = some p.2 :=
      fun p hp => (lookup_eq_some_of_nodup h.1 p.1 p.2).mpr hp
    rw [equal,equalFields_refl fs fs h.2 hmembers]
    simp
theorem equalElems_refl : (xs : List Json) → PlainElems xs → equalElems xs xs = true
  | [],_ => rfl
  | x::xs,h => by rw [equalElems,equal_refl x h.1,equalElems_refl xs h.2,Bool.and_self]
theorem equalFields_refl : (fs gs : List (String × Json)) → PlainFields fs →
    (∀ p ∈ fs, gs.lookup p.1 = some p.2) → equalFields fs gs = true
  | [],_,_,_ => rfl
  | (k,x)::fs,gs,h,hmem => by
    have hk : gs.lookup k = some x := hmem (k,x) (by simp)
    have htail := equalFields_refl fs gs h.2 (fun p hp => hmem p (by simp [hp]))
    simp only [equalFields,hk,equal_refl x h.1,htail,Bool.and_self]
end

/-- Dictionaries of different sizes differ. -/
lemma equal_obj_length {fs gs : List (String × Json)} (h : fs.length ≠ gs.length) :
    (Json.obj fs).equal (.obj gs) = false := by
  simp [equal,h]

lemma dictMember_of_get {v m : Json} {k : String} (h : v.get k = some m) (hm : m.isObj = true) :
    v.dictMember k = some m := by
  cases m with
  | obj fs =>
    simp only [dictMember,h,Option.getD_some,isObj,if_true]
    cases fs <;> rfl
  | _ => cases hm

end Json
end Kswarm
