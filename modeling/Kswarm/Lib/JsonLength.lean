import Kswarm.Lib.JsonStyle

/-! How long the text of a tree can be, from the lengths of the strings in it alone. -/
namespace Kswarm

namespace Json

/-- Bytes enough for a string of so many characters. -/
def stringRoom (n : ℕ) : ℕ := 12*n + 2

mutual
/-- Bytes enough for a tree: twelve for a character, two for a separator. -/
def room : Json → ℕ
  | .str t => stringRoom t.length
  | .arr xs => 2 + roomElems xs
  | .obj fs => 2 + roomFields fs
  | v => (utf8 (render v)).length
def roomElems : List Json → ℕ
  | [] => 0
  | x::xs => room x + 2 + roomElems xs
def roomFields : List (String × Json) → ℕ
  | [] => 0
  | (k,x)::fs => stringRoom k.length + 2 + room x + 2 + roomFields fs
end

lemma stringRoom_le {m n : ℕ} (h : m ≤ n) : stringRoom m ≤ stringRoom n := by
  unfold stringRoom
  omega

lemma roomElems_le {xs : List Json} {n : ℕ} (h : ∀ x ∈ xs, x.room ≤ n) :
    roomElems xs ≤ xs.length*(n+2) := by
  induction xs with
  | nil => exact Nat.zero_le _
  | cons x xs ih =>
    obtain ⟨hx,hxs⟩ := List.forall_mem_cons.mp h
    have := ih hxs
    rw [roomElems,List.length_cons,Nat.succ_mul]
    omega

mutual
lemma write_compact : (v : Json) → compact.write v = render v
  | .null | .bool _ | .int _ | .float _ | .str _ | .arr [] | .obj [] => rfl
  | .arr (x::xs) => by rw [Style.write,render,write_compact x,writeElems_compact xs]
  | .obj ((k,x)::fs) => by
    rw [Style.write,render,write_compact x,writeFields_compact fs]
    rfl
lemma writeElems_compact : (xs : List Json) → compact.writeElems xs = renderElems xs
  | [] => rfl
  | x::xs => by
    rw [Style.writeElems,renderElems,write_compact x,writeElems_compact xs]
    rfl
lemma writeFields_compact : (fs : List (String × Json)) → compact.writeFields fs = renderFields fs
  | [] => rfl
  | (k,x)::fs => by
    rw [Style.writeFields,renderFields,write_compact x,writeFields_compact fs]
    rfl
end

section Room

/-- The style keeps to the room of a character and of a separator. -/
structure Style.Narrow (s : Style) : Prop where
  escape : ∀ c, (utf8 (s.escape c)).length ≤ 12
  comma : (utf8 s.afterComma).length ≤ 1
  colon : (utf8 s.afterColon).length ≤ 1

variable {s : Style}

lemma length_text_le (h : s.Narrow) (t : String) :
    (utf8 (s.text t)).length ≤ stringRoom t.length := by
  have hchars : ∀ cs : List Char, (utf8 (cs.flatMap s.escape)).length ≤ 12*cs.length := by
    intro cs
    induction cs with
    | nil => simp
    | cons c cs ih =>
      have := h.escape c
      simp only [List.flatMap_cons,utf8_append,List.length_append,List.length_cons]
      omega
  have hbody := hchars t.toList
  have hquote : (String.utf8EncodeChar '"').length = 1 := by decide
  rw [String.length_toList] at hbody
  simp only [Style.text,utf8_cons,utf8_append,utf8_nil,List.length_append,List.length_nil,hquote,
    stringRoom]
  omega

mutual
/-- The text of a tree stays in its room. -/
theorem length_write_le (h : s.Narrow) : (v : Json) → (utf8 (s.write v)).length ≤ room v
  | .null | .bool _ | .int _ | .float _ => le_refl _
  | .str t => length_text_le h t
  | .arr [] | .obj [] => le_refl 2
  | .arr (x::xs) => by
    have hx := length_write_le h x
    have hxs := length_writeElems_le h xs
    have hopen : (String.utf8EncodeChar '[').length = 1 := by decide
    simp only [Style.write,utf8_cons,utf8_append,List.length_append,hopen,room,roomElems]
    omega
  | .obj ((k,x)::fs) => by
    have hk := length_text_le h k
    have hx := length_write_le h x
    have hfs := length_writeFields_le h fs
    have hcolon := h.colon
    have hopen : (String.utf8EncodeChar '{').length = 1 := by decide
    have hsep : (String.utf8EncodeChar ':').length = 1 := by decide
    simp only [Style.write,utf8_cons,utf8_append,List.length_append,hopen,hsep,room,roomFields]
    omega
lemma length_writeElems_le (h : s.Narrow) :
    (xs : List Json) → (utf8 (s.writeElems xs)).length ≤ 1 + roomElems xs
  | [] => le_refl 1
  | x::xs => by
    have hx := length_write_le h x
    have hxs := length_writeElems_le h xs
    have hcomma := h.comma
    have hsep : (String.utf8EncodeChar ',').length = 1 := by decide
    simp only [Style.writeElems,utf8_cons,utf8_append,List.length_append,hsep,roomElems]
    omega
lemma length_writeFields_le (h : s.Narrow) :
    (fs : List (String × Json)) → (utf8 (s.writeFields fs)).length ≤ 1 + roomFields fs
  | [] => le_refl 1
  | (k,x)::fs => by
    have hk := length_text_le h k
    have hx := length_write_le h x
    have hfs := length_writeFields_le h fs
    have hcomma := h.comma
    have hcolon := h.colon
    have hsep : (String.utf8EncodeChar ',').length = 1 := by decide
    have hmid : (String.utf8EncodeChar ':').length = 1 := by decide
    simp only [Style.writeFields,utf8_cons,utf8_append,List.length_append,hsep,hmid,roomFields]
    omega
end

end Room

section Styles

lemma length_utf8_of_ascii {cs : List Char} (h : ∀ d ∈ cs, d.toNat < 128) {n : ℕ}
    (hn : cs.length ≤ n) : (utf8 cs).length ≤ n := by
  rwa [utf8_length_ascii h]

/-- A character stands for itself, or an escape of at most six takes its place. -/
lemma escapeChar_room (c : Char) : (utf8 (escapeChar c)).length ≤ 6 := by
  unfold escapeChar
  split_ifs with _ _ _ _ _ _ _ hcontrol
  · exact length_utf8_of_ascii (by simp) (by simp)
  · exact length_utf8_of_ascii (by simp) (by simp)
  · exact length_utf8_of_ascii (by simp) (by simp)
  · exact length_utf8_of_ascii (by simp) (by simp)
  · exact length_utf8_of_ascii (by simp) (by simp)
  · exact length_utf8_of_ascii (by simp) (by simp)
  · exact length_utf8_of_ascii (by simp) (by simp)
  · refine length_utf8_of_ascii ?_ (by simp)
    have hhigh := hexChar_ascii (n := c.toNat/16) (by omega)
    have hlow := hexChar_ascii (n := c.toNat%16) (by omega)
    simp only [List.forall_mem_cons]
    exact ⟨by decide,by decide,by decide,by decide,hhigh,hlow,by simp⟩
  · have := utf8_char_length c
    simp only [utf8_cons,utf8_nil,List.append_nil]
    omega

lemma unicodeEscape_room (n : ℕ) : (utf8 (unicodeEscape n)).length ≤ 6 := by
  refine length_utf8_of_ascii ?_ (by simp [unicodeEscape,hex4])
  have hdigit : ∀ m : ℕ, (hexChar (m%16)).toNat < 128 :=
    fun m => hexChar_ascii (Nat.mod_lt _ (by decide))
  simp only [unicodeEscape,hex4,List.forall_mem_cons]
  exact ⟨by decide,by decide,hdigit _,hdigit _,hdigit _,hdigit _,by simp⟩

lemma escapeAscii_room (c : Char) : (utf8 (escapeAscii c)).length ≤ 12 := by
  unfold escapeAscii
  split_ifs
  · exact (escapeChar_room c).trans (by decide)
  · exact (unicodeEscape_room _).trans (by decide)
  · rw [utf8_append,List.length_append]
    exact Nat.add_le_add (unicodeEscape_room _) (unicodeEscape_room _)

lemma compact_narrow : compact.Narrow :=
  ⟨fun c => (escapeChar_room c).trans (by decide),by decide,by decide⟩

lemma compactAscii_narrow : compactAscii.Narrow := ⟨escapeAscii_room,by decide,by decide⟩

/-- The compact text of a tree stays in its room. -/
theorem length_render_room (v : Json) : (utf8 (render v)).length ≤ room v := by
  rw [← write_compact]
  exact length_write_le compact_narrow v

end Styles

section Sorting

lemma roomFields_eq (fs : List (String × Json)) : roomFields fs =
    (fs.map (fun p => stringRoom p.1.length + 2 + p.2.room + 2)).sum := by
  induction fs with
  | nil => rfl
  | cons p fs ih => rw [roomFields,List.map_cons,List.sum_cons,ih]

mutual
/-- Sorting keeps the room. -/
theorem room_sortKeys : (v : Json) → v.sortKeys.room = v.room
  | .null | .bool _ | .int _ | .float _ | .str _ => rfl
  | .arr xs => congrArg (2 + ·) (roomElems_sorted xs)
  | .obj fs => by
    have hperm := List.perm_insertionSort
      (fun a b : String × Json => codePointLe a.1 b.1) (sortFields codePointLe fs)
    rw [sortKeys,sortBy,room,room,roomFields_eq,(hperm.map _).sum_eq,← roomFields_eq,
      roomFields_sorted fs]
lemma roomElems_sorted : (xs : List Json) → roomElems (sortElems codePointLe xs) = roomElems xs
  | [] => rfl
  | x::xs => by
    have hx : (sortBy codePointLe x).room = x.room := room_sortKeys x
    rw [sortElems,roomElems,roomElems,hx,roomElems_sorted xs]
lemma roomFields_sorted :
    (fs : List (String × Json)) → roomFields (sortFields codePointLe fs) = roomFields fs
  | [] => rfl
  | (k,x)::fs => by
    have hx : (sortBy codePointLe x).room = x.room := room_sortKeys x
    rw [sortFields,roomFields,roomFields,hx,roomFields_sorted fs]
end

end Sorting

end Json
end Kswarm
