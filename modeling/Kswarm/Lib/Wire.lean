import Kswarm.Lib.Borsh
import Mathlib.Data.Int.Basic
import Mathlib.Data.List.Infix
import Mathlib.Logic.Equiv.Defs

/-! Wire formats. A format says which values it can carry, writes them, and reads one off the front
of a byte string; it carries both laws, that what was written is read back whatever follows, and
that nothing else is read. Formats are put together from fields, so the laws of a record come from
those of its fields. -/
namespace Kswarm
variable {α β : Type}

/-- Only its own code decodes to a text. -/
lemma utf8_of_decodeUtf8 {b : Bytes} {cs : List Char} (h : decodeUtf8 b = some cs) :
    utf8 cs = b := by
  obtain ⟨chars,hchars,rfl⟩ := Option.map_eq_some_iff.mp h
  have hencode := ByteArray.utf8Encode_get_utf8Decode? (b := b.toByteArray) (h := by simp [hchars])
  simp only [hchars,Option.get_some] at hencode
  have hbytes : (utf8 chars.toList).toByteArray = b.toByteArray := hencode
  simpa using congrArg (fun a => a.data.toList) hbytes

/-- A wire format with its two laws. -/
structure Wire (α : Type) where
  Fits : α → Prop
  write : α → Bytes
  read : Bytes → Option (α × Bytes)
  read_write : ∀ {a}, Fits a → ∀ r, read (write a ++ r) = some (a,r)
  exact : ∀ {b a r}, read b = some (a,r) → Fits a ∧ b = write a ++ r

/-- The format of a whole message: a byte string is a message in one way only. -/
structure Format (α : Type) where
  Fits : α → Prop
  write : α → Bytes
  read : Bytes → Option α
  read_eq_some_iff : ∀ {b a}, read b = some a ↔ Fits a ∧ b = write a

namespace Wire

/-- No bytes. -/
def unit : Wire Unit where
  Fits _ := True
  write _ := []
  read b := some ((),b)
  read_write _ _ := rfl
  exact h := by
    obtain ⟨-,rfl⟩ := Prod.mk.inj (Option.some.inj h)
    exact ⟨trivial,rfl⟩

/-- Exactly `n` bytes. -/
def block (n : ℕ) : Wire { b : Bytes // b.length = n } where
  Fits _ := True
  write a := a.val
  read b := if h : n ≤ b.length then some (⟨b.take n,List.length_take_of_le h⟩,b.drop n) else none
  read_write := by
    rintro ⟨a,rfl⟩ - r
    rw [dif_pos (by simp)]
    simp
  exact := by
    intro b a r h
    split at h
    · obtain ⟨rfl,rfl⟩ := Prod.mk.inj (Option.some.inj h)
      exact ⟨trivial,(List.take_append_drop n b).symm⟩
    · cases h

/-- A byte string that must have `n` bytes. -/
def bytes (n : ℕ) : Wire Bytes where
  Fits b := b.length = n
  write b := b
  read b := if n ≤ b.length then some (b.take n,b.drop n) else none
  read_write := by
    rintro b rfl r
    rw [if_pos (by simp)]
    simp
  exact := by
    intro b a r h
    split at h
    · rename_i hlength
      obtain ⟨rfl,rfl⟩ := Prod.mk.inj (Option.some.inj h)
      exact ⟨List.length_take_of_le hlength,(List.take_append_drop n b).symm⟩
    · cases h

/-- A value in the place of an equivalent one. -/
def map (w : Wire α) (f : α → β) (g : β → α) (P : β → Prop) (hg : ∀ b, P b → w.Fits (g b))
    (hfg : ∀ b, P b → f (g b) = b) (hgf : ∀ a, w.Fits a → P (f a) ∧ g (f a) = a) : Wire β where
  Fits := P
  write b := w.write (g b)
  read bytes := (w.read bytes).map (fun p => (f p.1,p.2))
  read_write := by
    intro b hb r
    rw [w.read_write (hg b hb),Option.map_some,hfg b hb]
  exact := by
    intro bytes b r h
    obtain ⟨⟨a,r'⟩,hread,hpair⟩ := Option.map_eq_some_iff.mp h
    obtain ⟨rfl,rfl⟩ := Prod.mk.inj hpair
    obtain ⟨hfits,hbytes⟩ := w.exact hread
    obtain ⟨hP,hsame⟩ := hgf a hfits
    exact ⟨hP,by rw [hsame,hbytes]⟩

/-- The fields of a record, in a row. -/
def ofEquiv (w : Wire α) (e : α ≃ β) : Wire β :=
  w.map e e.symm (fun b => w.Fits (e.symm b)) (fun _ hb => hb) (fun b _ => e.apply_symm_apply b)
    (fun a ha => by simpa using ha)

/-- A little-endian integer of `w` bytes. -/
def int (w : ℕ) : Wire ℤ :=
  (block w).map (fun b => (ofLe b.val : ℤ)) (fun z => ⟨leBytes w z.toNat,leBytes_length w _⟩)
    (fun z => 0 ≤ z ∧ z < 256^w) (fun _ _ => trivial)
    (by
      rintro z ⟨hnonneg,hlt⟩
      have hnat : z.toNat < 256^w := by
        zify
        rwa [Int.toNat_of_nonneg hnonneg]
      simp only [ofLe_leBytes_of_lt hnat,Int.toNat_of_nonneg hnonneg])
    (by
      rintro ⟨b,rfl⟩ -
      refine ⟨⟨Int.natCast_nonneg _,by exact_mod_cast ofLe_lt b⟩,?_⟩
      simp only [Int.toNat_natCast,leBytes_ofLe])

/-- Two fields in a row. -/
def pair (x : Wire α) (y : Wire β) : Wire (α × β) where
  Fits p := x.Fits p.1 ∧ y.Fits p.2
  write p := x.write p.1 ++ y.write p.2
  read b := (x.read b).bind (fun p => (y.read p.2).map (fun q => ((p.1,q.1),q.2)))
  read_write := by
    rintro ⟨a,c⟩ ⟨ha,hc⟩ r
    rw [List.append_assoc,x.read_write ha,Option.bind_some,y.read_write hc]
    rfl
  exact := by
    intro b p r h
    obtain ⟨⟨a,middle⟩,hfirst,h⟩ := Option.bind_eq_some_iff.mp h
    obtain ⟨⟨c,r'⟩,hsecond,hpair⟩ := Option.map_eq_some_iff.mp h
    obtain ⟨rfl,rfl⟩ := Prod.mk.inj hpair
    obtain ⟨ha,rfl⟩ := x.exact hfirst
    obtain ⟨hc,rfl⟩ := y.exact hsecond
    exact ⟨⟨ha,hc⟩,(List.append_assoc _ _ _).symm⟩

/-- A length of four bytes, then as many bytes. -/
def vec : Wire Bytes where
  Fits b := Sized b.length
  write := borshVec
  read bytes := ((int 4).read bytes).bind (fun p =>
    ((block p.1.toNat).read p.2).map (fun q => (q.1.val,q.2)))
  read_write := by
    intro b hb r
    have hlength : borshU32 (UInt32.ofNat b.length) = (int 4).write b.length := by
      rw [borshU32,UInt32.toNat_ofNat_of_lt' hb]
      rfl
    have hfits : (int 4).Fits (b.length : ℤ) := ⟨Int.natCast_nonneg _,by exact_mod_cast hb⟩
    rw [borshVec,hlength,List.append_assoc,(int 4).read_write hfits,Option.bind_some]
    have hread : (block b.length).read (b ++ r) = some (⟨b,rfl⟩,r) :=
      (block b.length).read_write (a := ⟨b,rfl⟩) trivial r
    change ((block b.length).read (b ++ r)).map _ = _
    rw [hread]
    rfl
  exact := by
    intro bytes b r h
    obtain ⟨⟨n,middle⟩,hlength,h⟩ := Option.bind_eq_some_iff.mp h
    obtain ⟨⟨⟨c,hc⟩,r'⟩,hblock,hpair⟩ := Option.map_eq_some_iff.mp h
    obtain ⟨rfl,rfl⟩ := Prod.mk.inj hpair
    obtain ⟨⟨hnonneg,hlt⟩,rfl⟩ := (int 4).exact hlength
    obtain ⟨-,hmiddle⟩ := (block n.toNat).exact hblock
    have hcount : c.length = n.toNat := hc
    have hsized : Sized c.length := by
      rw [hcount]
      exact (Int.toNat_lt hnonneg).mpr (by exact_mod_cast hlt)
    have hrest : middle = c ++ r' := hmiddle
    refine ⟨hsized,?_⟩
    rw [borshVec,borshU32,UInt32.toNat_ofNat_of_lt' hsized,hcount,List.append_assoc,← hrest]
    rfl

/-- A text in UTF-8 behind its length in bytes. -/
def text : Wire String where
  Fits s := Sized (utf8 s.toList).length
  write := borshString
  read bytes := (vec.read bytes).bind (fun p => (decodeUtf8 p.1).map (fun s => (String.ofList s,p.2)))
  read_write := by
    intro s hs r
    have hread : vec.read (borshString s ++ r) = some (utf8 s.toList,r) := vec.read_write hs r
    rw [hread,Option.bind_some,decodeUtf8_utf8,Option.map_some,String.ofList_toList]
  exact := by
    intro bytes s r h
    obtain ⟨⟨raw,r'⟩,hraw,h⟩ := Option.bind_eq_some_iff.mp h
    obtain ⟨cs,hdecode,hpair⟩ := Option.map_eq_some_iff.mp h
    obtain ⟨rfl,rfl⟩ := Prod.mk.inj hpair
    obtain ⟨hsized,rfl⟩ := vec.exact hraw
    have hcode := utf8_of_decodeUtf8 hdecode
    simp only [borshString,String.toList_ofList,hcode]
    exact ⟨hsized,rfl⟩

/-- A message that is one value. -/
def whole (w : Wire α) : Format α where
  Fits := w.Fits
  write := w.write
  read b := (w.read b).bind (fun p => if p.2 = [] then some p.1 else none)
  read_eq_some_iff := by
    intro b a
    constructor
    · intro h
      obtain ⟨⟨a',r⟩,hread,h⟩ := Option.bind_eq_some_iff.mp h
      obtain ⟨hnil,ha⟩ := Option.ite_none_right_eq_some.mp h
      obtain rfl := Option.some.inj ha
      obtain ⟨hfits,rfl⟩ := w.exact hread
      exact ⟨hfits,by rw [show r = [] from hnil,List.append_nil]⟩
    · rintro ⟨hfits,rfl⟩
      have hread := w.read_write hfits []
      rw [List.append_nil] at hread
      rw [hread]
      rfl

/-- A message that is one value and whatever follows it. -/
def andRest (w : Wire α) : Format (α × Bytes) where
  Fits p := w.Fits p.1
  write p := w.write p.1 ++ p.2
  read := w.read
  read_eq_some_iff := by
    rintro b ⟨a,r⟩
    constructor
    · exact w.exact
    · rintro ⟨hfits,rfl⟩
      exact w.read_write hfits r

end Wire

namespace Format

/-- A message of one of several kinds, behind the tag of its kind. No tag begins another one. -/
def tagged {K : Type} {A : K → Type} (kinds : List K) (hall : ∀ k, k ∈ kinds) (tag : K → Bytes)
    (hfree : ∀ k l, tag k <+: tag l → k = l) (format : (k : K) → Format (A k)) :
    Format (Σ k, A k) where
  Fits c := (format c.1).Fits c.2
  write c := tag c.1 ++ (format c.1).write c.2
  read b := (kinds.find? (fun k => (tag k).isPrefixOf b)).bind (fun k =>
    ((format k).read (b.drop (tag k).length)).map (Sigma.mk k))
  read_eq_some_iff := by
    rintro b ⟨k,a⟩
    constructor
    · intro h
      obtain ⟨l,hfind,h⟩ := Option.bind_eq_some_iff.mp h
      obtain ⟨a',hread,hcall⟩ := Option.map_eq_some_iff.mp h
      obtain ⟨rfl,hargs⟩ := Sigma.mk.inj_iff.mp hcall
      obtain rfl := eq_of_heq hargs
      have htag := List.find?_some (p := fun k => (tag k).isPrefixOf b) hfind
      obtain ⟨r,rfl⟩ := List.isPrefixOf_iff_prefix.mp htag
      rw [List.drop_left] at hread
      obtain ⟨hfits,rfl⟩ := (format l).read_eq_some_iff.mp hread
      exact ⟨hfits,rfl⟩
    · rintro ⟨hfits,rfl⟩
      have hmem : ∃ l ∈ kinds, (tag l).isPrefixOf (tag k ++ (format k).write a) = true :=
        ⟨k,hall k,List.isPrefixOf_iff_prefix.mpr (List.prefix_append _ _)⟩
      obtain ⟨l,hfind⟩ := Option.isSome_iff_exists.mp (List.find?_isSome.mpr hmem)
      have hl := List.find?_some (p := fun l => (tag l).isPrefixOf (tag k ++ (format k).write a))
        hfind
      obtain rfl : l = k := by
        rcases List.prefix_or_prefix_of_prefix (List.isPrefixOf_iff_prefix.mp hl)
          (List.prefix_append _ _) with h | h
        · exact hfree l k h
        · exact (hfree k l h).symm
      have hread := (format l).read_eq_some_iff.mpr ⟨hfits,rfl⟩
      rw [hfind,Option.bind_some,List.drop_left,hread]
      rfl

end Format
end Kswarm
