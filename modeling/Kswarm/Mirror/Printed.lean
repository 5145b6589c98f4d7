import Kswarm.Cli.Prediction
import Kswarm.Mirror.Reader
import Kswarm.Mirror.Reduction
import Kswarm.Reducer.Layout

/-! Every well-formed artifact has a text. Printed with whatever further members, it is read back
and reduced by the mirror, and by the guest exactly when its integers fit. -/
namespace Kswarm.Mirror

def recordKeys : List String := ["branch_index","result_bytes","result_hash","weight"]

def artifactKeys : List String :=
  ["schema","schema_version","combiner","combiner_id","combiner_parameters","branches"]

/-- Members a reducer does not read. -/
structure Members (keys : List String) where
  fields : List (String × Json)
  distinct : (keys ++ fields.map Prod.fst).Nodup
  plain : ∀ p ∈ fields, p.2.Plain

/-- An object of the members that are read, and others. -/
lemma Members.plain_obj {keys : List String} (more : Members keys) {fs : List (String × Json)}
    (hkeys : fs.map Prod.fst = keys) (hplain : ∀ p ∈ fs, p.2.Plain) :
    (Json.obj (fs ++ more.fields)).Plain := by
  refine ⟨?_,(Json.plainFields_iff _).mpr ?_⟩
  · rw [List.map_append,hkeys]
    exact more.distinct
  · intro p hp
    exact (List.mem_append.mp hp).elim (hplain p) (more.plain p)

namespace Entry

/-- The record of a branch. -/
def record (e : Entry) (more : Members recordKeys) : Json := .obj ([
  ("branch_index",.int e.index),
  ("result_bytes",.str (Reducer.encodeHex e.receipt)),
  ("result_hash",.str (Reducer.encodeHex e.hash.val)),
  ("weight",.int e.weight)] ++ more.fields)

lemma record_plain (e : Entry) (more : Members recordKeys) : (e.record more).Plain := by
  apply more.plain_obj rfl
  simp [Json.Plain]

lemma record_spells (e : Entry) (more : Members recordKeys) : e.Spells (e.record more) :=
  ⟨rfl,rfl,rfl,rfl⟩

end Entry

namespace Artifact
variable (a : Artifact) (more : Members artifactKeys) (records : Entry → Members recordKeys)

/-- The combiner's parameters. -/
def parameters : Json := .obj
  [("trim_bps",.int a.trimBps),("category_dictionary_size",.int a.dictionarySize)]

def document : Json := .obj ([
  ("schema",.str "MFA3"),
  ("schema_version",.int 3),
  ("combiner",.str (combinerName a.combinerId)),
  ("combiner_id",.int a.combinerId),
  ("combiner_parameters",a.parameters),
  ("branches",.arr (a.entries.map (fun e => e.record (records e))))] ++ more.fields)

/-- The text of the document. -/
def printed : Bytes := utf8 (Json.render (a.document more records))

lemma document_plain : (a.document more records).Plain := by
  apply more.plain_obj rfl
  have hbranches : (Json.arr (a.entries.map (fun e => e.record (records e)))).Plain := by
    refine (Json.plainElems_iff _).mpr (fun x hx => ?_)
    obtain ⟨e,-,rfl⟩ := List.mem_map.mp hx
    exact e.record_plain _
  have hparameters : a.parameters.Plain := ⟨by simp,trivial,trivial,trivial⟩
  simp only [List.forall_mem_cons]
  exact ⟨trivial,trivial,trivial,trivial,hparameters,hbranches,by simp⟩

lemma document_spells : a.Spells (a.document more records) := by
  refine ⟨rfl,rfl,rfl,rfl,⟨a.parameters,rfl,rfl,.inr rfl,.inr rfl⟩,_,rfl,?_⟩
  rw [List.forall₂_map_right_iff]
  exact List.forall₂_same.mpr (fun e _ => e.record_spells _)

lemma loads_printed :
    Cli.loadsBytes (a.printed more records) = some (a.document more records) := by
  rw [Cli.loadsBytes,printed,decodeUtf8_utf8,Option.bind_some,
    Json.loads_render _ (a.document_plain more records)]

/-- The mirror reduces every printed artifact. -/
theorem cli_printed : Cli.reduceAggregateArtifact Cli.loadsBytes (a.printed more records) =
    .ok a.cliReduction :=
  bind_eq_ok.mpr ⟨_,require_eq_ok.mpr (a.loads_printed more records),
    cli_reduceValue.mpr ⟨a,a.document_spells more records,rfl⟩⟩

end Artifact

section Held
variable {approx : ℤ → Binary64}

lemma held_int {n : ℤ} (h0 : 0 ≤ n) (hn : n < 2^64) : (Json.int n).held approx = .int n := by
  rw [Json.held,if_pos ⟨by omega,hn⟩]

/-- An integer is held as one only where it is in range. -/
lemma held_int_eq {m n : ℤ} (h : (Json.int m).held approx = .int n) : m = n := by
  rw [Json.held] at h
  split_ifs at h
  exact Json.int.inj h

lemma held_arr (xs : List Json) :
    (Json.arr xs).held approx = .arr (xs.map (Json.held approx)) := by
  rw [Json.held]
  congr 1
  induction xs with
  | nil => rfl
  | cons x xs ih => rw [Json.heldElems,ih,List.map_cons]

end Held

namespace Artifact
variable (a : Artifact) (more : Members artifactKeys) (records : Entry → Members recordKeys)

/-- What is held of an artifact that fits spells it. -/
lemma held_spells (h : a.Fits) {approx : ℤ → Binary64} :
    a.Spells ((a.document more records).held approx) := by
  obtain ⟨ht,hd,hw⟩ := h
  have hid : (a.combinerId : ℤ) < 2^64 := by
    have := a.known
    omega
  have hbranches : ((a.document more records).held approx).get "branches" =
      some (.arr ((a.entries.map (fun e => e.record (records e))).map (Json.held approx))) := by
    rw [Json.get_held,← held_arr]
    rfl
  refine ⟨?_,?_,?_,?_,⟨a.parameters.held approx,?_,rfl,.inr ?_,.inr ?_⟩,_,hbranches,?_⟩
  · rw [Json.get_held]
    rfl
  · rw [Json.get_held]
    rfl
  · rw [Json.get_held]
    exact congrArg some (held_int (by omega) hid)
  · rw [Json.get_held]
    rfl
  · rw [Json.get_held]
    rfl
  · rw [Json.get_held]
    exact congrArg some (held_int (by omega) (by omega))
  · rw [Json.get_held]
    exact congrArg some (held_int (by omega) (by omega))
  · rw [List.map_map,List.forall₂_map_right_iff]
    refine List.forall₂_same.mpr (fun e he => ?_)
    have hindex := e.index_lt
    have hweight := hw e he
    refine ⟨?_,?_,?_,?_⟩
    · exact (Json.get_held _ _).trans (congrArg some (held_int (by omega) (by omega)))
    · exact Json.get_held _ _
    · exact Json.get_held _ _
    · exact (Json.get_held _ _).trans (congrArg some (held_int (by omega) (by omega)))

/-- Only an artifact that fits is held as one the guest takes. -/
lemma fits_of_held {b : Artifact} {approx : ℤ → Binary64}
    (h : b.Spells ((a.document more records).held approx)) (hb : b.Fits) : a.Fits := by
  obtain ⟨-,-,-,-,⟨p,hp,-,ht,hd⟩,branches,hbranches,hspell⟩ := h
  rw [Json.get_held] at hp hbranches
  obtain rfl : a.parameters.held approx = p := Option.some.inj hp
  have hfield : ∀ {field : String} {m n : ℕ},
      (a.parameters.held approx).get field = some ((Json.int m).held approx) →
      SpellsOptional (a.parameters.held approx) field n → m = n := by
    intro field m n hget hs
    rw [SpellsOptional,hget] at hs
    rcases hs with ⟨hnone | hnull,-⟩ | hint
    · cases hnone
    · rw [Json.held] at hnull
      split_ifs at hnull <;> cases hnull
    · exact_mod_cast held_int_eq (Option.some.inj hint)
  have htrim : a.trimBps = b.trimBps := hfield (Json.get_held _ _) ht
  have hsize : a.dictionarySize = b.dictionarySize := hfield (Json.get_held _ _) hd
  refine ⟨htrim ▸ hb.1,hsize ▸ hb.2.1,fun e he => ?_⟩
  change some ((Json.arr (a.entries.map (fun e => e.record (records e)))).held approx) = _
    at hbranches
  rw [held_arr,List.map_map,Option.some.injEq,Json.arr.injEq] at hbranches
  subst hbranches
  rw [List.forall₂_map_right_iff] at hspell
  obtain ⟨e',he',hes⟩ := exists_of_mem_right hspell he
  have hweight := hes.2.2.2
  rw [Function.comp_apply,Json.get_held] at hweight
  have hsame : (e.weight : ℤ) = e'.weight := held_int_eq (Option.some.inj hweight)
  have := hb.2.2 e' he'
  omega

/-- The guest reduces exactly the printed artifacts that fit. -/
theorem guest_printed : Accepts (Reducer.reduceAggregateArtifact jsonOfBytes
    (a.printed more records)) ↔ a.Fits := by
  have hread := jsonOfBytes_render (a.document_plain more records)
  constructor
  · rintro ⟨r,hr⟩
    simp only [Reducer.reduceAggregateArtifact,bind_eq_ok,require_eq_ok,printed,hread,
      Option.some.injEq,exists_eq_left'] at hr
    obtain ⟨b,hspell,hfits,-⟩ := guest_reduceValue.mp hr
    exact a.fits_of_held more records hspell hfits
  · intro h
    exact ⟨_,bind_eq_ok.mpr ⟨_,require_eq_ok.mpr hread,
      guest_reduceValue.mpr ⟨a,a.held_spells more records h,h,rfl⟩⟩⟩

theorem guest_printed_eq (h : a.Fits) : Reducer.reduceAggregateArtifact jsonOfBytes
    (a.printed more records) = .ok a.guestReduction :=
  bind_eq_ok.mpr ⟨_,require_eq_ok.mpr (jsonOfBytes_render (a.document_plain more records)),
    guest_reduceValue.mpr ⟨a,a.held_spells more records h,h,rfl⟩⟩

end Artifact

section Samples

/-- Nothing but what is read. -/
def bareArtifact : Members artifactKeys := ⟨[],by decide,by simp⟩

def bareRecord (_ : Entry) : Members recordKeys := ⟨[],by decide,by simp⟩

/-- The members a record of the command line has besides: its job and its output. -/
def jobRecord (job : Entry → String) (e : Entry) : Members recordKeys where
  fields := [("job",.str (job e)),("output_cid",.str "cid-output")]
  distinct := by
    simp only [List.map_cons,List.map_nil]
    decide
  plain := by simp [Json.Plain]

lemma zeros_length : (List.replicate 32 (0 : UInt8)).length = 32 := rfl

/-- The receipt of a scalar branch with a zero canonical hash. -/
def scalarTuple (index : Fin 128) (value : Fin 10001) : Reducer.Receipt where
  kind := .scalar
  index := index
  scalar := some value
  lower := none
  upper := none
  label := none
  scores := []
  hash := ⟨List.replicate 32 0,zeros_length⟩
  index_lt := by omega
  scalar_le := by
    intro v hv
    obtain rfl := Option.some.inj hv
    exact Nat.lt_succ_iff.mp value.isLt
  lower_le := by simp
  upper_le := by simp
  scores_le := Nat.zero_le _
  scores_ok := by simp

def scalarBranch (index : Fin 128) (value : Fin 10001) (weight : ℕ) (h : 0 < weight) : Entry where
  receipt := (scalarTuple index value).bytes
  result := (scalarTuple index value).result
  weight := weight
  parsed := (scalarTuple index value).parse_bytes
  weighted := h

def middleBranch (weight : ℕ) (h : 0 < weight) : Entry := scalarBranch 1 6000 weight h

/-- Three branches of one weight, averaged. -/
def weightedPanel (weight : ℕ) (h : 0 < weight) : Artifact where
  combinerId := 1
  trimBps := 0
  dictionarySize := 0
  entries := [scalarBranch 0 2000 weight h,middleBranch weight h,scalarBranch 2 9000 weight h]
  known := .inl rfl
  nonempty := by simp
  bounded := by simp
  rising := by
    have hindices : [0,1,2].Pairwise (· < ·) := by decide
    refine ⟨by simp,?_⟩
    rw [← List.pairwise_map (f := Entry.index)]
    exact hindices
  suits := by
    simp only [List.forall_mem_cons]
    exact ⟨⟨nofun,rfl,_,rfl⟩,⟨nofun,rfl,_,rfl⟩,⟨nofun,rfl,_,rfl⟩,by simp⟩
  trims := nofun

/-- Four branches, one of them trimmed. -/
def trimmedPanel : Artifact where
  combinerId := 2
  trimBps := 2500
  dictionarySize := 0
  entries := [scalarBranch 0 4000 1 Nat.one_pos,scalarBranch 1 9000 1 Nat.one_pos,
    scalarBranch 2 4500 1 Nat.one_pos,scalarBranch 5 5000 1 Nat.one_pos]
  known := .inr (.inl rfl)
  nonempty := by simp
  bounded := by simp
  rising := ⟨by simp,by decide⟩
  suits := by
    simp only [List.forall_mem_cons]
    exact ⟨⟨fun _ => rfl,rfl,_,rfl⟩,⟨fun _ => rfl,rfl,_,rfl⟩,⟨fun _ => rfl,rfl,_,rfl⟩,
      ⟨fun _ => rfl,rfl,_,rfl⟩,by simp⟩
  trims _ := by decide

lemma weightedPanel_fits {weight : ℕ} {h : 0 < weight} (hw : weight < 2^64) :
    (weightedPanel weight h).Fits := by
  refine ⟨Nat.two_pow_pos 32,Nat.two_pow_pos 32,?_⟩
  simp only [weightedPanel,List.forall_mem_cons]
  exact ⟨hw,hw,hw,by simp⟩

lemma trimmedPanel_fits : trimmedPanel.Fits := by
  refine ⟨by decide,by decide,?_⟩
  simp only [trimmedPanel,List.forall_mem_cons]
  exact ⟨by decide,by decide,by decide,by decide,by simp⟩

end Samples
end Kswarm.Mirror
