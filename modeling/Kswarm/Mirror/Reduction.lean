import Kswarm.Mirror.Artifact

/-! The two aggregate reducers side by side. Each accepts exactly the documents that spell an
artifact (the guest, one whose integers fit its widths) and returns the reduction of it. -/
namespace Kswarm.Mirror
namespace Artifact

/-- The reduction the guest commits for the artifact. -/
def guestReduction (a : Artifact) : Reducer.AggregateReduction where
  combinerId := a.combinerId
  params := ⟨a.trimBps,a.dictionarySize⟩
  paramsDigest := Reducer.combinerParamsDigest a.combinerId ⟨a.trimBps,a.dictionarySize⟩
  resultValue := a.answer
  branchCount := a.entries.length
  branchHashes := a.hashes
  merkleRoot := a.root

/-- The reduction the mirror predicts for the artifact. -/
def cliReduction (a : Artifact) : Cli.AggregateReduction where
  combinerId := a.combinerId
  trimBps := a.trimBps
  categoryDictionarySize := a.dictionarySize
  paramsDigest := Cli.combinerParamsDigest a.combinerId a.trimBps a.dictionarySize
  resultValue := a.answer
  branchCount := a.entries.length
  branchHashes := a.hashes
  merkleRoot := a.root

section Combine
variable (a : Artifact)

lemma cli_hashes :
    (a.entries.foldl (cliNext a.combinerId) .start).branchHashes = a.hashes := by
  simpa [Cli.LoopState.start,hashes] using (cliFold a.combinerId a.entries .start).1

lemma guest_hashes :
    (a.entries.foldl (guestNext a.combinerId) .start).branchHashes = a.hashes := by
  simpa [Reducer.LoopState.start,hashes] using (guestFold a.combinerId a.entries .start).1

lemma hashes_length : a.hashes.length = a.entries.length := by simp [hashes]

lemma weighted_bps : ∀ p ∈ a.weighted, p.1 ≤ 10000 := by
  intro p hp
  obtain ⟨e,-,rfl⟩ := List.mem_map.mp hp
  exact e.scalar_le

lemma weighted_pos : ∀ p ∈ a.weighted, 0 < p.2 := by
  intro p hp
  obtain ⟨e,-,rfl⟩ := List.mem_map.mp hp
  exact e.weighted

lemma totalWeight_weighted : 0 < totalWeight a.weighted :=
  totalWeight_pos (by simpa [weighted] using a.nonempty) a.weighted_pos

lemma weighted_roomy (h : ∀ e ∈ a.entries, e.weight < 2^64) : Roomy a.weighted := by
  refine roomy_of_length a.weighted_bps ?_ ?_
  · intro p hp
    obtain ⟨e,he,rfl⟩ := List.mem_map.mp hp
    exact h e he
  · have := a.bounded
    rw [weighted,List.length_map]
    omega

lemma votes_pos : ∀ p ∈ a.votes, 0 < p.2 := by
  intro p hp
  obtain ⟨e,-,rfl⟩ := List.mem_map.mp hp
  exact e.weighted

lemma scalars_bps : ∀ v ∈ a.entries.map Entry.scalar, v ≤ 10000 := by
  intro v hv
  obtain ⟨e,-,rfl⟩ := List.mem_map.mp hv
  exact e.scalar_le

lemma winner_votes : winner a.votes = some a.answer ∨ a.combinerId ≠ 3 := by
  by_cases h : a.combinerId = 3
  · have hne : a.votes ≠ [] := by simpa [votes] using a.nonempty
    obtain ⟨c,hc,-⟩ := winner_exists hne a.votes_pos
    exact .inl (by simp [answer,h,hc])
  · exact .inr h

/-- The mirror's combiner stage cannot fail on an artifact. -/
theorem cli_combine : Cli.combine a.combinerId a.trimBps
    (a.entries.foldl (cliNext a.combinerId) .start) = .ok (a.answer : ℤ) := by
  obtain ⟨-,hscal,hvote⟩ := cliFold a.combinerId a.entries .start
  have hne : a.entries ≠ [] := a.nonempty
  unfold Cli.combine
  cases a.known with
  | inl h1 =>
    rw [(hscal (by omega)).1,if_pos (show a.combinerId = Cli.combinerWeightedMean from h1),answer,
      if_pos h1]
    have := cli_weightedMean a.weighted_bps a.totalWeight_weighted
    simpa [weighted,Function.comp_def,Cli.LoopState.start] using this
  | inr h23 => cases h23 with
    | inl h2 =>
      have hk : a.outlierCount < (a.entries.map Entry.scalar).length := by
        simpa using a.outlierCount_lt h2
      have htrim := a.trims h2
      have hcount : Cli.trimCountFromBps a.entries.length a.trimBps = .ok (a.outlierCount : ℤ) := by
        simp only [Cli.trimCountFromBps,bind_eq_ok,failIf_eq_ok,pure_eq_ok,exists_and_left,
          exists_const]
        refine ⟨by rw [Cli.bpsScale]; omega,?_⟩
        rw [Int.fdiv_eq_ediv_of_nonneg _ (by decide),outlierCount,Cli.bpsScale]
        push_cast
        rfl
      have := cli_trimmedMean hk a.scalars_bps
      rw [(hscal (by omega)).2,if_neg (by rw [h2]; decide),
        if_pos (show a.combinerId = Cli.combinerTrimmedMean from h2),answer,
        if_neg (by omega),if_pos h2,bind_eq_ok]
      exact ⟨_,by simpa [Cli.LoopState.start] using hcount,
        by simpa [Function.comp_def,Cli.LoopState.start] using this⟩
    | inr h3 =>
      have hw := (a.winner_votes).resolve_right (by simp [h3])
      rw [hvote h3,if_neg (by rw [h3]; decide),if_neg (by rw [h3]; decide)]
      have := cli_majorityVote (by simpa [votes] using hne) hw
      simpa [votes,Function.comp_def,Cli.LoopState.start,castPair] using this

/-- The guest's combiner stage neither fails nor overflows on an artifact with 64-bit weights. -/
theorem guest_combineWatched (hw64 : ∀ e ∈ a.entries, e.weight < 2^64) :
    Reducer.combineWatched a.combinerId ⟨a.trimBps,a.dictionarySize⟩
      (a.entries.foldl (guestNext a.combinerId) .start) = .ok a.answer := by
  obtain ⟨-,hscal,hvote⟩ := guestFold a.combinerId a.entries .start
  have hne : a.entries ≠ [] := a.nonempty
  unfold Reducer.combineWatched
  cases a.known with
  | inl h1 =>
    rw [(hscal (by omega)).1,if_pos (show a.combinerId = Reducer.combinerWeightedMean from h1),answer,
      if_pos h1]
    have := guest_weightedMean a.weighted_bps a.totalWeight_weighted (a.weighted_roomy hw64)
    simpa [weighted,Function.comp_def,Reducer.LoopState.start] using this
  | inr h23 => cases h23 with
    | inl h2 =>
      have hk : a.outlierCount < (a.entries.map Entry.scalar).length := by
        simpa using a.outlierCount_lt h2
      have htrim := a.trims h2
      have hcount : Reducer.trimCountFromBpsWatched a.entries.length a.trimBps =
          .ok a.outlierCount := by
        have hprod : a.entries.length*a.trimBps < 2^128 := by
          have := Nat.mul_le_mul a.bounded htrim.le
          omega
        simp only [Reducer.trimCountFromBpsWatched,bind_eq_ok,failIf_eq_ok,pure_eq_ok,
          exists_and_left,exists_const]
        exact ⟨by omega,_,inU128_eq hprod,rfl⟩
      have := guest_trimmedMean hk (by simpa using a.bounded) a.scalars_bps
      rw [(hscal (by omega)).2,if_neg (by rw [h2]; decide),
        if_pos (show a.combinerId = Reducer.combinerTrimmedMean from h2),answer,
        if_neg (by omega),if_pos h2,bind_eq_ok]
      exact ⟨_,by simpa [Reducer.LoopState.start] using hcount,
        by simpa [Function.comp_def,Reducer.LoopState.start] using this⟩
    | inr h3 =>
      have hw := (a.winner_votes).resolve_right (by simp [h3])
      have hbound : totalWeight a.votes < 2^128 := by
        have hlt : ∀ p ∈ a.votes, p.2 < 2^64 := by
          intro p hp
          obtain ⟨e,he,rfl⟩ := List.mem_map.mp hp
          exact hw64 e he
        have h1 := totalWeight_lt hlt
        have h2 : a.votes.length*2^64 ≤ 128*2^64 :=
          Nat.mul_le_mul_right _ (by simpa [votes] using a.bounded)
        omega
      rw [hvote h3,if_neg (by rw [h3]; decide),if_neg (by rw [h3]; decide),
        if_pos (show a.combinerId = Reducer.combinerMajorityVote from h3)]
      have := guest_majorityVote (by simpa [votes] using hne) hbound hw
      simpa [votes,Function.comp_def,Reducer.LoopState.start] using this

/-- The guest's combiner stage cannot fail on an artifact that fits. -/
theorem guest_combine (h : a.Fits) :
    Reducer.combine a.combinerId ⟨a.trimBps,a.dictionarySize⟩
      (a.entries.foldl (guestNext a.combinerId) .start) = .ok a.answer :=
  (Reducer.combine_watched _ _ _).eq_ok (a.guest_combineWatched h.2.2)

end Combine

end Artifact

section Acceptance

lemma combinerNames_lookup {n : ℕ} {name : String} : Cli.combinerNames.lookup n = some name ↔
    (n = 1 ∨ n = 2 ∨ n = 3) ∧ name = Artifact.combinerName n := by
  change [(1,"weighted-mean"),(2,"trimmed-mean"),(3,"majority-vote")].lookup n = _ ↔ _
  simp only [Json.lookup_cons_ite,List.lookup_nil,Artifact.combinerName]
  split_ifs with h1 h2 h3
  · simp [h1,eq_comm]
  · simp [h2,eq_comm]
  · simp [h3,eq_comm]
  · simp [h1,h2,h3]

lemma combinerNameId_eq {n : ℕ} {name : String} :
    (¬255 < n ∧ Reducer.validateCombinerId n = .ok () ∧ Reducer.combinerNameId name = some n) ↔
      (n = 1 ∨ n = 2 ∨ n = 3) ∧ name = Artifact.combinerName n := by
  simp only [Reducer.validateCombinerId,failIf_eq_ok,Reducer.combinerNameId,
    Artifact.combinerName]
  simp only [Reducer.combinerWeightedMean,Reducer.combinerTrimmedMean,
    Reducer.combinerMajorityVote]
  constructor
  · rintro ⟨-,hv,hn⟩
    refine ⟨by omega,?_⟩
    split_ifs at hn with h1 h2 h3 <;> obtain rfl := Option.some.inj hn <;> simp_all
  · rintro ⟨h,rfl⟩
    obtain rfl | rfl | rfl := h <;> simp

lemma cli_combine_trims {trimBps : ℕ} {st : Cli.LoopState} {v : ℤ}
    (h : Cli.combine 2 trimBps st = .ok v) : trimBps < 10000 := by
  change (Cli.trimCountFromBps _ _ >>= fun k => Cli.trimmedMeanBps _ k) = .ok v at h
  simp only [bind_eq_ok,Cli.trimCountFromBps,failIf_eq_ok] at h
  obtain ⟨-,⟨-,hrange,-⟩,-⟩ := h
  rw [Cli.bpsScale] at hrange
  omega

lemma guest_combine_trims {params : Reducer.CombinerParams} {st : Reducer.LoopState} {v : ℕ}
    (h : Reducer.combine 2 params st = .ok v) : params.trimBps < 10000 := by
  change (Reducer.trimCountFromBps _ _ >>= fun k => Reducer.trimmedMeanBps _ k) = .ok v at h
  simp only [bind_eq_ok,Reducer.trimCountFromBps,failIf_eq_ok] at h
  obtain ⟨-,⟨-,hrange,-⟩,-⟩ := h
  omega

/-- The checks of the loops and of the combiner stage are the fields of an artifact. -/
lemma exists_artifact {combinerId trimBps dictionarySize : ℕ} {branches : List Json}
    {es : List Entry} (hid : combinerId = 1 ∨ combinerId = 2 ∨ combinerId = 3)
    (hne : branches ≠ []) (hlen : branches.length ≤ 128)
    (hspell : List.Forall₂ Entry.Spells es branches) (hrise : Rising none es)
    (hsuits : ∀ e ∈ es, e.Suits combinerId dictionarySize)
    (htrim : combinerId = 2 → trimBps < 10000) :
    ∃ a : Artifact, a.combinerId = combinerId ∧ a.trimBps = trimBps ∧
      a.dictionarySize = dictionarySize ∧ a.entries = es := by
  have hl := hspell.length_eq
  have hes : es ≠ [] := by
    intro he
    rw [he] at hl
    exact hne (List.eq_nil_of_length_eq_zero hl.symm)
  exact ⟨⟨combinerId,trimBps,dictionarySize,es,hid,hes,by omega,hrise,hsuits,htrim⟩,
    rfl,rfl,rfl,rfl⟩

lemma branches_bounds {a : Artifact} {branches : List Json}
    (hspell : List.Forall₂ Entry.Spells a.entries branches) :
    branches ≠ [] ∧ branches.length ≤ 128 := by
  have hl := hspell.length_eq
  have hb := a.bounded
  have hpos := List.length_pos_iff.mpr a.nonempty
  exact ⟨List.length_pos_iff.mp (by omega),by omega⟩

/-- The mirror's reduction behind the header. -/
theorem cli_reduceBranches {combinerId trimBps dictionarySize : ℕ} {branches : List Json}
    {r : Cli.AggregateReduction} (hid : combinerId = 1 ∨ combinerId = 2 ∨ combinerId = 3) :
    Cli.reduceBranches combinerId trimBps dictionarySize branches = .ok r ↔
      ∃ a : Artifact, a.combinerId = combinerId ∧ a.trimBps = trimBps ∧
        a.dictionarySize = dictionarySize ∧ List.Forall₂ Entry.Spells a.entries branches ∧
        r = a.cliReduction := by
  simp only [Cli.reduceBranches,bind_eq_ok,failIf_eq_ok,pure_eq_ok,exists_and_left,exists_const,
    cli_loop]
  constructor
  · rintro ⟨hne,hlen,st,⟨es,⟨hsuits,hspell⟩,hrise,rfl⟩,v,hv,root,hroot,rfl⟩
    have htrim : combinerId = 2 → trimBps < 10000 := by
      intro h2
      subst h2
      exact cli_combine_trims hv
    obtain ⟨a,h1,h2,h3,h4⟩ := exists_artifact hid hne (not_lt.mp hlen) hspell hrise hsuits htrim
    subst h1 h2 h3 h4
    rw [a.cli_hashes] at hroot
    have hr := Except.ok.inj (hroot.symm.trans a.cli_root)
    have hva := Except.ok.inj (hv.symm.trans a.cli_combine)
    refine ⟨a,rfl,rfl,rfl,hspell,?_⟩
    simp [Artifact.cliReduction,a.cli_hashes,a.hashes_length,hr,hva]
  · rintro ⟨a,h1,h2,h3,hspell,h4⟩
    subst h1 h2 h3 h4
    obtain ⟨hne,hlen⟩ := branches_bounds hspell
    refine ⟨hne,not_lt.mpr hlen,_,⟨a.entries,⟨a.suits,hspell⟩,a.rising,rfl⟩,_,a.cli_combine,
      a.root,?_,?_⟩
    · rw [a.cli_hashes]
      exact a.cli_root
    · simp [Artifact.cliReduction,a.cli_hashes,a.hashes_length]

/-- The guest's reduction behind the header. -/
theorem guest_reduceBranches {combinerId : ℕ} {params : Reducer.CombinerParams}
    {branches : List Json} {r : Reducer.AggregateReduction}
    (hid : combinerId = 1 ∨ combinerId = 2 ∨ combinerId = 3)
    (htw : params.trimBps < 2^32) (hdw : params.categoryDictionarySize < 2^32) :
    Reducer.reduceBranches combinerId params branches = .ok r ↔
      ∃ a : Artifact, a.combinerId = combinerId ∧ a.trimBps = params.trimBps ∧
        a.dictionarySize = params.categoryDictionarySize ∧
        List.Forall₂ Entry.Spells a.entries branches ∧ a.Fits ∧ r = a.guestReduction := by
  obtain ⟨trimBps,dictionarySize⟩ := params
  simp only at htw hdw
  simp only [Reducer.reduceBranches,bind_eq_ok,failIf_eq_ok,pure_eq_ok,ok_of_mapError,
    exists_and_left,exists_const,guest_loop]
  constructor
  · rintro ⟨hne,hlen,st,⟨es,⟨hsuits,hspell⟩,hrise,rfl⟩,v,hv,root,hroot,rfl⟩
    have htrim : combinerId = 2 → trimBps < 10000 := by
      intro h2
      subst h2
      exact guest_combine_trims hv
    obtain ⟨a,h1,h2,h3,h4⟩ := exists_artifact hid hne (not_lt.mp hlen) hspell hrise
      (fun e he => (hsuits e he).1) htrim
    subst h1 h2 h3 h4
    have hfits : a.Fits := ⟨htw,hdw,fun e he => (hsuits e he).2⟩
    rw [a.guest_hashes] at hroot
    have hr := Except.ok.inj (hroot.symm.trans a.guest_root)
    have hva := Except.ok.inj (hv.symm.trans (a.guest_combine hfits))
    refine ⟨a,rfl,rfl,rfl,hspell,hfits,?_⟩
    simp [Artifact.guestReduction,a.guest_hashes,a.hashes_length,hr,hva]
  · rintro ⟨a,h1,h2,h3,hspell,hfits,h4⟩
    subst h1 h2 h3 h4
    obtain ⟨hne,hlen⟩ := branches_bounds hspell
    refine ⟨hne,not_lt.mpr hlen,_,⟨a.entries,⟨fun e he => ⟨a.suits e he,hfits.2.2 e he⟩,hspell⟩,
      a.rising,rfl⟩,_,a.guest_combine hfits,a.root,?_,?_⟩
    · rw [a.guest_hashes]
      exact a.guest_root
    · simp [Artifact.guestReduction,a.guest_hashes,a.hashes_length]

lemma listOf_eq_some {v : Option Json} {xs : List Json} :
    Cli.listOf v = some xs ↔ v = some (.arr xs) := by
  unfold Cli.listOf
  split
  · simp
  · rename_i hne
    constructor
    · intro h
      cases h
    · intro h
      exact absurd h (hne xs)

/-- The mirror accepts exactly the documents that spell an artifact. -/
theorem cli_reduceValue {doc : Json} {r : Cli.AggregateReduction} :
    Cli.reduceValue doc = .ok r ↔ ∃ a : Artifact, a.Spells doc ∧ r = a.cliReduction := by
  simp only [Cli.reduceValue,bind_eq_ok,failIf_eq_ok,require_eq_ok,string_eq_ok,unsigned_eq_ok,
    combinerNames_lookup,listOf_eq_some,Option.filter_eq_some_iff,exists_and_left,exists_const]
  constructor
  · rintro ⟨-,_,hschema,hs,_,hver,hv,n,hn,_,⟨hid,rfl⟩,_,hname,hnm,p,⟨hp,hobj⟩,t,ht,d,hd,bs,hbs,hr⟩
    obtain ⟨a,rfl,h2,h3,hspell,rfl⟩ := (cli_reduceBranches hid).mp hr
    obtain rfl := not_not.mp hs
    obtain rfl := not_not.mp hv
    rw [← not_not.mp hnm] at hname
    refine ⟨a,⟨hschema,hver,hn,hname,⟨p,hp,hobj,?_,?_⟩,bs,hbs,hspell⟩,rfl⟩
    · exact optionalUnsigned_eq_ok.mp ⟨t,ht,h2.symm⟩
    · exact optionalUnsigned_eq_ok.mp ⟨d,hd,h3.symm⟩
  · rintro ⟨a,⟨hschema,hver,hn,hname,⟨p,hp,hobj,ht,hd⟩,bs,hbs,hspell⟩,rfl⟩
    obtain ⟨t,ht,ht'⟩ := optionalUnsigned_eq_ok.mpr ht
    obtain ⟨d,hd,hd'⟩ := optionalUnsigned_eq_ok.mpr hd
    exact ⟨by simp [Entry.isObj_of_get hschema],_,hschema,not_not.mpr rfl,3,hver,not_not.mpr rfl,_,
      hn,_,⟨a.known,rfl⟩,_,hname,not_not.mpr rfl,p,⟨hp,hobj⟩,t,ht,d,hd,bs,hbs,
      (cli_reduceBranches a.known).mpr ⟨a,rfl,ht'.symm,hd'.symm,hspell,rfl⟩⟩

/-- The guest accepts exactly the documents that spell an artifact whose integers fit. -/
theorem guest_reduceValue {doc : Json} {r : Reducer.AggregateReduction} :
    Reducer.reduceValue doc = .ok r ↔
      ∃ a : Artifact, a.Spells doc ∧ a.Fits ∧ r = a.guestReduction := by
  simp only [Reducer.reduceValue,bind_eq_ok,failIf_eq_ok,require_eq_ok,stringField_eq_ok,
    u64Field_eq_ok,ok_of_mapError,asArray_eq_some,exists_and_left,exists_const,ne_eq,not_not]
  constructor
  · rintro ⟨-,_,hschema,rfl,_,⟨hver,-⟩,rfl,n,⟨hn,-⟩,hsmall,_,hvalid,name,hname,hnm,p,hp,hobj,t,ht,
      d,hd,_,hbs,bs,rfl,hr⟩
    obtain ⟨hid,rfl⟩ := combinerNameId_eq.mp ⟨hsmall,hvalid,hnm⟩
    obtain ⟨hto,htw⟩ := optionalU32_eq_ok.mp ⟨t,ht,rfl⟩
    obtain ⟨hdo,hdw⟩ := optionalU32_eq_ok.mp ⟨d,hd,rfl⟩
    obtain ⟨a,rfl,h2,h3,hspell,hfits,rfl⟩ := (guest_reduceBranches hid htw hdw).mp hr
    refine ⟨a,⟨hschema,hver,hn,hname,⟨p,hp,by simpa using hobj,?_,?_⟩,bs,hbs,hspell⟩,hfits,rfl⟩
    · exact h2 ▸ hto
    · exact h3 ▸ hdo
  · rintro ⟨a,⟨hschema,hver,hn,hname,⟨p,hp,hobj,ht,hd⟩,bs,hbs,hspell⟩,hfits,rfl⟩
    obtain ⟨t,ht,ht'⟩ := optionalU32_eq_ok.mpr ⟨ht,hfits.1⟩
    obtain ⟨d,hd,hd'⟩ := optionalU32_eq_ok.mpr ⟨hd,hfits.2.1⟩
    obtain ⟨hsmall,hvalid,hnm⟩ := combinerNameId_eq.mpr ⟨a.known,rfl⟩
    refine ⟨by simp [Entry.isObj_of_get hschema],_,hschema,rfl,3,⟨hver,by decide⟩,rfl,_,
      ⟨hn,by omega⟩,hsmall,(),hvalid,_,hname,hnm,p,hp,by simp [hobj],t,ht,d,hd,_,hbs,bs,rfl,?_⟩
    refine (guest_reduceBranches a.known ?_ ?_).mpr ⟨a,rfl,ht'.symm,hd'.symm,hspell,hfits,rfl⟩
    · exact ht' ▸ hfits.1
    · exact hd' ▸ hfits.2.1

end Acceptance
end Kswarm.Mirror
