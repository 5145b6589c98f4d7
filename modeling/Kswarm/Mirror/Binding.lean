import Kswarm.Mirror.Agreement

/-! What a committed digest pins down. A Merkle root fixes the multiset of receipts, a parameter
digest fixes the parameters, and together they fix the answer of a trimmed mean. -/
namespace Kswarm.Mirror

/-- Equal roots mean equal multisets of hashes, up to a collision among the strings hashed, and
reordering the hashes changes nothing; on both sides. -/
theorem merkleRoot_binds (xs ys : List Digest) (hx : xs ≠ []) (hy : ys ≠ []) :
    (Accepts (Reducer.sortedBranchesMerkleRoot xs) ∧ Accepts (Cli.sortedBranchesMerkleRoot xs)) ∧
    (Reducer.sortedBranchesMerkleRoot xs = Reducer.sortedBranchesMerkleRoot ys →
      xs.Perm ys ∨ Collision sha256 (Reducer.merkleHashed xs ++ Reducer.merkleHashed ys)) ∧
    (Cli.sortedBranchesMerkleRoot xs = Cli.sortedBranchesMerkleRoot ys →
      xs.Perm ys ∨ Collision sha256 (Cli.merkleHashed xs ++ Cli.merkleHashed ys)) ∧
    (xs.Perm ys → Reducer.sortedBranchesMerkleRoot xs = Reducer.sortedBranchesMerkleRoot ys ∧
      Cli.sortedBranchesMerkleRoot xs = Cli.sortedBranchesMerkleRoot ys) := by
  obtain ⟨rx,hrx⟩ := Reducer.merkleRoot_accepts hx
  obtain ⟨ry,hry⟩ := Reducer.merkleRoot_accepts hy
  have hcx := (merkleRoot_agrees xs rx).mpr hrx
  have hcy := (merkleRoot_agrees ys ry).mpr hry
  refine ⟨⟨⟨rx,hrx⟩,⟨rx,hcx⟩⟩,?_,?_,?_⟩
  · intro h
    exact Reducer.merkleRoot_binding hrx (h ▸ hrx)
  · intro h
    rw [hcx,hcy] at h
    obtain rfl := Except.ok.inj h
    rw [merkleHashed_agrees,merkleHashed_agrees]
    exact Reducer.merkleRoot_binding hrx hry
  · intro h
    have hr := Reducer.merkleRoot_perm h
    refine ⟨hr,?_⟩
    rw [hrx,hry] at hr
    rw [hcx,hcy,Except.ok.inj hr]

theorem merkleRoot_binds_swap :
    let a := sha256 [0]
    let b := sha256 [1]
    [a,b] ≠ [] ∧ Reducer.sortedBranchesMerkleRoot [a,b] = Reducer.sortedBranchesMerkleRoot [b,a] ∧
      Cli.sortedBranchesMerkleRoot [a,b] = Cli.sortedBranchesMerkleRoot [b,a] := by
  intro a b
  exact ⟨by simp,(merkleRoot_binds [a,b] [b,a] (by simp) (by simp)).2.2.2 (.swap _ _ _)⟩

section TrimmedMean

/-- A rearrangement of images comes from a rearrangement of the elements. -/
lemma exists_perm_of_map {α β : Type} {f : α → β} {xs : List α} {ys : List β}
    (h : (xs.map f).Perm ys) : ∃ zs : List α, zs.map f = ys ∧ zs.Perm xs := by
  have hmap : List.Forall₂ (fun b a => b = f a) (xs.map f) xs := by
    rw [List.forall₂_map_left_iff]
    exact List.forall₂_same.mpr (fun _ _ => rfl)
  obtain ⟨zs,hzs,hperm⟩ := List.perm_comp_forall₂ h.symm hmap
  refine ⟨zs,?_,hperm⟩
  rw [← List.forall₂_eq_eq_eq,List.forall₂_map_left_iff]
  exact hzs.flip.imp (fun _ _ h => h.symm)

lemma receipts_of_branches {es : List Entry} {bs : List Json}
    (h : List.Forall₂ Entry.Spells es bs) :
    bs.filterMap (fun branch => ((branch.get "result_bytes").bind Reducer.asStr).bind
      Reducer.decodeHex) = es.map Entry.receipt := by
  induction h with
  | nil => rfl
  | cons hb _ ih =>
    obtain ⟨-,hbytes,-,-⟩ := hb
    rw [List.filterMap_cons,hbytes]
    simp [Reducer.asStr,ih]

lemma receiptsOf_spelled {a : Artifact} {doc : Json} (h : a.Spells doc) :
    Reducer.receiptsOf doc = a.entries.map Entry.receipt := by
  obtain ⟨-,-,-,-,-,bs,hbs,hspell⟩ := h
  simp only [Reducer.receiptsOf,hbs,Option.bind_some,Reducer.asArray,Option.getD_some]
  exact receipts_of_branches hspell

/-- Entries that rise by index are determined by the multiset of their receipts. -/
lemma receipts_eq_of_perm {es fs : List Entry} (he : Rising none es) (hf : Rising none fs)
    (h : (es.map Entry.receipt).Perm (fs.map Entry.receipt)) :
    es.map Entry.receipt = fs.map Entry.receipt := by
  -- The index is a function of the receipt, so the strict order lives on receipts.
  let below : Bytes → Bytes → Prop := fun r s => ∀ x y,
    Reducer.parseBranchResultBytes r = .ok x → Reducer.parseBranchResultBytes s = .ok y →
      x.branchIndex < y.branchIndex
  have hsorted : ∀ {gs : List Entry}, Rising none gs → (gs.map Entry.receipt).Pairwise below := by
    intro gs hg
    rw [List.pairwise_map]
    refine hg.2.imp (fun {a b} hlt x y hx hy => ?_)
    obtain rfl := Except.ok.inj (a.parsed.symm.trans hx)
    obtain rfl := Except.ok.inj (b.parsed.symm.trans hy)
    exact hlt
  refine h.eq_of_pairwise ?_ (hsorted he) (hsorted hf)
  intro r s hr hs hrs hsr
  obtain ⟨a,-,rfl⟩ := List.mem_map.mp hr
  obtain ⟨b,-,rfl⟩ := List.mem_map.mp hs
  exact absurd (hrs _ _ a.parsed b.parsed) (not_lt.mpr (hsr _ _ b.parsed a.parsed).le)

lemma scalars_eq_of_receipts {es fs : List Entry}
    (h : es.map Entry.receipt = fs.map Entry.receipt) :
    es.map Entry.scalar = fs.map Entry.scalar := by
  have hscalar : ∀ e : Entry, e.scalar = ((Reducer.parseBranchResultBytes e.receipt).toOption.bind
      Reducer.BranchResult.scalarValueBps).getD 0 := by
    intro e
    simp [e.parsed,Entry.scalar,Except.toOption]
  have hmap : ∀ gs : List Entry, gs.map Entry.scalar = (gs.map Entry.receipt).map (fun r =>
      ((Reducer.parseBranchResultBytes r).toOption.bind
        Reducer.BranchResult.scalarValueBps).getD 0) := by
    intro gs
    rw [List.map_map]
    exact List.map_congr_left (fun e _ => hscalar e)
  rw [hmap,hmap,h]

/-- The guest's line determines the parameters of an artifact that fits. -/
lemma guestLine_injective {a b : Artifact} (ha : a.Fits) (hb : b.Fits)
    (h : Reducer.combinerParamsCanonicalBytes a.combinerId ⟨a.trimBps,a.dictionarySize⟩ =
      Reducer.combinerParamsCanonicalBytes b.combinerId ⟨b.trimBps,b.dictionarySize⟩) :
    a.trimBps = b.trimBps := by
  have hline : ∀ c : Artifact, c.Fits →
      Reducer.combinerParamsCanonicalBytes c.combinerId ⟨c.trimBps,c.dictionarySize⟩ =
        Cli.combinerParamsCanonicalBytes c.combinerId c.trimBps c.dictionarySize := by
    intro c hc
    have hid := c.known
    obtain ⟨ht,hd,-⟩ := hc
    exact paramsLine_agrees (by omega) (by simp only; omega) (by simp only; omega)
  rw [hline a ha,hline b hb] at h
  exact (paramsLine_injective h).2.1

/-- Two artifacts over one multiset of receipt hashes list the same receipts, or two of the
receipts collide. -/
lemma receipts_eq_or_collision {a b : Artifact} {S : List Bytes}
    (h : a.hashes.Perm b.hashes) (ha : a.entries.map Entry.receipt ⊆ S)
    (hb : b.entries.map Entry.receipt ⊆ S) :
    a.entries.map Entry.receipt = b.entries.map Entry.receipt ∨ Collision sha256 S := by
  have hmap : ∀ c : Artifact, c.hashes = (c.entries.map Entry.receipt).map sha256 := by
    intro c
    rw [List.map_map]
    rfl
  rw [hmap a,hmap b] at h
  obtain ⟨zs,hzs,hperm⟩ := exists_perm_of_map h
  cases map_eq_or_collision (fun m hm => ha (hperm.subset hm)) hb hzs with
  | inl heq =>
    subst heq
    exact .inl (receipts_eq_of_perm a.rising b.rising hperm.symm)
  | inr hc => exact .inr hc

lemma answer_eq_of_receipts {a b : Artifact} (ha : a.combinerId = 2) (hb : b.combinerId = 2)
    (ht : a.trimBps = b.trimBps) (h : a.entries.map Entry.receipt = b.entries.map Entry.receipt) :
    a.answer = b.answer ∧ a.entries.length = b.entries.length := by
  have hlen : a.entries.length = b.entries.length := by
    simpa using congrArg List.length h
  refine ⟨?_,hlen⟩
  rw [Artifact.answer,if_neg (by omega),if_pos ha,Artifact.answer,if_neg (by omega),if_pos hb,
    Artifact.outlierCount,Artifact.outlierCount,ht,hlen,scalars_eq_of_receipts h]

variable (fromSlice : Bytes → Option Json)

/-- A trimmed mean is pinned by its parameter digest and its Merkle root. -/
theorem trimmedMean_pinned {x y : Bytes} {docx docy : Json} {rx ry : Reducer.AggregateReduction}
    (hdocx : fromSlice x = some docx) (hdocy : fromSlice y = some docy)
    (hx : Reducer.reduceAggregateArtifact fromSlice x = .ok rx)
    (hy : Reducer.reduceAggregateArtifact fromSlice y = .ok ry)
    (hidx : rx.combinerId = 2) (hidy : ry.combinerId = 2)
    (hparams : rx.paramsDigest = ry.paramsDigest) (hroot : rx.merkleRoot = ry.merkleRoot) :
    (rx.resultValue = ry.resultValue ∧ rx.branchCount = ry.branchCount) ∨
      Collision sha256 (Reducer.reductionHashed docx rx ++ Reducer.reductionHashed docy ry) := by
  simp only [Reducer.reduceAggregateArtifact,hdocx,hdocy] at hx hy
  obtain ⟨a,hspella,hfita,rfl⟩ := guest_reduceValue.mp hx
  obtain ⟨b,hspellb,hfitb,rfl⟩ := guest_reduceValue.mp hy
  have hra := receiptsOf_spelled hspella
  have hrb := receiptsOf_spelled hspellb
  have hroots : Reducer.sortedBranchesMerkleRoot b.hashes = .ok a.root := by
    rw [b.guest_root]
    exact congrArg Except.ok hroot.symm
  -- First the parameters, then the multiset of hashes, then the receipts behind the hashes.
  have hlinea : Reducer.combinerParamsCanonicalBytes a.combinerId ⟨a.trimBps,a.dictionarySize⟩ ∈
      Reducer.reductionHashed docx a.guestReduction := .head _
  have hlineb : Reducer.combinerParamsCanonicalBytes b.combinerId ⟨b.trimBps,b.dictionarySize⟩ ∈
      Reducer.reductionHashed docy b.guestReduction := .head _
  cases eq_or_collision (List.mem_append_left _ hlinea) (List.mem_append_right _ hlineb) hparams with
  | inr hc => exact .inr hc
  | inl hline => cases Reducer.merkleRoot_binding a.guest_root hroots with
    | inr hc =>
      refine .inr (hc.mono ?_)
      intro m hm
      simp only [Reducer.reductionHashed,Artifact.guestReduction,List.mem_append,
        List.mem_cons] at hm ⊢
      tauto
    | inl hperm =>
      have hsub : a.entries.map Entry.receipt ⊆ Reducer.reductionHashed docx a.guestReduction ++
          Reducer.reductionHashed docy b.guestReduction := by
        intro m hm
        simp only [Reducer.reductionHashed,List.mem_append,List.mem_cons,hra]
        tauto
      have hsub' : b.entries.map Entry.receipt ⊆ Reducer.reductionHashed docx a.guestReduction ++
          Reducer.reductionHashed docy b.guestReduction := by
        intro m hm
        simp only [Reducer.reductionHashed,List.mem_append,List.mem_cons,hrb]
        tauto
      exact (receipts_eq_or_collision hperm hsub hsub').imp_left
        (answer_eq_of_receipts hidx hidy (guestLine_injective hfita hfitb hline))

/-- Four branches, one trimmed, printed by two runs: each names its own jobs and its own request. -/
theorem trimmedMean_pinned_panel : ∃ (x y : Bytes) (docx docy : Json)
      (rx ry : Reducer.AggregateReduction),
    x ≠ y ∧ jsonOfBytes x = some docx ∧ jsonOfBytes y = some docy ∧
    Reducer.reduceAggregateArtifact jsonOfBytes x = .ok rx ∧
    Reducer.reduceAggregateArtifact jsonOfBytes y = .ok ry ∧
    rx.combinerId = 2 ∧ rx.params.trimBps = 2500 ∧ rx.branchCount = 4 ∧
    ((rx.resultValue = ry.resultValue ∧ rx.branchCount = ry.branchCount) ∨
      Collision sha256 (Reducer.reductionHashed docx rx ++ Reducer.reductionHashed docy ry)) := by
  obtain ⟨x,hx⟩ : ∃ x, x = trimmedPanel.document bareArtifact bareRecord := ⟨_,rfl⟩
  obtain ⟨y,hy⟩ : ∃ y, y = trimmedPanel.document bareArtifact (jobRecord (fun _ => "Job222")) :=
    ⟨_,rfl⟩
  have hplainx : x.Plain := hx ▸ trimmedPanel.document_plain _ _
  have hplainy : y.Plain := hy ▸ trimmedPanel.document_plain _ _
  have hne : utf8 (Json.render x) ≠ utf8 (Json.render y) := by
    intro he
    have hsame := Json.render_injective_of_plain hplainx hplainy (utf8_injective he)
    subst hx hy
    cases hsame
  have hreadx := jsonOfBytes_render hplainx
  have hready := jsonOfBytes_render hplainy
  have hredx : Reducer.reduceAggregateArtifact jsonOfBytes (utf8 (Json.render x)) =
      .ok trimmedPanel.guestReduction :=
    hx ▸ trimmedPanel.guest_printed_eq _ _ trimmedPanel_fits
  have hredy : Reducer.reduceAggregateArtifact jsonOfBytes (utf8 (Json.render y)) =
      .ok trimmedPanel.guestReduction :=
    hy ▸ trimmedPanel.guest_printed_eq _ _ trimmedPanel_fits
  exact ⟨_,_,_,_,_,_,hne,hreadx,hready,hredx,hredy,rfl,rfl,rfl,
    trimmedMean_pinned jsonOfBytes hreadx hready hredx hredy rfl rfl rfl rfl⟩

end TrimmedMean

end Kswarm.Mirror
