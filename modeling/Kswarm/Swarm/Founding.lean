import Kswarm.Swarm.Cluster

/-! The first half of a bootstrap: wallets, payment mint and protocol config. It moves no token. -/
namespace Kswarm.Swarm
open Cli.Swarm
variable {D : Derivation} {P : Program D}

-- taking a program apart would decode its keys otherwise
attribute [local irreducible] readKey

/-- What the first half leaves of a world: files and accounts are added, balances stay, and two
names share a key only if they did before. -/
structure Founds (w v : World D) : Prop where
  chain : w.chain.Extends v.chain
  files : ∀ n k, w.files n = some k → v.files n = some k
  held : v.chain.held = w.chain.held
  shared : ∀ a b k, a ≠ b → v.files a = some k → v.files b = some k →
    w.files a = some k ∧ w.files b = some k

namespace Founds
variable {u v w : World D}

lemma refl (w : World D) : Founds w w :=
  ⟨.refl _,fun _ _ h => h,rfl,fun _ _ _ _ ha hb => ⟨ha,hb⟩⟩

lemma trans (h : Founds w u) (h' : Founds u v) : Founds w v where
  chain := h.chain.trans h'.chain
  files n k hk := h'.files n k (h.files n k hk)
  held := h'.held.trans h.held
  shared a b k hne ha hb := by
    obtain ⟨ha',hb'⟩ := h'.shared a b k hne ha hb
    exact h.shared a b k hne ha' hb'

/-- A change to the profile alone. -/
lemma profile (w : World D) (profile : Profile) : Founds w {w with profile := profile} :=
  ⟨.refl _,fun _ _ h => h,rfl,fun _ _ _ _ ha hb => ⟨ha,hb⟩⟩

/-- A transaction that moves no token. -/
lemma land {t : Transaction} {c : Chain} (hext : w.chain.Extends c) (hheld : c.held = w.chain.held) :
    Founds w (w.land t c) :=
  ⟨hext,fun _ _ h => h,hheld,fun _ _ _ _ ha hb => ⟨ha,hb⟩⟩

lemma addWallet {name : String} {k : {k : Digest // D.onCurve k}} (hfree : w.files name = none)
    (hnew : ∀ n, w.files n ≠ some k) : Founds w (w.addWallet name k) where
  chain := .refl _
  files n j hj := by
    have hne : n ≠ name := by
      rintro rfl
      rw [hfree] at hj
      cases hj
    rw [w.addWallet_of_ne k hne]
    exact hj
  held := rfl
  shared a b j hne ha hb := by
    have hold : ∀ n m, n ≠ m → (w.addWallet name k).files n = some j →
        (w.addWallet name k).files m = some j → w.files n = some j := by
      intro n m hnm hn hm
      by_cases h : n = name
      · subst h
        have hm' : w.files m = some j := by
          rwa [w.addWallet_of_ne k hnm.symm] at hm
        rw [w.addWallet_self] at hn
        exact absurd (hm'.trans hn.symm) (hnew m)
      · rwa [w.addWallet_of_ne k h] at hn
    exact ⟨hold a b hne ha hb,hold b a hne.symm hb ha⟩

end Founds

section Wallets
variable {w : World D}

lemma awaitLamports_yields (wallet : Digest) (target : ℕ) (deadline : ℚ) (polls : ℕ) :
    Yields (cluster P) (awaitLamports wallet target deadline polls) w (fun _ v => v = w) := by
  induction polls with
  | zero =>
    apply yields_call
    rintro balance _ rfl
    split
    · exact .done (cluster_still P) rfl
    · exact .raise
  | succ polls ih =>
    apply yields_call
    rintro balance _ rfl
    split
    · exact .done (cluster_still P) rfl
    · apply yields_call
      rintro now _ rfl
      split
      · exact .raise
      · apply yields_call
        rintro _ _ rfl
        exact ih

lemma airdropTo_yields (plan : BootstrapPlan) (wallet : Digest) :
    Yields (cluster P) (airdropTo plan wallet) w (fun _ v => v = w) := by
  unfold airdropTo
  split
  · refine Yields.bind (R := fun _ v => v = w) ?_ ?_
    · apply yields_call
      rintro balance _ rfl
      split
      · exact .done (cluster_still P) rfl
      · apply yields_call
        rintro _ _ rfl
        apply yields_call
        rintro now _ rfl
        apply Yields.bind (awaitLamports_yields _ _ _ _)
        rintro _ _ rfl
        exact .done (cluster_still P) rfl
    · rintro lamports _ rfl
      exact .done (cluster_still P) rfl
  · exact .done (cluster_still P) rfl

/-- The wallets a bootstrap holds are those of the files. -/
def Agrees (wallets : Wallets) (w : World D) : Prop :=
  ∀ n k, wallets.lookup n = some k → w.key n = some k

lemma key_of_founds {v : World D} (h : Founds w v) {n : String} {k : Digest} (hk : w.key n = some k) :
    v.key n = some k := by
  obtain ⟨j,hj,rfl⟩ := Option.map_eq_some_iff.mp hk
  rw [World.key,h.files n j hj]
  rfl

lemma agrees_append {wallets : Wallets} {name : String} {k : Digest} (h : Agrees wallets w)
    (hk : w.key name = some k) : Agrees (wallets ++ [(name,k)]) w := by
  intro n j hj
  rw [List.lookup_append,Option.or_eq_some_iff] at hj
  rcases hj with hj | ⟨-,hj⟩
  · exact h n j hj
  · rw [List.lookup_cons] at hj
    split at hj
    · rename_i hn
      rw [beq_iff_eq.mp hn,← hj]
      exact hk
    · cases hj

lemma ensureWallet_yields (plan : BootstrapPlan) (name : String) :
    Yields (cluster P) (ensureWallet plan name) w (fun r v => Founds w v ∧ v.profile = w.profile ∧
      v.key name = some r.1 ∧ walletPath name = .ok ()) := by
  refine .lift (fun _ hpath => ?_)
  apply yields_call
  rintro found _ ⟨rfl,rfl⟩
  split
  · apply yields_call
    rintro wallet _ ⟨hkey,rfl⟩
    exact .done (cluster_still P) ⟨.refl _,rfl,hkey,hpath⟩
  · rename_i hmissing
    have hfree := Option.not_isSome_iff_eq_none.mp hmissing
    split
    · apply yields_call
      rintro wallet _ ⟨k,hnew,rfl,rfl⟩
      refine .done (cluster_still P) ⟨.addWallet hfree hnew,rfl,?_,hpath⟩
      rw [World.key,World.addWallet_self]
      rfl
    · exact .raise

lemma ensureWallets_yields (plan : BootstrapPlan) (names : List String) :
    ∀ (w : World D) (wallets : Wallets) report, Agrees wallets w →
      Yields (cluster P) (ensureWallets plan names wallets report) w (fun r v =>
        Founds w v ∧ v.profile = w.profile ∧ Agrees r.1 v ∧
        (∀ n, (wallets.lookup n).isSome → (r.1.lookup n).isSome) ∧
        ∀ n ∈ names, walletPath n = .ok () ∧ (r.1.lookup n).isSome) := by
  induction names with
  | nil =>
    intro w wallets report hagree
    exact .done (cluster_still P) ⟨.refl _,rfl,hagree,fun _ h => h,fun _ h => nomatch h⟩
  | cons name names ih =>
    intro w wallets report hagree
    apply Yields.bind (ensureWallet_yields plan name)
    rintro ⟨wallet,created⟩ u ⟨hfound,hprofile,hkey,hpath⟩
    apply Yields.bind (airdropTo_yields plan wallet)
    rintro airdropped u rfl
    have hgrown : Agrees (wallets ++ [(name,wallet)]) u :=
      agrees_append (fun n k hk => key_of_founds hfound (hagree n k hk)) hkey
    refine (ih u _ _ hgrown).imp ?_
    rintro r v ⟨hrest,hprofile',hagree',hkeep,hall⟩
    have hlater : ∀ n, ((wallets ++ [(name,wallet)]).lookup n).isSome → (r.1.lookup n).isSome := hkeep
    refine ⟨hfound.trans hrest,hprofile'.trans hprofile,hagree',?_,?_⟩
    · intro n hn
      apply hlater
      rw [List.lookup_append,Option.isSome_or,hn]
      rfl
    · intro n hn
      rcases List.mem_cons.mp hn with rfl | hn
      · refine ⟨hpath,hlater n ?_⟩
        rw [List.lookup_append,Option.isSome_or]
        simp
      · exact hall n hn

end Wallets

section Mint
variable {w : World D}

/-- The profile names a local wallet as the authority of the mint. -/
def Authorised (w : World D) (mint : Digest) : Prop :=
  w.profile.paymentMint = some (keyText mint) ∧
    ∃ name, truthy w.profile.mintAuthorityWallet = some name ∧ walletPath name = .ok () ∧
      (w.files name).isSome

lemma mintAuthorityIfLocal_yields (mint : Digest) :
    Yields (cluster P) (mintAuthorityIfLocal w.profile mint) w
      (fun r v => v = w ∧ (r.isSome → Authorised w mint)) := by
  unfold mintAuthorityIfLocal
  split
  · exact .done (cluster_still P) ⟨rfl,fun h => nomatch h⟩
  · rename_i name hname
    split
    · exact .done (cluster_still P) ⟨rfl,fun h => nomatch h⟩
    · rename_i hmint
      refine .lift (fun _ hpath => ?_)
      apply yields_call
      rintro found _ ⟨rfl,rfl⟩
      split
      · rename_i hfile
        apply yields_call
        rintro wallet _ ⟨-,rfl⟩
        exact .done (cluster_still P) ⟨rfl,fun _ => ⟨not_not.mp hmint,name,hname,hpath,hfile⟩⟩
      · exact .done (cluster_still P) ⟨rfl,fun h => nomatch h⟩

lemma truthy_of_walletPath {name : String} (h : walletPath name = .ok ()) :
    truthy (some name) = some name := by
  have hname := failIf_eq_ok.mp h
  have hne : name ≠ "" := fun he => hname (.inr (.inl he))
  simp [truthy,Option.filter,hne]

/-- What the mint step leaves: a mint that agrees with the plan, and a profile that leads back to
its authority. -/
structure Minted (plan : BootstrapPlan) (w : World D) (payment : Payment) (v : World D) : Prop where
  founds : Founds w v
  files : v.files = w.files
  planned : ∀ text, truthy plan.paymentMint = some text →
    readKey text = some payment.1 ∧ v.chain.present payment.1 = true
  authorised : payment.2.2.isSome → Authorised v payment.1

lemma createdMint_yields (plan : BootstrapPlan) (admin : Digest)
    (hplan : truthy plan.paymentMint = none) (hpath : walletPath plan.admin = .ok ())
    (hadmin : (w.files plan.admin).isSome) :
    Yields (cluster P) (do
      let (mint,signature) ← createMint admin admin localMintDecimals tokenProgramId
      Ask.saveCluster ⟨some (keyText mint),some localMintDecimals,some (keyText tokenProgramId),
        none,some plan.admin⟩
      pure (mint,.created signature,some admin)) w (fun (r : Payment) v => Minted plan w r v) := by
  refine Yields.bind (R := fun _ v => Founds w v ∧ v.files = w.files) ?_ ?_
  · apply yields_call
    rintro mint _ rfl
    apply yields_call
    rintro rent _ rfl
    apply yields_call
    rintro signature _ ⟨c,hexec,rfl⟩
    obtain ⟨hheld,-⟩ := P.creates _ _ _ _ _ _ _ hexec
    exact .done (cluster_still P) ⟨.land (P.extends_ _ _ _ hexec) hheld,rfl⟩
  · rintro ⟨mint,signature⟩ u ⟨hfounds,hfiles⟩
    apply yields_call
    rintro _ _ rfl
    refine .done (cluster_still P) ⟨hfounds.trans (.profile _ _),hfiles,?_,?_⟩
    · intro text htext
      rw [hplan] at htext
      cases htext
    · intro _
      refine ⟨rfl,plan.admin,truthy_of_walletPath hpath,hpath,?_⟩
      change (u.files plan.admin).isSome
      rwa [hfiles]

lemma profileMint_yields (profile : Profile) :
    Yields (cluster P) (profileMint profile) w (fun _ v => v = w) := by
  unfold profileMint
  split
  · exact .done (cluster_still P) rfl
  · apply Yields.lift
    intro mint _
    apply yields_call
    rintro found _ ⟨-,rfl⟩
    exact .done (cluster_still P) rfl

lemma ensurePaymentMint_yields (plan : BootstrapPlan) (admin : Digest)
    (hpath : walletPath plan.admin = .ok ()) (hadmin : (w.files plan.admin).isSome) :
    Yields (cluster P) (ensurePaymentMint w.profile plan admin) w (Minted plan w) := by
  apply yields_call
  rintro existing w ⟨rfl,rfl⟩
  split
  · rename_i text htext
    apply Yields.lift
    intro mint hmint
    apply Yields.lift
    intro _ _
    apply yields_call
    rintro found _ ⟨rfl,rfl⟩
    split
    · rename_i hpresent
      apply Yields.bind (mintAuthorityIfLocal_yields mint)
      rintro authority _ ⟨rfl,hauth⟩
      refine .done (cluster_still P) ⟨.refl _,rfl,?_,hauth⟩
      intro text' htext'
      obtain rfl := Option.some.inj (htext.symm.trans htext')
      exact ⟨require_eq_ok.mp hmint,hpresent⟩
    · exact .raise
  · rename_i hplan
    have hnone : ∀ (mint : Digest) (v : World D) text, truthy plan.paymentMint = some text →
        readKey text = some mint ∧ v.chain.present mint = true := by
      intro mint v text htext
      rw [hplan] at htext
      cases htext
    split
    · apply Yields.bind (mintAuthorityIfLocal_yields _)
      rintro authority _ ⟨rfl,hauth⟩
      exact .done (cluster_still P) ⟨.refl _,rfl,hnone _ _,hauth⟩
    · apply Yields.bind (profileMint_yields w.profile)
      rintro known w rfl
      split
      · apply Yields.bind (mintAuthorityIfLocal_yields _)
        rintro authority _ ⟨rfl,hauth⟩
        exact .done (cluster_still P) ⟨.refl _,rfl,hnone _ _,hauth⟩
      · split
        · exact createdMint_yields plan admin hplan hpath hadmin
        · exact .raise

end Mint

section Protocol
variable {w : World D}

/-- What the protocol step leaves: a config on chain with the mint it was given. -/
structure Initialized (mint : Digest) (w : World D) (config : ProtocolConfig) (v : World D) : Prop where
  founds : Founds w v
  files : v.files = w.files
  sameMint : config.paymentMint = mint
  stored : v.chain.config = some config
  info : (v.chain.mint mint).isSome
  authorised : Authorised w mint → Authorised v mint

/-- Saving the mint of the profile keeps the way to its authority. -/
lemma authorised_save {mint : Digest} {decimals : Option ℕ} {tokenProgram admin : Option String}
    {v : World D} (hfiles : v.files = w.files) (hprofile : v.profile = w.profile)
    (h : Authorised w mint) :
    Authorised (v.save ⟨some (keyText mint),decimals,tokenProgram,admin,none⟩) mint := by
  obtain ⟨-,name,hname,hpath,hfile⟩ := h
  refine ⟨rfl,name,?_,hpath,?_⟩
  · change truthy (none <|> v.profile.mintAuthorityWallet) = some name
    rw [hprofile]
    exact hname
  · change (v.files name).isSome
    rwa [hfiles]

lemma ensureProtocol_yields [CharData] (plan : BootstrapPlan) (admin mint : Digest) :
    Yields (cluster P) (ensureProtocol plan admin mint) w
      (fun r v => Initialized mint w r.2 v) := by
  apply yields_call
  rintro account _ ⟨rfl,rfl⟩
  refine .lift (fun info hinfo => ?_)
  have hinfo := require_eq_ok.mp hinfo
  apply yields_call
  rintro existing _ ⟨rfl,rfl⟩
  refine .lift (fun _ hsame => ?_)
  split
  · rename_i config hconfig
    rw [hconfig] at hsame
    have hmint := not_not.mp (failIf_eq_ok.mp hsame)
    apply yields_call
    rintro _ _ rfl
    refine .done (cluster_still P) ⟨.profile _ _,rfl,hmint,hconfig,?_,authorised_save rfl rfl⟩
    exact Option.isSome_of_eq_some hinfo
  · refine .lift (fun floors _ => .lift (fun _ _ => ?_))
    apply yields_call
    rintro signature _ ⟨c,hexec,rfl⟩
    obtain ⟨hheld,config,hconfig,hmint,-⟩ := P.initializes _ _ _ _ _ _ hexec
    apply yields_call
    rintro _ _ rfl
    apply yields_call
    rintro read _ ⟨rfl,rfl⟩
    split
    · rename_i config' hconfig'
      have hread : config' = config := Option.some.inj (hconfig'.symm.trans hconfig)
      subst hread
      have hext := P.extends_ _ _ _ hexec
      refine .done (cluster_still P) ⟨(Founds.land hext hheld).trans (.profile _ _),rfl,hmint,
        hconfig,?_,authorised_save rfl rfl⟩
      exact Option.isSome_of_eq_some (hext.mint _ _ hinfo)
    · exact .raise

end Protocol
end Kswarm.Swarm
