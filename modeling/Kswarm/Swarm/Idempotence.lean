import Kswarm.Swarm.Rerun

/-! A bootstrap run again on the world it left. The one way to miss the funding target is a customer
whose key is also a worker's under another name: the stake is drawn from the account that was just
topped up, and the vault does not count under the customer's name. -/
namespace Kswarm.Swarm
open Cli.Swarm
variable {D : Derivation} {P : Program D}

attribute [local irreducible] readKey

section Whole
variable [CharData] {plan : BootstrapPlan} {config : ProtocolConfig} {w v : World D} {name : String}

/-- A settled world is left alone by a bootstrap. -/
lemma bootstrap_rests {T : Tolerance} (hcluster : name ∈ mintCreationClusters)
    (hnamed : Named T w.profile) (h : Ready plan config w)
    (hemployed : ∀ spec ∈ plan.workers, Employed config w spec)
    (hfull : ∀ fundKai, plan.fundKai = some fundKai → ∃ target,
      parseBaseUnits fundKai config.paymentDecimals = .ok target ∧ Full plan config target w) :
    Rests T P w (bootstrap D.toAddressing name w.profile plan) w (fun _ _ => True) := by
  refine .lift (failIf_of_not (not_not.mpr hcluster)) ?_
  refine .bind (ensureWallets_rests plan _ h.known [] [] w (.refl w) (fun _ _ hk => nomatch hk)) ?_
  rintro ⟨wallets,report⟩ v hv ⟨hagree,hall⟩
  have hlookup : ∀ n ∈ plan.walletNames, (wallets.lookup n).isSome := fun n hn => hall n (.inl hn)
  obtain ⟨admin,hadmin⟩ := Option.isSome_iff_exists.mp
    (hlookup plan.admin (mem_walletNames.mpr (.inl rfl)))
  refine .lift (require_eq_ok.mpr hadmin) ?_
  refine .bind (ensurePaymentMint_rests hnamed h admin hv) ?_
  rintro ⟨mint,source,authority⟩ v hv ⟨rfl,hauth⟩
  refine .bind (ensureProtocol_rests h admin hv) ?_
  rintro ⟨status,config⟩ v hv rfl
  refine .lift h.supported ?_
  refine .bind (fundIfAsked_rests hagree hlookup (fun hfund => hauth (h.authorised hfund)) hfull hv) ?_
  intro funding v hv _
  refine .bind (ensureWorkers_rests hagree (fun spec hspec => ?_) hemployed hv) ?_
  · exact hlookup _ (mem_walletNames.mpr (.inr (.inr (List.mem_map_of_mem hspec))))
  · intro workers v hv _
    exact .done hv trivial

/-- The accounts a bootstrap leaves, through the two worlds between its halves. -/
structure Settles (plan : BootstrapPlan) (config : ProtocolConfig) (w founded funded v : World D) :
    Prop where
  founds : Founds w founded
  unfunded : plan.fundKai = none → funded = founded
  funds : ∀ fundKai, plan.fundKai = some fundKai → ∃ target,
    parseBaseUnits fundKai config.paymentDecimals = .ok target ∧
      Funded plan config target founded plan.walletNames funded
  stakes : Staked config funded plan.workers v

lemma Settles.advances {u1 u2 : World D} (h : Settles plan config w u1 u2 v) : Advances u1 v := by
  refine Advances.trans ?_ h.stakes.advances
  cases hfund : plan.fundKai with
  | none => rw [h.unfunded hfund]; exact .refl _
  | some fundKai =>
    obtain ⟨target,-,hfunded⟩ := h.funds fundKai hfund
    exact hfunded.advances

/-- What a bootstrap that returns has done. -/
lemma bootstrap_yields (plan : BootstrapPlan) (name : String) :
    Yields (cluster P) (bootstrap D.toAddressing name w.profile plan) w (fun _ v =>
      name ∈ mintCreationClusters ∧ ∃ config founded funded, Ready plan config v ∧
        Settles plan config w founded funded v) := by
  refine .lift (fun _ hcluster => ?_)
  have hcluster := not_not.mp (failIf_eq_ok.mp hcluster)
  apply Yields.bind (ensureWallets_yields plan _ w [] [] (fun _ _ hk => nomatch hk))
  rintro ⟨wallets,walletReport⟩ u ⟨hfounds,hprofile,hagree,-,hknown⟩
  have hfile : ∀ n ∈ plan.walletNames, walletPath n = .ok () ∧ (u.files n).isSome := by
    intro n hn
    obtain ⟨hpath,hsome⟩ := hknown n hn
    obtain ⟨k,hk⟩ := Option.isSome_iff_exists.mp hsome
    obtain ⟨j,hj,-⟩ := Option.map_eq_some_iff.mp (hagree n k hk)
    exact ⟨hpath,Option.isSome_of_eq_some hj⟩
  obtain ⟨hpath,hadmin⟩ := hfile plan.admin (mem_walletNames.mpr (.inl rfl))
  refine .lift (fun admin _ => ?_)
  rw [← hprofile]
  apply Yields.bind (ensurePaymentMint_yields plan admin hpath hadmin)
  rintro ⟨mint,source,authority⟩ u1 hminted
  apply Yields.bind (ensureProtocol_yields plan admin mint)
  rintro ⟨status,config⟩ u2 hinit
  refine .lift (fun _ hsupported => ?_)
  have hfiles : u2.files = u.files := hinit.files.trans hminted.files
  have hagree2 : Agrees wallets u2 := by
    intro n k hk
    rw [World.key,hfiles]
    exact hagree n k hk
  apply Yields.bind (fundIfAsked_yields hagree2)
  rintro funding u3 ⟨hnone,hsome⟩
  have hadv : Advances u2 u3 := by
    cases hfund : plan.fundKai with
    | none => rw [hnone hfund]; exact .refl _
    | some fundKai =>
      obtain ⟨-,target,-,hfunded⟩ := hsome fundKai hfund
      exact hfunded.advances
  have hagree3 : Agrees wallets u3 := by
    intro n k hk
    rw [hadv.key]
    exact hagree2 n k hk
  apply Yields.bind (ensureWorkers_yields hagree3)
  intro workers v hstaked
  have hlast : Advances u2 v := hadv.trans hstaked.advances
  refine .done (cluster_still P) ⟨hcluster,config,u2,u3,⟨?_,?_,?_,?_,hsupported,?_⟩,
    ⟨(hfounds.trans hminted.founds).trans hinit.founds,hnone,?_,hstaked⟩⟩
  · intro n hn
    rw [hlast.files,hfiles]
    exact hfile n hn
  · exact hlast.chain.config _ hinit.stored
  · rw [hinit.sameMint]
    obtain ⟨info,hinfo⟩ := Option.isSome_iff_exists.mp hinit.info
    exact Option.isSome_of_eq_some (hlast.chain.mint _ _ hinfo)
  · intro text htext
    obtain ⟨hkey,hpresent⟩ := hminted.planned text htext
    rw [hinit.sameMint]
    exact ⟨hkey,hlast.chain.present _ (hinit.founds.chain.present _ hpresent)⟩
  · intro hfund
    obtain ⟨fundKai,hfund⟩ := Option.isSome_iff_exists.mp hfund
    rw [hinit.sameMint]
    exact (hinit.authorised (hminted.authorised (hsome fundKai hfund).1)).advance hlast
  · intro fundKai hfund
    exact (hsome fundKai hfund).2

end Whole

section Claim
variable [CharData]

/-- After a bootstrap: run again with the saved profile it hands nothing to the chain, and nothing
but the outside stops it if the profile names its mint authority by a file name; the vaults hold
their targets, and the wallets hold the funding target. -/
structure Idempotent (P : Program D) (name : String) (plan : BootstrapPlan) (config : ProtocolConfig)
    (w : World D) : Prop where
  quiet : ∀ v q, Reaches (cluster P) w (bootstrap D.toAddressing name w.profile plan) v q →
    v.sent = w.sent
  completes : (∀ authority, truthy w.profile.mintAuthorityWallet = some authority →
      walletPath authority = .ok ()) →
    ∀ v e, Reaches (cluster P) w (bootstrap D.toAddressing name w.profile plan) v (.raise e) →
      Excused e
  staked : ∀ spec ∈ plan.workers, ∃ k target, w.key spec.wallet = some k ∧
    targetStake spec config = .ok target ∧ target ≤ w.chain.held (D.vault config k)
  funded : ∀ fundKai, plan.fundKai = some fundKai → ∃ target,
    parseBaseUnits fundKai config.paymentDecimals = .ok target ∧ Full plan config target w

/-- The customer is neither the admin nor named as a worker, but a worker has its key, and the
stake this worker still lacks is more than the account holds above the funding target. -/
def Overdraws (plan : BootstrapPlan) (config : ProtocolConfig) (w : World D) : Prop :=
  plan.customer ≠ plan.admin ∧ plan.customer ∉ plan.workers.map WorkerSpec.wallet ∧
  ∃ fundKai target k spec stake, plan.fundKai = some fundKai ∧
    parseBaseUnits fundKai config.paymentDecimals = .ok target ∧
    w.key plan.customer = some k ∧ spec ∈ plan.workers ∧ w.key spec.wallet = some k ∧
    targetStake spec config = .ok stake ∧
    w.chain.held (D.of config k) - target < stake - w.chain.held (D.vault config k)

variable {plan : BootstrapPlan} {config : ProtocolConfig} {w u1 u2 v : World D} {name : String}

/-- The customer's account: topped up to the target, then drawn on by the workers with its key. -/
lemma customer_account {target : ℕ} (hfounds : Founds w u1)
    (hfunded : Funded plan config target u1 plan.walletNames u2)
    (hstaked : Staked config u2 plan.workers v) (hadmin : plan.customer ≠ plan.admin)
    (hworker : plan.customer ∉ plan.workers.map WorkerSpec.wallet) {k : Digest}
    (hk : v.key plan.customer = some k) :
    holdings D plan config v.chain plan.customer k + v.chain.held (D.vault config k) =
      max (w.chain.held (D.of config k)) target + w.chain.held (D.vault config k) := by
  have hcurve := onCurve_of_key hk
  have hk1 : u1.key plan.customer = some k := by
    rw [hstaked.advances.key,hfunded.advances.key] at hk
    exact hk
  have hreached := hfunded.reached plan.customer (mem_walletNames.mpr (.inr (.inl rfl))) hadmin k hk1
  have hlower := hfunded.lower k hcurve
  have hupper := hfunded.upper k hcurve
  have hkept := hstaked.kept k hcurve
  have hvault := hfunded.vault k hcurve
  rw [holdings,if_neg hworker,Nat.add_zero] at hreached ⊢
  rw [hfounds.held] at hlower hupper hvault
  omega

lemma not_full_of_overdraws (h : Settles plan config w u1 u2 v) (hover : Overdraws plan config w)
    {fundKai : String} {target : ℕ} (hfund : plan.fundKai = some fundKai)
    (htarget : parseBaseUnits fundKai config.paymentDecimals = .ok target) :
    ¬Full plan config target v := by
  obtain ⟨hadmin,hworker,fundKai',target',k,spec,stake,hfund',htarget',hk,hspec,hk',hstake,
    hlack⟩ := hover
  obtain rfl := Option.some.inj (hfund.symm.trans hfund')
  obtain rfl := Except.ok.inj (htarget.symm.trans htarget')
  obtain ⟨target',htarget',hfunded⟩ := h.funds fundKai hfund
  obtain rfl := Except.ok.inj (htarget.symm.trans htarget')
  have hkey : ∀ n, w.key n = some k → v.key n = some k := by
    intro n hn
    rw [h.advances.key]
    exact key_of_founds h.founds hn
  obtain ⟨k',-,stake',hk'',-,-,hstake',hle⟩ := h.stakes.employed spec hspec
  obtain rfl := Option.some.inj ((hkey _ hk').symm.trans hk'')
  obtain rfl := Except.ok.inj (hstake.symm.trans hstake')
  have haccount := customer_account h.founds hfunded h.stakes hadmin hworker (hkey _ hk)
  intro hfull
  have hreached := hfull plan.customer (mem_walletNames.mpr (.inr (.inl rfl))) hadmin k (hkey _ hk)
  omega

lemma full_of_not_overdraws (h : Settles plan config w u1 u2 v) (hover : ¬Overdraws plan config w)
    {fundKai : String} {target : ℕ} (hfund : plan.fundKai = some fundKai)
    (htarget : parseBaseUnits fundKai config.paymentDecimals = .ok target) :
    Full plan config target v := by
  obtain ⟨target',htarget',hfunded⟩ := h.funds fundKai hfund
  obtain rfl := Except.ok.inj (htarget.symm.trans htarget')
  intro n hn hadmin k hk
  have hcurve := onCurve_of_key hk
  by_cases hworker : n ∈ plan.workers.map WorkerSpec.wallet
  · -- a deposit moves tokens within a worker's holdings
    have hk1 : u1.key n = some k := by
      rw [h.advances.key] at hk
      exact hk
    have hreached := hfunded.reached n hn hadmin k hk1
    have hkept := h.stakes.kept k hcurve
    rw [holdings,if_pos hworker] at hreached ⊢
    omega
  · obtain rfl : n = plan.customer := by
      rcases mem_walletNames.mp hn with h | h | h
      · exact absurd h hadmin
      · exact h
      · exact absurd h hworker
    have haccount := customer_account h.founds hfunded h.stakes hadmin hworker hk
    rcases h.stakes.exact_ k hcurve with hsame | ⟨spec,hspec,hkey,hstake⟩
    · rw [hfunded.vault k hcurve,h.founds.held] at hsame
      omega
    · have hne : plan.customer ≠ spec.wallet := by
        intro he
        exact hworker (he ▸ List.mem_map_of_mem hspec)
      rw [← h.stakes.advances.key] at hkey
      obtain ⟨hc,hcustomer⟩ := key_eq_some.mp hk
      obtain ⟨_,hspecfile⟩ := key_eq_some.mp hkey
      rw [h.advances.files] at hcustomer hspecfile
      obtain ⟨hcw,hsw⟩ := h.founds.shared _ _ _ hne hcustomer hspecfile
      have hlack : ¬w.chain.held (D.of config k) - target <
          v.chain.held (D.vault config k) - w.chain.held (D.vault config k) := fun hlt =>
        hover ⟨hadmin,hworker,fundKai,target,k,spec,_,hfund,htarget,key_eq_some.mpr ⟨hc,hcw⟩,hspec,
          key_eq_some.mpr ⟨hc,hsw⟩,hstake,hlt⟩
      have hlower := h.stakes.lower k hcurve
      rw [hfunded.vault k hcurve,h.founds.held] at hlower
      omega

/-- A bootstrap that returned is idempotent exactly when no worker overdraws the customer. -/
theorem bootstrap_idempotent_iff {summary : Summary}
    (hrun : Reaches (cluster P) w (bootstrap D.toAddressing name w.profile plan) v (.done summary))
    (hconfig : v.chain.config = some config) :
    Idempotent P name plan config v ↔ ¬Overdraws plan config w := by
  obtain ⟨hcluster,config',u1,u2,hready,hsettles⟩ := (bootstrap_yields plan name).reaches_done hrun
  obtain rfl := Option.some.inj (hconfig.symm.trans hready.stored)
  constructor
  · intro h hover
    obtain ⟨fundKai,-,-,-,-,hfund,-⟩ := hover.2.2
    obtain ⟨target,htarget,hfull⟩ := h.funded fundKai hfund
    exact not_full_of_overdraws hsettles hover hfund htarget hfull
  · intro hover
    have hfull : ∀ fundKai, plan.fundKai = some fundKai → ∃ target,
        parseBaseUnits fundKai config.paymentDecimals = .ok target ∧ Full plan config target v := by
      intro fundKai hfund
      obtain ⟨target,htarget,-⟩ := hsettles.funds fundKai hfund
      exact ⟨target,htarget,full_of_not_overdraws hsettles hover hfund htarget⟩
    have hrests : ∀ T : Tolerance, Named T v.profile →
        Rests T P v (bootstrap D.toAddressing name v.profile plan) v (fun _ _ => True) :=
      fun T hnamed => bootstrap_rests hcluster hnamed hready hsettles.stakes.employed hfull
    refine ⟨?_,?_,?_,hfull⟩
    · intro u q hr
      exact (Safe.stops (hrests ⟨fun _ => True,fun _ _ => trivial⟩ (fun _ _ => .inr trivial))
        ⟨q,hr⟩).sent
    · intro hvalid u e hr
      have h := Safe.reaches (hrests ⟨Excused,fun _ h => h⟩ (fun n hn => .inl (hvalid n hn))) hr
      exact (h u rfl).2
    · intro spec hspec
      obtain ⟨k,-,target,hk,-,-,htarget,hle⟩ := hsettles.stakes.employed spec hspec
      exact ⟨k,target,hk,htarget,hle⟩

end Claim

section Samples

/-- Addresses for a handful of keys: a worker's account lies a hundred further on, and a token
account has the address of its owner. -/
def nearby : Addressing where
  workerPda k := natKey (keyNat k + 100)
  ata _ _ owner := owner

lemma keyNat_nearby {k : Digest} (h : keyNat k < 100) : keyNat (nearby.workerPda k) = keyNat k + 100 :=
  keyNat_natKey (by omega)

lemma nearby_vault_inj (a b : Digest) (ha : keyNat a < 100) (hb : keyNat b < 100)
    (h : nearby.workerPda a = nearby.workerPda b) : a = b := by
  have := congrArg keyNat h
  rw [keyNat_nearby ha,keyNat_nearby hb] at this
  exact keyNat_inj (by omega)

lemma nearby_ne_vault (a b : Digest) (ha : keyNat a < 100) (hb : keyNat b < 100) :
    a ≠ nearby.workerPda b := by
  intro h
  have := congrArg keyNat h
  rw [keyNat_nearby hb] at this
  omega

def nearbyKeys : Derivation where
  toAddressing := nearby
  onCurve k := keyNat k < 100
  wallet_inj _ _ _ _ _ _ h := h
  vault_inj _ _ a b := nearby_vault_inj a b
  wallet_ne_vault _ _ a b := nearby_ne_vault a b

lemma onCurve_natKey {n : ℕ} (h : n < 100) : nearbyKeys.onCurve (natKey n) := by
  change keyNat (natKey n) < 100
  rw [keyNat_natKey (by omega)]
  exact h

def sampleKey (n : ℕ) (h : n < 100) : {k : Digest // nearbyKeys.onCurve k} :=
  ⟨natKey n,onCurve_natKey h⟩

def bob : WorkerSpec := ⟨"bob","worker-proof","worker-proof","worker-canonical",some "4"⟩

/-- Ten tokens for every wallet, and a stake of four for `bob`. -/
def samplePlan (customer : String) : BootstrapPlan where
  admin := "admin"
  customer := customer
  workers := [bob]
  createWallets := false
  targetLamports := 0
  createMint := false
  paymentMint := none
  fundKai := some "10"
  tierFloors := ("1","2","3")
  verifierFloor := "1"
  minChallengeWindowSeconds := 5

def sampleConfig : ProtocolConfig := ⟨natKey 1,natKey 9,tokenProgramId,0,1,2,3,1,5⟩

/-- `alice` and `bob` are two files with one key. No one holds a token yet. -/
def sampleWorld : World nearbyKeys where
  files name :=
    if name = "admin" then some (sampleKey 1 (by decide))
    else if name = "alice" ∨ name = "bob" then some (sampleKey 2 (by decide))
    else if name = "carol" then some (sampleKey 3 (by decide))
    else none
  profile := ⟨some (keyText (natKey 9)),some 0,some (keyText tokenProgramId),none,some "admin"⟩
  chain := {
    config := some sampleConfig
    worker := fun _ => none
    token := fun _ => none
    mint := fun m => if m = natKey 9 then some ⟨tokenProgramId,0⟩ else none
    present := fun a => decide (a = natKey 9) }
  sent := []

local instance : CharData := CharData.ascii

def samplePlay (customer : String) (w : World nearbyKeys) : World nearbyKeys × Run Summary :=
  Process.play (answering nearbyKeys) 40 w
    (bootstrap nearbyKeys.toAddressing "local" w.profile (samplePlan customer))

lemma reaches_samplePlay (customer : String) (w : World nearbyKeys) :
    Reaches (cluster (reference nearbyKeys)) w
      (bootstrap nearbyKeys.toAddressing "local" w.profile (samplePlan customer))
      (samplePlay customer w).1 (samplePlay customer w).2 :=
  .play cluster_answering _ _ _

/-- With a key of her own the customer keeps what she was given. -/
theorem bootstrap_idempotent_carol : ∃ v summary,
    Reaches (cluster (reference nearbyKeys)) sampleWorld
      (bootstrap nearbyKeys.toAddressing "local" sampleWorld.profile (samplePlan "carol")) v
      (.done summary) ∧
    Idempotent (reference nearbyKeys) "local" (samplePlan "carol") sampleConfig v := by
  obtain ⟨summary,hdone⟩ := Process.exists_done
    (by decide +kernel : (samplePlay "carol" sampleWorld).2.isDone = true)
  have hrun := reaches_samplePlay "carol" sampleWorld
  rw [hdone] at hrun
  have hconfig : (samplePlay "carol" sampleWorld).1.chain.config = some sampleConfig := by
    decide +kernel
  refine ⟨_,summary,hrun,(bootstrap_idempotent_iff hrun hconfig).mpr ?_⟩
  rintro ⟨-,-,fundKai,target,k,spec,stake,-,-,hk,hspec,hk',-⟩
  obtain rfl := List.mem_singleton.mp hspec
  have hne : sampleWorld.key "carol" ≠ sampleWorld.key "bob" := by decide +kernel
  exact hne (hk.trans hk'.symm)

/-- `alice` shares her key with `bob`: his stake leaves her account short, and the rerun mints. -/
theorem rerun_mints_again : ∃ v summary,
    Reaches (cluster (reference nearbyKeys)) sampleWorld
      (bootstrap nearbyKeys.toAddressing "local" sampleWorld.profile (samplePlan "alice")) v
      (.done summary) ∧
    (∃ u q, Reaches (cluster (reference nearbyKeys)) v
        (bootstrap nearbyKeys.toAddressing "local" v.profile (samplePlan "alice")) u q ∧
      u.sent = v.sent ++ [.mintTo (natKey 1) (natKey 9) tokenProgramId none (natKey 2) 4 0]) ∧
    ¬Idempotent (reference nearbyKeys) "local" (samplePlan "alice") sampleConfig v := by
  obtain ⟨summary,hdone⟩ := Process.exists_done
    (by decide +kernel : (samplePlay "alice" sampleWorld).2.isDone = true)
  have hrun := reaches_samplePlay "alice" sampleWorld
  rw [hdone] at hrun
  have hagain := reaches_samplePlay "alice" (samplePlay "alice" sampleWorld).1
  have hsent : (samplePlay "alice" (samplePlay "alice" sampleWorld).1).1.sent =
      (samplePlay "alice" sampleWorld).1.sent ++
        [.mintTo (natKey 1) (natKey 9) tokenProgramId none (natKey 2) 4 0] := by decide +kernel
  refine ⟨_,summary,hrun,⟨_,_,hagain,hsent⟩,?_⟩
  intro h
  have hquiet := h.quiet _ _ hagain
  rw [hsent] at hquiet
  simp at hquiet

end Samples
end Kswarm.Swarm
