import Kswarm.Swarm.Founding

/-! The second half of a bootstrap: the top-up of the wallets and the stakes of the workers, account
by account. Funding only raises a wallet's account, and never above the target unless it was there
before. A deposit moves tokens between a wallet's account and its vault. -/
namespace Kswarm.Swarm
open Cli.Swarm
variable {D : Derivation} {P : Program D}

/-- A step that touches accounts only. -/
structure Advances (w v : World D) : Prop where
  files : v.files = w.files
  profile : v.profile = w.profile
  chain : w.chain.Extends v.chain

namespace Advances
variable {u v w : World D}

lemma refl (w : World D) : Advances w w := ⟨rfl,rfl,.refl _⟩

lemma trans (h : Advances w u) (h' : Advances u v) : Advances w v :=
  ⟨h'.files.trans h.files,h'.profile.trans h.profile,h.chain.trans h'.chain⟩

lemma land {t : Transaction} {c : Chain} (h : P.executes t w.chain c) : Advances w (w.land t c) :=
  ⟨rfl,rfl,P.extends_ _ _ _ h⟩

lemma key (h : Advances w v) (n : String) : v.key n = w.key n := by
  rw [World.key,World.key,h.files]

end Advances

/-- What counts as a wallet's holdings under a name: its account, and its vault if a worker has the
name. -/
def holdings (D : Derivation) (plan : BootstrapPlan) (config : ProtocolConfig) (c : Chain)
    (name : String) (k : Digest) : ℕ :=
  c.held (D.of config k) +
    if name ∈ plan.workers.map WorkerSpec.wallet then c.held (D.vault config k) else 0

section Balances
variable {w : World D}

lemma tokenBalance_yields (account : Digest) :
    Yields (cluster P) (tokenBalance account) w (fun n v => v = w ∧ n = w.chain.held account) := by
  apply yields_call
  rintro balance _ ⟨rfl,rfl⟩
  exact .done (cluster_still P) ⟨rfl,rfl⟩

lemma stakedBalance_yields (plan : BootstrapPlan) (config : ProtocolConfig) (name : String)
    (k : Digest) : Yields (cluster P) (stakedBalance D.toAddressing plan config name k) w
      (fun n v => v = w ∧ w.chain.held (D.of config k) + n = holdings D plan config w.chain name k) := by
  unfold stakedBalance holdings
  split
  · refine (tokenBalance_yields _).imp ?_
    rintro n v ⟨rfl,rfl⟩
    exact ⟨rfl,rfl⟩
  · exact .done (cluster_still P) ⟨rfl,rfl⟩

end Balances

section Funding
variable (plan : BootstrapPlan) (config : ProtocolConfig) (target : ℕ)

/-- The accounts after the top-up of some of the names. -/
structure Funded (w : World D) (before : List String) (v : World D) : Prop where
  advances : Advances w v
  vault : ∀ k, D.onCurve k → v.chain.held (D.vault config k) = w.chain.held (D.vault config k)
  lower : ∀ k, D.onCurve k → w.chain.held (D.of config k) ≤ v.chain.held (D.of config k)
  upper : ∀ k, D.onCurve k →
    v.chain.held (D.of config k) ≤ max (w.chain.held (D.of config k)) target
  reached : ∀ n ∈ before, n ≠ plan.admin → ∀ k, w.key n = some k →
    target ≤ holdings D plan config v.chain n k

variable {plan config target} {w v : World D} {before : List String} {name : String}

lemma onCurve_of_key {n : String} {k : Digest} (h : w.key n = some k) : D.onCurve k := by
  obtain ⟨j,-,rfl⟩ := Option.map_eq_some_iff.mp h
  exact j.property

/-- A name that needs nothing. -/
lemma Funded.skip (h : Funded plan config target w before v)
    (hname : name ≠ plan.admin → ∀ k, w.key name = some k →
      target ≤ holdings D plan config v.chain name k) :
    Funded plan config target w (before ++ [name]) v where
  advances := h.advances
  vault := h.vault
  lower := h.lower
  upper := h.upper
  reached n hn := by
    rcases List.mem_append.mp hn with hn | hn
    · exact h.reached n hn
    · obtain rfl := List.mem_singleton.mp hn
      exact hname

/-- A name whose account is raised to the target. -/
lemma Funded.mint (h : Funded plan config target w before v) {k : Digest}
    (hk : w.key name = some k) {t : Transaction} {c : Chain} (hext : P.executes t v.chain c)
    (hshort : holdings D plan config v.chain name k < target)
    (hheld : ∀ a, c.held a = if a = D.of config k
      then v.chain.held a + (target - holdings D plan config v.chain name k) else v.chain.held a) :
    Funded plan config target w (before ++ [name]) (v.land t c) := by
  have hcurve := onCurve_of_key hk
  have hvault : ∀ j, D.onCurve j → c.held (D.vault config j) = v.chain.held (D.vault config j) := by
    intro j hj
    rw [hheld,if_neg (D.of_ne_vault config hcurve hj).symm]
  have hown : c.held (D.of config k) =
      v.chain.held (D.of config k) + (target - holdings D plan config v.chain name k) := by
    rw [hheld,if_pos rfl]
  have hother : ∀ j, D.onCurve j → j ≠ k → c.held (D.of config j) = v.chain.held (D.of config j) := by
    intro j hj hne
    rw [hheld,if_neg (fun he => hne (D.of_inj config hj hcurve he))]
  have hle : v.chain.held (D.of config k) ≤ holdings D plan config v.chain name k :=
    Nat.le_add_right _ _
  have hraise : ∀ j, D.onCurve j → v.chain.held (D.of config j) ≤ c.held (D.of config j) := by
    intro j hj
    by_cases hjk : j = k
    · subst hjk
      omega
    · rw [hother j hj hjk]
  have hholdings : ∀ n j, D.onCurve j →
      holdings D plan config v.chain n j ≤ holdings D plan config c n j := by
    intro n j hj
    unfold holdings
    rw [hvault j hj]
    exact Nat.add_le_add_right (hraise j hj) _
  refine ⟨h.advances.trans (.land hext),?_,?_,?_,?_⟩
  · intro j hj
    exact (hvault j hj).trans (h.vault j hj)
  · intro j hj
    exact (h.lower j hj).trans (hraise j hj)
  · intro j hj
    change c.held (D.of config j) ≤ _
    by_cases hjk : j = k
    · subst hjk
      omega
    · rw [hother j hj hjk]
      exact h.upper j hj
  · intro n hn hadmin j hj
    rcases List.mem_append.mp hn with hn | hn
    · exact (h.reached n hn hadmin j hj).trans (hholdings n j (onCurve_of_key hj))
    · obtain rfl := List.mem_singleton.mp hn
      obtain rfl : k = j := Option.some.inj (hk.symm.trans hj)
      have hsum : holdings D plan config c n k =
          holdings D plan config v.chain n k + (target - holdings D plan config v.chain n k) := by
        simp only [holdings,hown,hvault k hcurve]
        omega
      change target ≤ holdings D plan config c n k
      omega

lemma fundWallet_yields {wallets : Wallets} {authority : Digest} {report : List (String × FundingEntry)}
    (hagree : Agrees wallets w) (h : Funded plan config target w before v) :
    Yields (cluster P) (fundWallet D.toAddressing plan config wallets authority target report name) v
      (fun _ u => Funded plan config target w (before ++ [name]) u) := by
  unfold fundWallet
  split
  · rename_i hadmin
    exact .done (cluster_still P) (h.skip (fun hne => absurd hadmin hne))
  · refine .lift (fun k hlookup => ?_)
    have hk := hagree name k (require_eq_ok.mp hlookup)
    apply Yields.bind (tokenBalance_yields _)
    rintro own v ⟨rfl,rfl⟩
    apply Yields.bind (stakedBalance_yields plan config name k)
    rintro staked v ⟨rfl,hsum⟩
    dsimp only
    rw [hsum]
    split
    · rename_i hreached
      refine .done (cluster_still P) (h.skip (fun _ j hj => ?_))
      obtain rfl : k = j := Option.some.inj (hk.symm.trans hj)
      exact hreached
    · rename_i hshort
      apply yields_call
      rintro found v ⟨-,rfl⟩
      refine .lift (fun _ _ => yields_call ?_)
      rintro signature _ ⟨c,hexec,rfl⟩
      exact .done (cluster_still P)
        (h.mint hk hexec (not_le.mp hshort) (P.mints _ _ _ _ _ _ _ _ _ hexec))

lemma fundIfAsked_yields [CharData] {wallets : Wallets} {authority : Option Digest}
    (hagree : Agrees wallets w) :
    Yields (cluster P) (fundIfAsked D.toAddressing plan config wallets authority) w (fun _ v =>
      (plan.fundKai = none → v = w) ∧
      ∀ fundKai, plan.fundKai = some fundKai → authority.isSome ∧
        ∃ target, parseBaseUnits fundKai config.paymentDecimals = .ok target ∧
          Funded plan config target w plan.walletNames v) := by
  unfold fundIfAsked
  split
  · rename_i hnone
    refine .done (cluster_still P) ⟨fun _ => rfl,fun _ h => ?_⟩
    rw [hnone] at h
    cases h
  · rename_i fundKai hsome
    refine Yields.bind (R := fun _ v => authority.isSome ∧
      ∃ target, parseBaseUnits fundKai config.paymentDecimals = .ok target ∧
        Funded plan config target w plan.walletNames v) ?_ ?_
    · refine .lift (fun key hkey => .lift (fun target htarget => ?_))
      have hstart : Funded plan config target w [] w :=
        ⟨.refl w,fun _ _ => rfl,fun _ _ => le_rfl,fun _ _ => le_max_left _ _,fun _ h => nomatch h⟩
      refine (Yields.foldlM (I := fun before _ v => Funded plan config target w before v)
        (cluster_still P) plan.walletNames (fun before name report v _ hv => ?_) [] [] w hstart).imp ?_
      · exact fundWallet_yields hagree hv
      · intro _ v hv
        exact ⟨Option.isSome_of_eq_some (require_eq_ok.mp hkey),target,htarget,hv⟩
    · intro report v hv
      refine .done (cluster_still P) ⟨fun h => ?_,fun text htext => ?_⟩
      · rw [hsome] at h
        cases h
      · obtain rfl := Option.some.inj (hsome.symm.trans htext)
        exact hv

end Funding

/-- The accounts of wallets and vaults after a deposit. -/
lemma deposit_held {config : ProtocolConfig} {k : Digest} {amount : ℕ} {c d : Chain}
    (hcurve : D.onCurve k)
    (hexec : P.executes (.depositWorkerStake k config.paymentMint config.tokenProgram amount) c d) :
    d.held (D.of config k) + amount = c.held (D.of config k) ∧
    d.held (D.vault config k) = c.held (D.vault config k) + amount ∧
    ∀ j, D.onCurve j → j ≠ k → d.held (D.of config j) = c.held (D.of config j) ∧
      d.held (D.vault config j) = c.held (D.vault config j) := by
  obtain ⟨henough,hall⟩ := P.deposits _ _ _ _ _ _ hexec
  have hheld : ∀ a, d.held a = if a = D.of config k then c.held a - amount
      else if a = D.vault config k then c.held a + amount else c.held a := hall
  refine ⟨?_,?_,?_⟩
  · rw [hheld,if_pos rfl]
    exact Nat.sub_add_cancel henough
  · rw [hheld,if_neg (D.of_ne_vault config hcurve hcurve).symm,if_pos rfl]
  · intro j hj hne
    have hown : D.of config j ≠ D.of config k := fun he => hne (D.of_inj config hj hcurve he)
    have hstake : D.vault config j ≠ D.vault config k :=
      fun he => hne (D.vault_inj' config hj hcurve he)
    constructor
    · rw [hheld,if_neg hown,if_neg (D.of_ne_vault config hj hcurve)]
    · rw [hheld,if_neg (D.of_ne_vault config hcurve hj).symm,if_neg hstake]

/-- A wallet passes the check exactly when it is registered as its spec says. -/
lemma checkRegistration_eq_ok {spec : WorkerSpec} {account : Registration} :
    checkRegistration spec account = .ok () ↔ spec.registration = .ok account := by
  simp only [checkRegistration,WorkerSpec.registration,bind_eq_ok,failIf_eq_ok,pure_eq_ok,not_not,
    List.append_eq_nil_iff,ite_eq_right_iff,List.cons_ne_nil,imp_false]
  constructor
  · rintro ⟨role,hrole,capability,hcapability,digest,hdigest,⟨rfl,rfl⟩,rfl⟩
    exact ⟨_,hrole,_,hcapability,_,hdigest,rfl⟩
  · rintro ⟨role,hrole,capability,hcapability,digest,hdigest,rfl⟩
    exact ⟨_,hrole,_,hcapability,_,hdigest,⟨rfl,rfl⟩,rfl⟩

lemma ensureRegistered_yields {config : ProtocolConfig} {spec : WorkerSpec} {k : Digest} {w : World D} :
    Yields (cluster P) (ensureRegistered D.toAddressing config spec k) w (fun _ v =>
      Advances w v ∧ v.chain.held = w.chain.held ∧ ∃ registration,
        v.chain.worker (D.workerPda k) = some registration ∧
        spec.registration = .ok registration) := by
  apply yields_call
  rintro account w ⟨rfl,rfl⟩
  split
  · refine .lift (fun registration hreg => yields_call ?_)
    rintro signature _ ⟨c,hexec,rfl⟩
    obtain ⟨hheld,hworker⟩ := P.registers _ _ _ _ _ _ hexec
    exact .done (cluster_still P) ⟨.land hexec,hheld,registration,hworker,hreg⟩
  · rename_i account haccount
    refine .lift (fun _ hcheck => ?_)
    exact .done (cluster_still P)
      ⟨.refl _,rfl,account,haccount,checkRegistration_eq_ok.mp hcheck⟩

section Staking
variable [CharData] (config : ProtocolConfig)

/-- A worker that is registered as its spec says and staked up to its target. -/
def Employed (w : World D) (spec : WorkerSpec) : Prop :=
  ∃ k registration target, w.key spec.wallet = some k ∧
    w.chain.worker (D.workerPda k) = some registration ∧ spec.registration = .ok registration ∧
    targetStake spec config = .ok target ∧ target ≤ w.chain.held (D.vault config k)

/-- The accounts after the stakes of some of the specs. -/
structure Staked (w : World D) (before : List WorkerSpec) (v : World D) : Prop where
  advances : Advances w v
  kept : ∀ k, D.onCurve k → v.chain.held (D.of config k) + v.chain.held (D.vault config k) =
    w.chain.held (D.of config k) + w.chain.held (D.vault config k)
  lower : ∀ k, D.onCurve k → w.chain.held (D.vault config k) ≤ v.chain.held (D.vault config k)
  exact_ : ∀ k, D.onCurve k → v.chain.held (D.vault config k) = w.chain.held (D.vault config k) ∨
    ∃ spec ∈ before, w.key spec.wallet = some k ∧
      targetStake spec config = .ok (v.chain.held (D.vault config k))
  employed : ∀ spec ∈ before, Employed config v spec

variable {config} {w v u : World D} {before : List WorkerSpec} {spec : WorkerSpec}

lemma Employed.advance (h : Employed config v spec) (hadv : Advances v u)
    (hvault : ∀ k, D.onCurve k → v.chain.held (D.vault config k) ≤ u.chain.held (D.vault config k)) :
    Employed config u spec := by
  obtain ⟨k,registration,target,hk,hworker,hreg,htarget,hle⟩ := h
  refine ⟨k,registration,target,?_,hadv.chain.worker _ _ hworker,hreg,htarget,?_⟩
  · rw [hadv.key]
    exact hk
  · exact hle.trans (hvault k (onCurve_of_key hk))

/-- A registration moves no token. -/
lemma Staked.register (h : Staked config w before v) (hadv : Advances v u)
    (hheld : u.chain.held = v.chain.held) : Staked config w before u where
  advances := h.advances.trans hadv
  kept k hk := by
    rw [hheld]
    exact h.kept k hk
  lower k hk := by
    rw [hheld]
    exact h.lower k hk
  exact_ k hk := by
    rw [hheld]
    exact h.exact_ k hk
  employed spec hspec := (h.employed spec hspec).advance hadv (fun _ _ => by rw [hheld])

/-- A spec whose stake is there. -/
lemma Staked.skip (h : Staked config w before v) (hspec : Employed config v spec) :
    Staked config w (before ++ [spec]) v where
  advances := h.advances
  kept := h.kept
  lower := h.lower
  exact_ k hk := by
    rcases h.exact_ k hk with heq | ⟨s,hs,hrest⟩
    · exact .inl heq
    · exact .inr ⟨s,List.mem_append_left _ hs,hrest⟩
  employed s hs := by
    rcases List.mem_append.mp hs with hs | hs
    · exact h.employed s hs
    · obtain rfl := List.mem_singleton.mp hs
      exact hspec

/-- A spec whose vault is filled up to its target from the wallet's account. -/
lemma Staked.deposit (h : Staked config w before v) {k : Digest} {registration : Registration}
    {target : ℕ} (hk : v.key spec.wallet = some k)
    (hworker : v.chain.worker (D.workerPda k) = some registration)
    (hreg : spec.registration = .ok registration) (htarget : targetStake spec config = .ok target)
    (hshort : v.chain.held (D.vault config k) < target) {c : Chain}
    (hexec : P.executes (.depositWorkerStake k config.paymentMint config.tokenProgram
      (target - v.chain.held (D.vault config k))) v.chain c) :
    Staked config w (before ++ [spec]) (v.land (.depositWorkerStake k config.paymentMint
      config.tokenProgram (target - v.chain.held (D.vault config k))) c) := by
  obtain ⟨hown,hfilled,hothers⟩ := deposit_held (onCurve_of_key hk) hexec
  have hvault : c.held (D.vault config k) = target := by omega
  have hraise : ∀ j, D.onCurve j → v.chain.held (D.vault config j) ≤ c.held (D.vault config j) := by
    intro j hj
    by_cases hjk : j = k
    · subst hjk
      omega
    · rw [(hothers j hj hjk).2]
  have hadv : Advances v (v.land (.depositWorkerStake k config.paymentMint config.tokenProgram
      (target - v.chain.held (D.vault config k))) c) := .land hexec
  refine ⟨h.advances.trans hadv,?_,?_,?_,?_⟩
  · intro j hj
    change c.held (D.of config j) + c.held (D.vault config j) = _
    rw [← h.kept j hj]
    by_cases hjk : j = k
    · subst hjk
      omega
    · rw [(hothers j hj hjk).1,(hothers j hj hjk).2]
  · intro j hj
    exact (h.lower j hj).trans (hraise j hj)
  · intro j hj
    change c.held (D.vault config j) = _ ∨ ∃ s ∈ before ++ [spec], _ ∧
      targetStake s config = .ok (c.held (D.vault config j))
    by_cases hjk : j = k
    · subst hjk
      refine .inr ⟨spec,List.mem_append_right _ (List.mem_singleton.mpr rfl),?_,?_⟩
      · rw [← h.advances.key]
        exact hk
      · rw [hvault]
        exact htarget
    · rw [(hothers j hj hjk).2]
      rcases h.exact_ j hj with heq | ⟨s,hs,hrest⟩
      · exact .inl heq
      · exact .inr ⟨s,List.mem_append_left _ hs,hrest⟩
  · intro s hs
    rcases List.mem_append.mp hs with hs | hs
    · exact (h.employed s hs).advance hadv hraise
    · obtain rfl := List.mem_singleton.mp hs
      exact ⟨k,registration,target,hk,hadv.chain.worker _ _ hworker,hreg,htarget,hvault.ge⟩

lemma ensureWorker_yields {wallets : Wallets} {report : List (String × WorkerEntry)}
    (hagree : Agrees wallets w) (h : Staked config w before v) :
    Yields (cluster P) (ensureWorker D.toAddressing config wallets report spec) v
      (fun _ u => Staked config w (before ++ [spec]) u) := by
  refine .lift (fun k hlookup => ?_)
  have hk := hagree spec.wallet k (require_eq_ok.mp hlookup)
  apply Yields.bind ensureRegistered_yields
  rintro registered u ⟨hadv,hheld,registration,hworker,hreg⟩
  have hu := h.register hadv hheld
  have hku : u.key spec.wallet = some k := by
    rw [hu.advances.key]
    exact hk
  refine .lift (fun target htarget => ?_)
  apply Yields.bind (tokenBalance_yields _)
  rintro current u ⟨rfl,rfl⟩
  split
  · rename_i hshort
    refine .lift (fun _ _ => yields_call ?_)
    rintro signature _ ⟨c,hexec,rfl⟩
    exact .done (cluster_still P) (hu.deposit hku hworker hreg htarget hshort hexec)
  · rename_i hfull
    exact .done (cluster_still P)
      (hu.skip ⟨k,registration,target,hku,hworker,hreg,htarget,not_lt.mp hfull⟩)

lemma ensureWorkers_yields {plan : BootstrapPlan} {wallets : Wallets} (hagree : Agrees wallets w) :
    Yields (cluster P) (ensureWorkers D.toAddressing plan config wallets) w
      (fun _ v => Staked config w plan.workers v) := by
  have hstart : Staked config w [] w :=
    ⟨.refl w,fun _ _ => rfl,fun _ _ => le_rfl,fun _ _ => .inl rfl,fun _ h => nomatch h⟩
  exact Yields.foldlM (I := fun before _ v => Staked config w before v) (cluster_still P)
    plan.workers (fun _ _ _ _ _ hv => ensureWorker_yields hagree hv) [] [] w hstart

end Staking
end Kswarm.Swarm
