import Kswarm.Swarm.Staking

/-! A bootstrap run on a world that is settled already: every step finds what it wants and sends
nothing. -/
namespace Kswarm.Swarm
open Cli.Swarm
variable {D : Derivation} {P : Program D}

attribute [local irreducible] readKey

/-- A failure of the outside: a call that raised, or an airdrop that did not land. -/
def Excused : Failure → Prop
  | .call _ => True
  | .airdropDidNotLand _ => True
  | _ => False

/-- Nothing but the profile has changed. -/
structure Still (w v : World D) : Prop where
  chain : v.chain = w.chain
  files : v.files = w.files
  sent : v.sent = w.sent

lemma Still.refl (w : World D) : Still w w := ⟨rfl,rfl,rfl⟩

lemma Still.key {w v : World D} (h : Still w v) (n : String) : v.key n = w.key n := by
  rw [World.key,World.key,h.files]

/-- The failures a statement lets pass: at least those of the outside. -/
structure Tolerance where
  passes : Failure → Prop
  excused : ∀ e, Excused e → passes e

/-- The program leaves `w` alone wherever it is stopped, and only tolerated failures stop it. -/
def Rests (T : Tolerance) (P : Program D) {α : Type} (w : World D) (p : Run α) (v : World D)
    (R : α → World D → Prop) : Prop :=
  Safe (cluster P) (Still w) (fun _ _ => True)
    (fun r u => match r with
      | .ok a => R a u
      | .error e => T.passes e) p v

namespace Rests
variable {T : Tolerance} {α β : Type} {w v : World D}

lemma done {a : α} {R : α → World D → Prop} (hv : Still w v) (h : R a v) :
    Rests T P w (.done a) v R := Safe.stillDone (cluster_still P) hv h

lemma raise {e : Failure} {R : α → World D → Prop} (hv : Still w v) (h : T.passes e) :
    Rests T P w (.raise e : Run α) v R := Safe.stillRaise (cluster_still P) hv h

lemma imp {p : Run α} {R Q : α → World D → Prop} (h : Rests T P w p v R)
    (hRQ : ∀ a u, R a u → Q a u) : Rests T P w p v Q := by
  apply Safe.weaken h
  rintro (e | a) u - hr
  · exact hr
  · exact hRQ a u hr

lemma bind {p : Run α} {f : α → Run β} {R : α → World D → Prop} {Q : β → World D → Prop}
    (h : Rests T P w p v R) (hf : ∀ a u, Still w u → R a u → Rests T P w (f a) u Q) :
    Rests T P w (p >>= f) v Q :=
  Safe.andThen h (fun a u hu hr => hf a u hu hr) (fun _ _ _ he => he)

lemma lift {x : Except Failure α} {f : α → Run β} {Q : β → World D → Prop} {a : α}
    (hx : x = .ok a) (h : Rests T P w (f a) v Q) : Rests T P w (Process.lift x >>= f) v Q := by
  subst hx
  exact h

lemma ask {o : Op} {f : Result o → Run β} {Q : β → World D → Prop} (hv : Still w v)
    (hspoils : ∀ u, spoils P o v u → Still w u)
    (h : ∀ a u, effect P o v a u → Rests T P w (f a) u Q) : Rests T P w (call o >>= f) v Q :=
  safe_call hv trivial h (fun _ u hu => ⟨hspoils u hu,T.excused _ trivial⟩)

/-- A call that changes nothing when it fails. -/
lemma read {o : Op} {f : Result o → Run β} {Q : β → World D → Prop} (hv : Still w v)
    (hspoils : ∀ u, spoils P o v u → u = v)
    (h : ∀ a u, effect P o v a u → Rests T P w (f a) u Q) : Rests T P w (call o >>= f) v Q :=
  ask hv (fun u hu => hspoils u hu ▸ hv) h

/-- A loop whose turns all leave `w` alone. -/
lemma foldlM {ι : Type} {f : α → ι → Run α} (xs : List ι)
    (hstep : ∀ x ∈ xs, ∀ a v, Still w v → Rests T P w (f a x) v (fun _ _ => True)) :
    ∀ a v, Still w v → Rests T P w (xs.foldlM f a) v (fun _ _ => True) := by
  induction xs with
  | nil =>
    intro a v hv
    exact done hv trivial
  | cons x xs ih =>
    intro a v hv
    rw [List.foldlM_cons]
    apply bind (hstep x List.mem_cons_self a v hv)
    intro b u hu _
    exact ih (fun y hy => hstep y (List.mem_cons_of_mem x hy)) b u hu

end Rests

section Wallets
variable {T : Tolerance} {w v : World D}

lemma awaitLamports_rests (wallet : Digest) (target : ℕ) (deadline : ℚ) (polls : ℕ) :
    ∀ v, Still w v →
      Rests T P w (awaitLamports wallet target deadline polls) v (fun _ _ => True) := by
  induction polls with
  | zero =>
    intro v hv
    refine .read hv (fun _ h => h) ?_
    rintro balance v rfl
    split
    · exact .done hv trivial
    · exact .raise hv (T.excused _ trivial)
  | succ polls ih =>
    intro v hv
    refine .read hv (fun _ h => h) ?_
    rintro balance v rfl
    split
    · exact .done hv trivial
    · refine .read hv (fun _ h => h) ?_
      rintro now v rfl
      split
      · exact .raise hv (T.excused _ trivial)
      · refine .read hv (fun _ h => h) ?_
        rintro _ v rfl
        exact ih v hv

lemma airdropTo_rests (plan : BootstrapPlan) (wallet : Digest) (hv : Still w v) :
    Rests T P w (airdropTo plan wallet) v (fun _ _ => True) := by
  unfold airdropTo
  split
  · refine Rests.bind (R := fun _ _ => True) ?_ (fun _ u hu _ => .done hu trivial)
    refine .read hv (fun _ h => h) ?_
    rintro balance v rfl
    split
    · exact .done hv trivial
    · refine .read hv (fun _ h => h) ?_
      rintro _ v rfl
      refine .read hv (fun _ h => h) ?_
      rintro now v rfl
      exact .bind (awaitLamports_rests _ _ _ _ v hv) (fun _ u hu _ => .done hu trivial)
  · exact .done hv trivial

lemma ensureWallet_rests (plan : BootstrapPlan) {name : String} (hpath : walletPath name = .ok ())
    (hfile : (w.files name).isSome) (hv : Still w v) :
    Rests T P w (ensureWallet plan name) v (fun r _ => w.key name = some r.1) := by
  refine .lift hpath ?_
  refine .read hv (fun _ h => h) ?_
  rintro found v ⟨rfl,rfl⟩
  rw [hv.files,if_pos hfile]
  refine .read hv (fun _ h => h) ?_
  rintro wallet v ⟨hkey,rfl⟩
  rw [hv.key] at hkey
  exact .done hv hkey

lemma ensureWallets_rests (plan : BootstrapPlan) (names : List String)
    (hknown : ∀ n ∈ names, walletPath n = .ok () ∧ (w.files n).isSome) :
    ∀ (wallets : Wallets) report v, Still w v → Agrees wallets w →
      Rests T P w (ensureWallets plan names wallets report) v (fun r _ => Agrees r.1 w ∧
        ∀ n, n ∈ names ∨ (wallets.lookup n).isSome → (r.1.lookup n).isSome) := by
  induction names with
  | nil =>
    intro wallets report v hv hagree
    refine .done hv ⟨hagree,fun n hn => ?_⟩
    rcases hn with hn | hn
    · cases hn
    · exact hn
  | cons name names ih =>
    intro wallets report v hv hagree
    obtain ⟨hpath,hfile⟩ := hknown name List.mem_cons_self
    refine .bind (ensureWallet_rests plan hpath hfile hv) ?_
    rintro ⟨wallet,created⟩ v hv hkey
    refine .bind (airdropTo_rests plan wallet hv) ?_
    intro airdropped v hv _
    have hrest := ih (fun n hn => hknown n (List.mem_cons_of_mem name hn)) _
      (put report name ⟨wallet,created,airdropped⟩) v hv (agrees_append hagree hkey)
    apply hrest.imp
    rintro r u ⟨hagree',hall⟩
    refine ⟨hagree',fun n hn => hall n ?_⟩
    rw [List.lookup_append,Option.isSome_or]
    rcases hn with hn | hn
    · rcases List.mem_cons.mp hn with rfl | hn
      · simp
      · exact .inl hn
    · simp [hn]

end Wallets

section Protocol
variable {T : Tolerance} {w v : World D} {config : ProtocolConfig}

/-- A wallet name of the profile that is no file name is refused, if the mint is the profile's. -/
def Named (T : Tolerance) (profile : Profile) : Prop :=
  ∀ name, truthy profile.mintAuthorityWallet = some name →
    walletPath name = .ok () ∨ T.passes (.invalidWalletName name)

lemma walletPath_cases (name : String) :
    walletPath name = .ok () ∨ walletPath name = .error (.invalidWalletName name) := by
  unfold walletPath failIf
  split
  · exact .inr rfl
  · exact .inl rfl

lemma mintAuthorityIfLocal_rests (hnamed : Named T w.profile) (mint : Digest) (hv : Still w v) :
    Rests T P w (mintAuthorityIfLocal w.profile mint) v
      (fun r _ => Authorised w mint → r.isSome) := by
  unfold mintAuthorityIfLocal
  split
  · rename_i hname
    refine .done hv (fun h => ?_)
    obtain ⟨-,name,hsome,-⟩ := h
    rw [hname] at hsome
    cases hsome
  · rename_i name hname
    split
    · rename_i hmint
      exact .done hv (fun h => absurd h.1 hmint)
    · rcases walletPath_cases name with hpath | hpath
      · refine .lift hpath ?_
        refine .read hv (fun _ h => h) ?_
        rintro found v ⟨rfl,rfl⟩
        rw [hv.files]
        split
        · refine .read hv (fun _ h => h) ?_
          rintro wallet v ⟨-,rfl⟩
          exact .done hv (fun _ => rfl)
        · rename_i hfile
          refine .done hv (fun h => ?_)
          obtain ⟨-,name',hsome,-,hfile'⟩ := h
          obtain rfl := Option.some.inj (hname.symm.trans hsome)
          exact absurd hfile' hfile
      · have hpass : T.passes (.invalidWalletName name) := by
          rcases hnamed name hname with hok | hpass
          · rw [hpath] at hok
            cases hok
          · exact hpass
        rw [hpath]
        exact .raise hv hpass

lemma Authorised.advance {mint : Digest} (h : Authorised w mint) (hadv : Advances w v) :
    Authorised v mint := by
  unfold Authorised
  rw [hadv.files,hadv.profile]
  exact h

/-- What the rerun finds of the mint and the protocol. -/
structure Ready (plan : BootstrapPlan) (config : ProtocolConfig) (w : World D) : Prop where
  known : ∀ n ∈ plan.walletNames, walletPath n = .ok () ∧ (w.files n).isSome
  stored : w.chain.config = some config
  info : (w.chain.mint config.paymentMint).isSome
  planned : ∀ text, truthy plan.paymentMint = some text →
    readKey text = some config.paymentMint ∧ w.chain.present config.paymentMint = true
  supported : validateTokenProgram config.tokenProgram = .ok ()
  authorised : plan.fundKai.isSome → Authorised w config.paymentMint

lemma ensurePaymentMint_rests {plan : BootstrapPlan} (hnamed : Named T w.profile)
    (h : Ready plan config w) (admin : Digest) (hv : Still w v) :
    Rests T P w (ensurePaymentMint w.profile plan admin) v (fun r _ =>
      r.1 = config.paymentMint ∧ (Authorised w config.paymentMint → r.2.2.isSome)) := by
  refine .read hv (fun _ h => h) ?_
  rintro existing v ⟨rfl,rfl⟩
  rw [hv.chain,h.stored]
  split
  · rename_i text htext
    obtain ⟨hkey,hpresent⟩ := h.planned text htext
    refine .lift (require_eq_ok.mpr hkey) (.lift (failIf_of_not (not_not.mpr rfl)) ?_)
    refine .read hv (fun _ h => h) ?_
    rintro found v ⟨rfl,rfl⟩
    rw [hv.chain,if_pos hpresent]
    refine .bind (mintAuthorityIfLocal_rests hnamed _ hv) ?_
    intro authority v hv hauth
    exact .done hv ⟨rfl,hauth⟩
  · refine .bind (mintAuthorityIfLocal_rests hnamed _ hv) ?_
    intro authority v hv hauth
    exact .done hv ⟨rfl,hauth⟩

lemma ensureProtocol_rests [CharData] {plan : BootstrapPlan} (h : Ready plan config w)
    (admin : Digest) (hv : Still w v) :
    Rests T P w (ensureProtocol plan admin config.paymentMint) v (fun r _ => r.2 = config) := by
  refine .read hv (fun _ h => h) ?_
  rintro account v ⟨rfl,rfl⟩
  obtain ⟨info,hinfo⟩ := Option.isSome_iff_exists.mp h.info
  rw [hv.chain,hinfo]
  refine .lift rfl ?_
  refine .read hv (fun _ h => h) ?_
  rintro existing v ⟨rfl,rfl⟩
  rw [hv.chain,h.stored]
  refine .lift (failIf_of_not (not_not.mpr rfl)) ?_
  refine .ask hv ?_ ?_
  · rintro _ ⟨profile,rfl⟩
    exact ⟨hv.chain,hv.files,hv.sent⟩
  · rintro _ _ rfl
    exact .done ⟨hv.chain,hv.files,hv.sent⟩ rfl

end Protocol

section Accounts
variable {T : Tolerance} {w v : World D} {plan : BootstrapPlan} {config : ProtocolConfig}
  {wallets : Wallets}

lemma tokenBalance_rests (account : Digest) (hv : Still w v) :
    Rests T P w (tokenBalance account) v (fun n _ => n = w.chain.held account) := by
  refine .read hv (fun _ h => h) ?_
  rintro balance v ⟨rfl,rfl⟩
  rw [hv.chain]
  exact .done hv rfl

lemma stakedBalance_rests (name : String) (k : Digest) (hv : Still w v) :
    Rests T P w (stakedBalance D.toAddressing plan config name k) v (fun n _ =>
      w.chain.held (D.of config k) + n = holdings D plan config w.chain name k) := by
  unfold stakedBalance holdings
  split
  · refine (tokenBalance_rests _ hv).imp ?_
    rintro n u rfl
    rfl
  · exact .done hv rfl

/-- Every wallet but the admin's holds the target under its name. -/
def Full (plan : BootstrapPlan) (config : ProtocolConfig) (target : ℕ) (w : World D) : Prop :=
  ∀ n ∈ plan.walletNames, n ≠ plan.admin → ∀ k, w.key n = some k →
    target ≤ holdings D plan config w.chain n k

lemma fundWallet_rests {authority : Digest} {target : ℕ} {report : List (String × FundingEntry)}
    {name : String} (hagree : Agrees wallets w) (hlookup : (wallets.lookup name).isSome)
    (hfull : name ≠ plan.admin → ∀ k, w.key name = some k →
      target ≤ holdings D plan config w.chain name k) (hv : Still w v) :
    Rests T P w (fundWallet D.toAddressing plan config wallets authority target report name) v
      (fun _ _ => True) := by
  unfold fundWallet
  split
  · exact .done hv trivial
  · rename_i hadmin
    obtain ⟨k,hk⟩ := Option.isSome_iff_exists.mp hlookup
    refine .lift (require_eq_ok.mpr hk) ?_
    refine .bind (tokenBalance_rests _ hv) ?_
    rintro own v hv rfl
    refine .bind (stakedBalance_rests name k hv) ?_
    intro staked v hv hsum
    dsimp only
    rw [hsum,if_pos (hfull hadmin k (hagree name k hk))]
    exact .done hv trivial

lemma fundIfAsked_rests [CharData] {authority : Option Digest} (hagree : Agrees wallets w)
    (hlookup : ∀ n ∈ plan.walletNames, (wallets.lookup n).isSome)
    (hauth : plan.fundKai.isSome → authority.isSome)
    (hfull : ∀ fundKai, plan.fundKai = some fundKai → ∃ target,
      parseBaseUnits fundKai config.paymentDecimals = .ok target ∧ Full plan config target w)
    (hv : Still w v) :
    Rests T P w (fundIfAsked D.toAddressing plan config wallets authority) v (fun _ _ => True) := by
  unfold fundIfAsked
  split
  · exact .done hv trivial
  · rename_i fundKai hsome
    obtain ⟨target,htarget,hall⟩ := hfull fundKai hsome
    obtain ⟨key,hkey⟩ := Option.isSome_iff_exists.mp (hauth (Option.isSome_of_eq_some hsome))
    refine Rests.bind (R := fun _ _ => True) ?_ (fun _ u hu _ => .done hu trivial)
    refine .lift (require_eq_ok.mpr hkey) (.lift htarget ?_)
    refine .foldlM plan.walletNames (fun name hname report v hv => ?_) [] v hv
    exact fundWallet_rests hagree (hlookup name hname) (hall name hname) hv

lemma ensureWorker_rests [CharData] {report : List (String × WorkerEntry)} {spec : WorkerSpec}
    (hagree : Agrees wallets w) (hlookup : (wallets.lookup spec.wallet).isSome)
    (h : Employed config w spec) (hv : Still w v) :
    Rests T P w (ensureWorker D.toAddressing config wallets report spec) v (fun _ _ => True) := by
  obtain ⟨k,registration,target,hkey,hworker,hreg,htarget,hle⟩ := h
  have hk : wallets.lookup spec.wallet = some k := by
    obtain ⟨j,hj⟩ := Option.isSome_iff_exists.mp hlookup
    rw [hj,← hkey,hagree _ _ hj]
  refine .lift (require_eq_ok.mpr hk) ?_
  refine Rests.bind (R := fun _ _ => True) ?_ ?_
  · refine .read hv (fun _ h => h) ?_
    rintro account v ⟨rfl,rfl⟩
    rw [hv.chain,hworker]
    refine .lift (checkRegistration_eq_ok.mpr hreg) (.done hv trivial)
  · intro registered v hv _
    refine .lift htarget ?_
    refine .bind (tokenBalance_rests _ hv) ?_
    rintro current v hv rfl
    rw [if_neg (not_lt.mpr hle)]
    exact .done hv trivial

lemma ensureWorkers_rests [CharData] (hagree : Agrees wallets w)
    (hlookup : ∀ spec ∈ plan.workers, (wallets.lookup spec.wallet).isSome)
    (h : ∀ spec ∈ plan.workers, Employed config w spec) (hv : Still w v) :
    Rests T P w (ensureWorkers D.toAddressing plan config wallets) v (fun _ _ => True) :=
  .foldlM plan.workers
    (fun spec hspec _ _ hu => ensureWorker_rests hagree (hlookup spec hspec) (h spec hspec) hu) [] v hv

end Accounts

section Names
variable {plan : BootstrapPlan} {n : String}

lemma mem_unique (names : List String) : ∀ unique : List String,
    n ∈ names.foldl (fun unique name => if name ∈ unique then unique else unique ++ [name]) unique ↔
      n ∈ unique ∨ n ∈ names := by
  induction names with
  | nil => simp
  | cons name names ih =>
    intro unique
    rw [List.foldl_cons,ih,List.mem_cons]
    split
    · rename_i hmem
      constructor
      · rintro (h | h)
        · exact .inl h
        · exact .inr (.inr h)
      · rintro (h | rfl | h)
        · exact .inl h
        · exact .inl hmem
        · exact .inr h
    · rw [List.mem_append,List.mem_singleton]
      tauto

lemma mem_walletNames : n ∈ plan.walletNames ↔
    n = plan.admin ∨ n = plan.customer ∨ n ∈ plan.workers.map WorkerSpec.wallet := by
  rw [BootstrapPlan.walletNames,mem_unique]
  simp

end Names

end Kswarm.Swarm
