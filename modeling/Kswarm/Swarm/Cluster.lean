import Kswarm.Cli.Swarm

/-! The cluster a bootstrap works on: its accounts, the wallet files and the profile beside it, and
the programs that move its tokens. The programs and the address derivation are not part of this
repository; what the bootstrap relies on is stated with them. -/
namespace Kswarm.Swarm
open Cli.Swarm

/-- Derived addresses. The token accounts of wallets and of their vaults are all different, since
a wallet's key lies on the curve and a derived address does not. -/
structure Derivation extends Addressing where
  onCurve : Digest → Prop
  wallet_inj : ∀ m t a b, onCurve a → onCurve b → ata m t a = ata m t b → a = b
  vault_inj : ∀ m t a b, onCurve a → onCurve b →
    ata m t (workerPda a) = ata m t (workerPda b) → a = b
  wallet_ne_vault : ∀ m t a b, onCurve a → onCurve b → ata m t a ≠ ata m t (workerPda b)

namespace Derivation
variable (D : Derivation) (config : ProtocolConfig) {a b : Digest}

lemma of_inj (ha : D.onCurve a) (hb : D.onCurve b) (h : D.of config a = D.of config b) : a = b :=
  D.wallet_inj _ _ _ _ ha hb h

lemma vault_inj' (ha : D.onCurve a) (hb : D.onCurve b) (h : D.vault config a = D.vault config b) :
    a = b := D.vault_inj _ _ _ _ ha hb h

lemma of_ne_vault (ha : D.onCurve a) (hb : D.onCurve b) : D.of config a ≠ D.vault config b :=
  D.wallet_ne_vault _ _ _ _ ha hb

end Derivation

structure Chain where
  config : Option ProtocolConfig
  worker : Digest → Option Registration
  token : Digest → Option ℕ
  mint : Digest → Option MintInfo
  present : Digest → Bool

/-- The balance of a token account; a missing one holds nothing. -/
def Chain.held (c : Chain) (account : Digest) : ℕ := (c.token account).getD 0

/-- No account of the old chain is taken back. -/
structure Chain.Extends (c d : Chain) : Prop where
  config : ∀ config, c.config = some config → d.config = some config
  worker : ∀ a r, c.worker a = some r → d.worker a = some r
  mint : ∀ m i, c.mint m = some i → d.mint m = some i
  present : ∀ a, c.present a = true → d.present a = true

namespace Chain.Extends
variable {c d e : Chain}

lemma refl (c : Chain) : c.Extends c := ⟨fun _ h => h,fun _ _ h => h,fun _ _ h => h,fun _ h => h⟩

lemma trans (h : c.Extends d) (h' : d.Extends e) : c.Extends e where
  config x hx := h'.config x (h.config x hx)
  worker a r hr := h'.worker a r (h.worker a r hr)
  mint m i hi := h'.mint m i (h.mint m i hi)
  present a ha := h'.present a (h.present a ha)

end Chain.Extends

/-- The token and protocol programs: the effect of each transaction that lands. -/
structure Program (D : Derivation) where
  executes : Transaction → Chain → Chain → Prop
  extends_ : ∀ t c d, executes t c d → c.Extends d
  creates : ∀ payer mint authority decimals tokenProgram c d,
    executes (.createMint payer mint authority decimals tokenProgram) c d →
    d.held = c.held ∧ d.mint mint = some ⟨tokenProgram,decimals⟩ ∧ d.present mint = true
  initializes : ∀ admin mint tokenProgram args c d,
    executes (.initializeProtocol admin mint tokenProgram args) c d →
    d.held = c.held ∧ ∃ config, d.config = some config ∧ config.paymentMint = mint ∧
      config.tokenProgram = tokenProgram
  registers : ∀ authority mint tokenProgram registration c d,
    executes (.registerWorker authority mint tokenProgram registration) c d →
    d.held = c.held ∧ d.worker (D.workerPda authority) = some registration
  mints : ∀ authority mint tokenProgram createAta destination amount decimals c d,
    executes (.mintTo authority mint tokenProgram createAta destination amount decimals) c d →
    ∀ a, d.held a = if a = destination then c.held a + amount else c.held a
  deposits : ∀ authority mint tokenProgram amount c d,
    executes (.depositWorkerStake authority mint tokenProgram amount) c d →
    amount ≤ c.held (D.ata mint tokenProgram authority) ∧
    ∀ a, d.held a =
      if a = D.ata mint tokenProgram authority then c.held a - amount
      else if a = D.ata mint tokenProgram (D.workerPda authority) then c.held a + amount
      else c.held a

/-- The wallet files, the profile file, the chain, and the transactions handed to it. -/
structure World (D : Derivation) where
  files : String → Option {k : Digest // D.onCurve k}
  profile : Profile
  chain : Chain
  sent : List Transaction

variable {D : Derivation}

def World.key (w : World D) (name : String) : Option Digest := (w.files name).map Subtype.val

lemma key_eq_some {w : World D} {n : String} {k : Digest} :
    w.key n = some k ↔ ∃ h : D.onCurve k, w.files n = some ⟨k,h⟩ := by
  rw [World.key,Option.map_eq_some_iff]
  constructor
  · rintro ⟨⟨j,hj⟩,hfile,rfl⟩
    exact ⟨hj,hfile⟩
  · rintro ⟨h,hfile⟩
    exact ⟨_,hfile,rfl⟩

def World.addWallet (w : World D) (name : String) (k : {k : Digest // D.onCurve k}) : World D :=
  {w with files := Function.update w.files name (some k)}

lemma World.addWallet_self (w : World D) (name : String) (k : {k : Digest // D.onCurve k}) :
    (w.addWallet name k).files name = some k := Function.update_self ..

lemma World.addWallet_of_ne (w : World D) {name n : String} (k : {k : Digest // D.onCurve k})
    (h : n ≠ name) : (w.addWallet name k).files n = w.files n := Function.update_of_ne h ..

def World.save (w : World D) (payload : Profile) : World D :=
  {w with profile := w.profile.update payload}

/-- The world after a transaction took the chain to `c`. -/
def World.land (w : World D) (t : Transaction) (c : Chain) : World D :=
  {w with chain := c, sent := w.sent ++ [t]}

/-- A call that returns. A created wallet has a new key. Balances of lamports are not followed: any
answer is possible. -/
def effect (P : Program D) : (o : Op) → World D → Result o → World D → Prop
  | .walletExists name,w,found,v => found = (w.files name).isSome ∧ v = w
  | .loadWallet name,w,wallet,v => w.key name = some wallet ∧ v = w
  | .createWallet name,w,wallet,v => 
      ∃ k, (∀ n, w.files n ≠ some k) ∧ wallet = k.val ∧ v = w.addWallet name k
  | .fetchConfig,w,config,v => config = w.chain.config ∧ v = w
  | .fetchWorker worker,w,account,v => account = w.chain.worker worker ∧ v = w
  | .accountExists account,w,found,v => found = w.chain.present account ∧ v = w
  | .mintInfo mint,w,info,v => info = w.chain.mint mint ∧ v = w
  | .tokenBalance account,w,balance,v => balance = w.chain.token account ∧ v = w
  | .saveCluster payload,w,_,v => v = w.save payload
  | .send t,w,_,v => ∃ c, P.executes t w.chain c ∧ v = w.land t c
  | _,w,_,v => v = w

/-- A call that raises. The profile may have been cut off, a wallet written, and a transaction may
have landed before the error came back. -/
def spoils (P : Program D) : Op → World D → World D → Prop
  | .createWallet name,w,v => v = w ∨ ∃ k, v = w.addWallet name k
  | .saveCluster _,w,v => ∃ profile, v = {w with profile := profile}
  | .send t,w,v => v = {w with sent := w.sent ++ [t]} ∨ ∃ c, P.executes t w.chain c ∧ v = w.land t c
  | _,w,v => v = w

/-- The cluster with no other actor. -/
def cluster (P : Program D) : Service Op Ans (World D) where
  serves o w answer v :=
    match answer with
    | .ok a => effect P o w a v
    | .error _ => spoils P o w v
  drifts := Eq
  drifts_refl _ := rfl
  drifts_trans _ _ _ := Eq.trans

lemma cluster_still (P : Program D) : (cluster P).Still := fun _ _ h => h

section Reference

/-- The ledger of the token accounts after a transfer between two of them. -/
def Chain.transfer (c : Chain) (source destination : Digest) (amount : ℕ) : Chain :=
  {c with token := fun a =>
    if a = source then some (c.held a - amount)
    else if a = destination then some (c.held a + amount)
    else c.token a}

/-- One way the programs can work: each account is created once, and transfers are covered. -/
def step (D : Derivation) : Transaction → Chain → Option Chain
  | .createMint _ mint _ decimals tokenProgram,c =>
    if (c.mint mint).isSome then none
    else some {c with
      mint := Function.update c.mint mint (some ⟨tokenProgram,decimals⟩)
      present := Function.update c.present mint true}
  | .initializeProtocol admin mint tokenProgram args,c =>
    match c.config,c.mint mint with
    | none,some info => some {c with config := some ⟨admin,mint,tokenProgram,info.decimals,
        args.tierOneStakeFloor,args.tierTwoStakeFloor,args.tierThreeStakeFloor,
        args.verifierStakeFloor,args.minChallengeWindowSeconds⟩}
    | _,_ => none
  | .registerWorker authority _ _ registration,c =>
    if (c.worker (D.workerPda authority)).isSome then none
    else some {c with
      worker := Function.update c.worker (D.workerPda authority) (some registration)}
  | .mintTo _ _ _ _ destination amount _,c => some {c with
      token := fun a => if a = destination then some (c.held a + amount) else c.token a
      present := Function.update c.present destination true}
  | .depositWorkerStake authority mint tokenProgram amount,c =>
    if amount ≤ c.held (D.ata mint tokenProgram authority) then
      some (c.transfer (D.ata mint tokenProgram authority)
        (D.ata mint tokenProgram (D.workerPda authority)) amount)
    else none

lemma extends_update {β : Type} {f : Digest → Option β} {k : Digest} {b : β}
    (hfree : ¬(f k).isSome = true) : ∀ a x, f a = some x → Function.update f k (some b) a = some x := by
  intro a x hx
  have hne : a ≠ k := by
    rintro rfl
    exact hfree (Option.isSome_of_eq_some hx)
  rw [Function.update_of_ne hne,hx]

lemma present_update {f : Digest → Bool} {k : Digest} :
    ∀ a, f a = true → Function.update f k true a = true := by
  intro a ha
  by_cases h : a = k
  · rw [h,Function.update_self]
  · rw [Function.update_of_ne h,ha]

/-- No step takes an account back. -/
lemma step_extends (D : Derivation) (t : Transaction) (c d : Chain) (h : step D t c = some d) :
    c.Extends d := by
  cases t with
  | createMint payer mint authority decimals tokenProgram =>
    simp only [step] at h
    split at h
    · cases h
    · rename_i hfree
      obtain rfl := Option.some.inj h
      exact ⟨fun _ h => h,fun _ _ h => h,extends_update hfree,present_update⟩
  | initializeProtocol admin mint tokenProgram args =>
    simp only [step] at h
    split at h
    · rename_i hnone _
      obtain rfl := Option.some.inj h
      refine ⟨fun x hx => ?_,fun _ _ h => h,fun _ _ h => h,fun _ h => h⟩
      rw [hnone] at hx
      cases hx
    · cases h
  | registerWorker authority mint tokenProgram registration =>
    simp only [step] at h
    split at h
    · cases h
    · rename_i hfree
      obtain rfl := Option.some.inj h
      exact ⟨fun _ h => h,extends_update hfree,fun _ _ h => h,fun _ h => h⟩
  | mintTo authority mint tokenProgram createAta destination amount decimals =>
    obtain rfl := Option.some.inj h
    exact ⟨fun _ h => h,fun _ _ h => h,fun _ _ h => h,present_update⟩
  | depositWorkerStake authority mint tokenProgram amount =>
    simp only [step] at h
    split at h
    · obtain rfl := Option.some.inj h
      exact ⟨fun _ h => h,fun _ _ h => h,fun _ _ h => h,fun _ h => h⟩
    · cases h

section Steps
variable {authority mint tokenProgram : Digest} {c d : Chain}

lemma step_createMint {payer : Digest} {decimals : ℕ}
    (h : step D (.createMint payer mint authority decimals tokenProgram) c = some d) :
    d.held = c.held ∧ d.mint mint = some ⟨tokenProgram,decimals⟩ ∧ d.present mint = true := by
  simp only [step] at h
  split at h
  · cases h
  · obtain rfl := Option.some.inj h
    exact ⟨rfl,Function.update_self ..,Function.update_self ..⟩

lemma step_initializeProtocol {args : InitializeProtocolArgs}
    (h : step D (.initializeProtocol authority mint tokenProgram args) c = some d) :
    d.held = c.held ∧ ∃ config, d.config = some config ∧ config.paymentMint = mint ∧
      config.tokenProgram = tokenProgram := by
  simp only [step] at h
  split at h
  · obtain rfl := Option.some.inj h
    exact ⟨rfl,_,rfl,rfl,rfl⟩
  · cases h

lemma step_registerWorker {registration : Registration}
    (h : step D (.registerWorker authority mint tokenProgram registration) c = some d) :
    d.held = c.held ∧ d.worker (D.workerPda authority) = some registration := by
  simp only [step] at h
  split at h
  · cases h
  · obtain rfl := Option.some.inj h
    exact ⟨rfl,Function.update_self ..⟩

lemma step_mintTo {createAta : Option Digest} {destination : Digest} {amount decimals : ℕ}
    (h : step D (.mintTo authority mint tokenProgram createAta destination amount decimals) c =
      some d) (a : Digest) :
    d.held a = if a = destination then c.held a + amount else c.held a := by
  obtain rfl := Option.some.inj h
  change (if a = destination then _ else _ : Option ℕ).getD 0 = _
  split
  · rfl
  · rfl

lemma step_depositWorkerStake {amount : ℕ}
    (h : step D (.depositWorkerStake authority mint tokenProgram amount) c = some d) :
    amount ≤ c.held (D.ata mint tokenProgram authority) ∧ ∀ a, d.held a =
      if a = D.ata mint tokenProgram authority then c.held a - amount
      else if a = D.ata mint tokenProgram (D.workerPda authority) then c.held a + amount
      else c.held a := by
  simp only [step] at h
  split at h
  · rename_i henough
    obtain rfl := Option.some.inj h
    refine ⟨henough,fun a => ?_⟩
    change (if a = _ then _ else if a = _ then _ else _ : Option ℕ).getD 0 = _
    split
    · rfl
    · split
      · rfl
      · rfl
  · cases h

end Steps

/-- The steps obey the laws of the programs. -/
def reference (D : Derivation) : Program D where
  executes t c d := step D t c = some d
  extends_ := step_extends D
  creates _ _ _ _ _ _ _ := step_createMint
  initializes _ _ _ _ _ _ := step_initializeProtocol
  registers _ _ _ _ _ _ := step_registerWorker
  mints _ _ _ _ _ _ _ _ _ := step_mintTo
  deposits _ _ _ _ _ _ := step_depositWorkerStake

/-- One way the outside can answer: every wallet is rich in lamports and no wallet is created. -/
def answering (D : Derivation) : (o : Op) → World D → Ans o × World D
  | .walletExists name,w => (.ok (w.files name).isSome,w)
  | .loadWallet name,w => match w.key name with
    | some k => (.ok k,w)
    | none => (.error "wallet does not exist",w)
  | .createWallet _,w => (.error "read-only file system",w)
  | .balance _,w => (.ok (10^18),w)
  | .requestAirdrop _ _,w => (.ok (),w)
  | .clock,w => (.ok 0,w)
  | .sleep _,w => (.ok (),w)
  | .fetchConfig,w => (.ok w.chain.config,w)
  | .fetchWorker worker,w => (.ok (w.chain.worker worker),w)
  | .accountExists account,w => (.ok (w.chain.present account),w)
  | .mintInfo mint,w => (.ok (w.chain.mint mint),w)
  | .newKeypair,w => (.ok (natKey 0),w)
  | .rentExemption _,w => (.ok 0,w)
  | .tokenBalance account,w => (.ok (w.chain.token account),w)
  | .send t,w => match step D t w.chain with
    | some c => (.ok "signature",w.land t c)
    | none => (.error "transaction failed",{w with sent := w.sent ++ [t]})
  | .saveCluster payload,w => (.ok (),w.save payload)

lemma cluster_answering (o : Op) (w : World D) :
    (cluster (reference D)).serves o w (answering D o w).1 (answering D o w).2 := by
  cases o with
  | loadWallet name =>
    cases h : w.key name with
    | some k =>
      simp only [answering,h]
      exact ⟨h,rfl⟩
    | none =>
      simp only [answering,h]
      rfl
  | createWallet name => exact .inl rfl
  | send t =>
    cases h : step D t w.chain with
    | some c =>
      simp only [answering,h]
      exact ⟨c,h,rfl⟩
    | none =>
      simp only [answering,h]
      exact .inl rfl
  | walletExists name => exact ⟨rfl,rfl⟩
  | fetchConfig => exact ⟨rfl,rfl⟩
  | fetchWorker worker => exact ⟨rfl,rfl⟩
  | accountExists account => exact ⟨rfl,rfl⟩
  | mintInfo mint => exact ⟨rfl,rfl⟩
  | tokenBalance account => exact ⟨rfl,rfl⟩
  | _ => rfl

end Reference

section Calls
variable {P : Program D} {β : Type} {w : World D}

lemma safe_call {inv : World D → Prop} {may : Op → World D → Prop}
    {post : Except Failure β → World D → Prop} {o : Op} {f : Result o → Run β} (hinv : inv w)
    (hmay : may o w) (hok : ∀ a v, effect P o w a v → Safe (cluster P) inv may post (f a) v)
    (herror : ∀ e v, spoils P o w v → inv v ∧ post (.error (.call e)) v) :
    Safe (cluster P) inv may post (call o >>= f) w := by
  apply Safe.stillQuery (cluster_still P) hinv hmay
  intro answer v hs
  cases answer with
  | ok a => exact hok a v hs
  | error e =>
    obtain ⟨hv,hpost⟩ := herror e v hs
    exact Safe.stillRaise (cluster_still P) hv hpost

lemma yields_call {o : Op} {f : Result o → Run β} {Q : β → World D → Prop}
    (h : ∀ a v, effect P o w a v → Yields (cluster P) (f a) v Q) :
    Yields (cluster P) (call o >>= f) w Q :=
  safe_call trivial trivial h (fun _ _ _ => ⟨trivial,fun _ hb => nomatch hb⟩)

end Calls
end Kswarm.Swarm
