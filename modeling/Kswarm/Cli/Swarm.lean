import Kswarm.Cli.Aggregate
import Kswarm.Lib.Base58
import Kswarm.Lib.Numeral
import Kswarm.Lib.Process

/-! `swarm bootstrap` (`swarm.py`): the plan, the calls it makes, and its steps in order. -/
namespace Kswarm.Cli.Swarm

structure WorkerSpec where
  wallet : String
  role : String
  capability : String
  softwareDigest : String
  stake : Option String
  deriving DecidableEq

/-- The target per wallet is `int(airdrop_sol * LAMPORTS_PER_SOL)`. -/
structure BootstrapPlan where
  admin : String
  customer : String
  workers : List WorkerSpec
  createWallets : Bool
  targetLamports : ℕ
  createMint : Bool
  paymentMint : Option String
  fundKai : Option String
  tierFloors : String × String × String
  verifierFloor : String
  minChallengeWindowSeconds : ℤ
  deriving DecidableEq

/-- The names of the plan, each at its first place. -/
def BootstrapPlan.walletNames (plan : BootstrapPlan) : List String :=
  (plan.admin :: plan.customer :: plan.workers.map WorkerSpec.wallet).foldl
    (fun unique name => if name ∈ unique then unique else unique ++ [name]) []

/-- The keys of a cluster profile that the bootstrap reads or writes. -/
structure Profile where
  paymentMint : Option String
  paymentDecimals : Option ℕ
  tokenProgram : Option String
  adminWallet : Option String
  mintAuthorityWallet : Option String
  deriving DecidableEq

/-- `dict.update`: what the payload holds replaces what was there. -/
def Profile.update (profile payload : Profile) : Profile where
  paymentMint := payload.paymentMint <|> profile.paymentMint
  paymentDecimals := payload.paymentDecimals <|> profile.paymentDecimals
  tokenProgram := payload.tokenProgram <|> profile.tokenProgram
  adminWallet := payload.adminWallet <|> profile.adminWallet
  mintAuthorityWallet := payload.mintAuthorityWallet <|> profile.mintAuthorityWallet

structure ProtocolConfig where
  admin : Digest
  paymentMint : Digest
  tokenProgram : Digest
  paymentDecimals : ℕ
  tierOneStakeFloor : ℕ
  tierTwoStakeFloor : ℕ
  tierThreeStakeFloor : ℕ
  verifierStakeFloor : ℕ
  minChallengeWindowSeconds : ℕ
  deriving DecidableEq

/-- What a worker account says about its registration. -/
structure Registration where
  role : ℕ
  capabilityClassHash : Bytes
  softwareDigest : Bytes
  deriving DecidableEq

structure MintInfo where
  tokenProgram : Digest
  decimals : ℕ
  deriving DecidableEq

structure InitializeProtocolArgs where
  tierOneStakeFloor : ℕ
  tierTwoStakeFloor : ℕ
  tierThreeStakeFloor : ℕ
  verifierStakeFloor : ℕ
  minChallengeWindowSeconds : ℕ
  deriving DecidableEq

/-- The derived addresses: a worker's account, and an owner's account on a mint. -/
structure Addressing where
  workerPda : Digest → Digest
  ata : (mint tokenProgram owner : Digest) → Digest

/-- The owner whose token account is created before the minting, if it is missing. -/
inductive Transaction where
  | createMint (payer mint authority : Digest) (decimals : ℕ) (tokenProgram : Digest)
  | initializeProtocol (admin mint tokenProgram : Digest) (args : InitializeProtocolArgs)
  | mintTo (authority mint tokenProgram : Digest) (createAta : Option Digest)
      (destination : Digest) (amount decimals : ℕ)
  | registerWorker (authority mint tokenProgram : Digest) (registration : Registration)
  | depositWorkerStake (authority mint tokenProgram : Digest) (amount : ℕ)
  deriving DecidableEq

/-- What the bootstrap raises: its own refusals, those of the readers it calls, and the failure of
a call to the cluster or to a file. -/
inductive Failure where
  | wrongCluster (cluster : String)
  | walletMissing (name : String)
  | airdropDidNotLand (wallet : Digest)
  | otherMint (initialized mint : Digest)
  | mintMissing (mint : Digest)
  | noPaymentMint
  | configStillMissing
  | noLocalMintAuthority
  | unknownRole (wallet role : String)
  | unknownCapability (wallet value : String)
  | unknownSoftwareDigest (wallet value : String)
  | registeredOtherwise (wallet : String) (mismatches : List String)
  | invalidWalletName (name : String)
  | badKey (text : String)
  | notAMint (mint : Digest)
  | unsupportedTokenProgram (tokenProgram : Digest)
  | notANumber (text : String)
  | amountNegative
  | amountNotPositive
  | floorsNotIncreasing
  | verifierFloorZero
  | floorTooLarge
  | challengeWindowOutOfRange
  | structError
  | keyError (name : String)
  | call (error : String)
  deriving DecidableEq

inductive Op where
  | walletExists (name : String)
  | loadWallet (name : String)
  | createWallet (name : String)
  | balance (wallet : Digest)
  | requestAirdrop (wallet : Digest) (lamports : ℕ)
  | clock
  | sleep (seconds : ℚ)
  | fetchConfig
  | fetchWorker (worker : Digest)
  | accountExists (account : Digest)
  | mintInfo (mint : Digest)
  | newKeypair
  | rentExemption (size : ℕ)
  | tokenBalance (account : Digest)
  | send (transaction : Transaction)
  | saveCluster (payload : Profile)

/-- What a call returns. An account that is not there is `none`. -/
abbrev Result : Op → Type
  | .walletExists _ => Bool
  | .loadWallet _ => Digest
  | .createWallet _ => Digest
  | .balance _ => ℕ
  | .requestAirdrop _ _ => Unit
  | .clock => ℚ
  | .sleep _ => Unit
  | .fetchConfig => Option ProtocolConfig
  | .fetchWorker _ => Option Registration
  | .accountExists _ => Bool
  | .mintInfo _ => Option MintInfo
  | .newKeypair => Digest
  | .rentExemption _ => ℕ
  | .tokenBalance _ => Option ℕ
  | .send _ => String
  | .saveCluster _ => Unit

/-- A call that raises answers with its error. -/
abbrev Ans (o : Op) : Type := Except String (Result o)

abbrev Run (α : Type) : Type := Process Op Ans Failure α

/-- A call whose error goes up. -/
def call (o : Op) : Run (Result o) :=
  Process.query o >>= fun answer => .lift (answer.mapError .call)

namespace Ask

abbrev walletExists (name : String) : Run Bool := call (.walletExists name)
abbrev loadWallet (name : String) : Run Digest := call (.loadWallet name)
abbrev createWallet (name : String) : Run Digest := call (.createWallet name)
abbrev balance (wallet : Digest) : Run ℕ := call (.balance wallet)
abbrev requestAirdrop (wallet : Digest) (lamports : ℕ) : Run Unit :=
  call (.requestAirdrop wallet lamports)
abbrev clock : Run ℚ := call .clock
abbrev sleep (seconds : ℚ) : Run Unit := call (.sleep seconds)
abbrev fetchConfig : Run (Option ProtocolConfig) := call .fetchConfig
abbrev fetchWorker (worker : Digest) : Run (Option Registration) := call (.fetchWorker worker)
abbrev accountExists (account : Digest) : Run Bool := call (.accountExists account)
abbrev mintInfo (mint : Digest) : Run (Option MintInfo) := call (.mintInfo mint)
abbrev newKeypair : Run Digest := call .newKeypair
abbrev rentExemption (size : ℕ) : Run ℕ := call (.rentExemption size)
abbrev tokenBalance (account : Digest) : Run (Option ℕ) := call (.tokenBalance account)
abbrev send (transaction : Transaction) : Run String := call (.send transaction)
abbrev saveCluster (payload : Profile) : Run Unit := call (.saveCluster payload)

end Ask

section Amounts
variable [CharData]

/-- A human amount in base units; extra precision is cut off. -/
def parseBaseUnits (value : String) (decimals : ℕ) : Except Failure ℕ := do
  let (negative,coefficient,exponent) ← require (decimalOf value.toList) (.notANumber value)
  let (coefficient,exponent) := roundContext coefficient (exponent + decimals)
  let amount ← require (quantizeDown coefficient exponent) (.notANumber value)
  failIf (negative ∧ 0 < amount) .amountNegative
  pure amount

/-- An amount for a transfer. -/
def parseTokenAmount (value : String) (decimals : ℕ) : Except Failure ℕ := do
  let amount ← parseBaseUnits value decimals
  failIf (amount = 0) .amountNotPositive
  pure amount

def validateStakeFloors (one two three verifier : ℕ) (window : ℤ) :
    Except Failure InitializeProtocolArgs := do
  failIf (¬(0 < one ∧ one < two ∧ two < three)) .floorsNotIncreasing
  failIf (verifier = 0) .verifierFloorZero
  failIf (2^64 ≤ three ∨ 2^64 ≤ verifier) .floorTooLarge
  failIf (¬(0 < window ∧ window < 2^32)) .challengeWindowOutOfRange
  pure ⟨one,two,three,verifier,window.toNat⟩

def stakeFloorsFromHuman (plan : BootstrapPlan) (decimals : ℕ) :
    Except Failure InitializeProtocolArgs := do
  let one ← parseBaseUnits plan.tierFloors.1 decimals
  let two ← parseBaseUnits plan.tierFloors.2.1 decimals
  let three ← parseBaseUnits plan.tierFloors.2.2 decimals
  let verifier ← parseBaseUnits plan.verifierFloor decimals
  validateStakeFloors one two three verifier plan.minChallengeWindowSeconds

def verifierRole : String := "verifier"

/-- `_target_stake`. -/
def targetStake (spec : WorkerSpec) (config : ProtocolConfig) : Except Failure ℕ :=
  match spec.stake with
  | some stake => parseTokenAmount stake config.paymentDecimals
  | none => pure (if spec.role = verifierRole then config.verifierStakeFloor
      else config.tierOneStakeFloor)

end Amounts

section Registrations

def nodeRole : List (String × ℕ) :=
  [("worker-basic",1),("worker-proof",2),("worker-premium",3),("verifier",10),
    ("artifact-peer",20),("watcher",30)]

def hex (text : String) : Bytes := (fromhex text.toList).getD []

def capabilityClass : List (String × Bytes) :=
  [("any",List.replicate 32 0),
    ("deterministic-basic",hex "5c84e3d2f6d0d1eda757a21250a2f5221390a693a5361655c261a4b6a62e2e05"),
    ("worker-proof",hex "d558df10f6ce213db52e6365bae4a60ef162d1b6df61eb3b7888a5d1d81a1736"),
    ("bonsol-reducer",hex "59e2dc55c1cea220d7df10ac5b5145012ad431e415547147da8fa6d98b2c8383"),
    ("branch-aggregator-bonsol",
      hex "15ba06eac12f0de3834c5aec1534377da674445c2f5fa1d0ce698399e9e8d789")]

def knownSoftwareDigest : List (String × Bytes) :=
  [("worker-canonical",hex "182f747cb7689c34ba5132a1ab7c6c735a83a613eaecf36ca346f229424bdd9b")]

/-- 64 characters are hex; up to 32 bytes of text are padded with zeros. -/
def parseHash (value : String) : Option Bytes :=
  let cs := value.toList
  let normalized := if ['0','x'].isPrefixOf cs then cs.drop 2 else cs
  if normalized.length = 64 then fromhex normalized
  else if (utf8 cs).length ≤ 32 then
    some (utf8 cs ++ List.replicate (32 - (utf8 cs).length) 0)
  else none

/-- `_known_or_hash`. -/
def knownOrHash (value : String) (known : List (String × Bytes)) (error : Failure) :
    Except Failure Bytes :=
  match known.lookup value with
  | some bytes => pure bytes
  | none => require (parseHash value) error

def WorkerSpec.roleValue (spec : WorkerSpec) : Except Failure ℕ :=
  require (nodeRole.lookup spec.role) (.unknownRole spec.wallet spec.role)

def WorkerSpec.capabilityHash (spec : WorkerSpec) : Except Failure Bytes :=
  knownOrHash spec.capability capabilityClass (.unknownCapability spec.wallet spec.capability)

def WorkerSpec.softwareDigestHash (spec : WorkerSpec) : Except Failure Bytes :=
  knownOrHash spec.softwareDigest knownSoftwareDigest
    (.unknownSoftwareDigest spec.wallet spec.softwareDigest)

def WorkerSpec.registration (spec : WorkerSpec) : Except Failure Registration := do
  let role ← spec.roleValue
  let capability ← spec.capabilityHash
  let digest ← spec.softwareDigestHash
  pure ⟨role,capability,digest⟩

/-- `_check_registration`. -/
def checkRegistration (spec : WorkerSpec) (account : Registration) : Except Failure Unit := do
  let role ← spec.roleValue
  let capability ← spec.capabilityHash
  let digest ← spec.softwareDigestHash
  let mismatches :=
    (if account.role ≠ role then ["role " ++ toString account.role ++ " != " ++ spec.role]
      else []) ++
    (if account.capabilityClassHash ≠ capability then ["capability hash differs"] else []) ++
    (if account.softwareDigest ≠ digest then ["software digest differs"] else [])
  failIf (mismatches ≠ []) (.registeredOtherwise spec.wallet mismatches)

end Registrations

section Summary

structure WalletEntry where
  pubkey : Digest
  created : Bool
  airdroppedLamports : Option ℕ
  deriving DecidableEq

inductive MintSource where
  | external
  | protocolConfig
  | clusterProfile
  | created (signature : String)
  deriving DecidableEq

inductive ProtocolStatus where
  | alreadyInitialized
  | initialized (signature : String)
  deriving DecidableEq

structure FundingEntry where
  holdings : ℕ
  minted : ℕ
  signature : Option String
  deriving DecidableEq

/-- Without a signature the worker was registered, or staked, already. -/
structure WorkerEntry where
  worker : Digest
  authority : Digest
  registered : Option String
  staked : Option String
  stakeDeposited : ℕ
  stake : ℕ
  deriving DecidableEq

/-- Token amounts are in base units. -/
structure Summary where
  cluster : String
  wallets : List (String × WalletEntry)
  paymentMint : Digest × MintSource
  protocol : ProtocolStatus × ProtocolConfig
  funding : Option (List (String × FundingEntry))
  workers : List (String × WorkerEntry)
  deriving DecidableEq

/-- `report[name] = entry`. -/
def put {α : Type} (report : List (String × α)) (name : String) (entry : α) : List (String × α) :=
  if (report.lookup name).isSome then
    report.map (fun item => if item.1 = name then (name,entry) else item)
  else report ++ [(name,entry)]

end Summary

section Steps

def mintCreationClusters : List String := ["local","devnet"]

def localMintDecimals : ℕ := 6

def mintAccountSize : ℕ := 82

def tokenProgramId : Digest :=
  natKey (base58Value "TokenkegQfeZyiNwAJbNbGKPFXCWuBvf9Ss623VQ5DA".toList)

def token2022ProgramId : Digest :=
  natKey (base58Value "TokenzQdBNbLqP5VEhdkAS6EPFLC1PHnBqCXEpPxuEb".toList)

def validateTokenProgram (tokenProgram : Digest) : Except Failure Unit :=
  failIf (tokenProgram ≠ tokenProgramId ∧ tokenProgram ≠ token2022ProgramId)
    (.unsupportedTokenProgram tokenProgram)

/-- `wallet_path`. -/
def walletPath (name : String) : Except Failure Unit :=
  failIf ('/' ∈ name.toList ∨ name = "" ∨ name = "." ∨ name = "..") (.invalidWalletName name)

def airdropTimeoutSeconds : ℚ := 60
def airdropPollSeconds : ℚ := 1/2

/-- The polls that fit in the timeout. A sleep takes at least its argument, so after them the
deadline has passed. -/
def airdropPolls : ℕ := 120

def awaitLamports (wallet : Digest) (target : ℕ) (deadline : ℚ) : ℕ → Run Unit
  | 0 => do
    let balance ← Ask.balance wallet
    if target ≤ balance then pure () else .raise (.airdropDidNotLand wallet)
  | polls+1 => do
    let balance ← Ask.balance wallet
    if target ≤ balance then pure ()
    else do
      let now ← Ask.clock
      if deadline ≤ now then .raise (.airdropDidNotLand wallet)
      else do
        Ask.sleep airdropPollSeconds
        awaitLamports wallet target deadline polls

/-- Top a wallet up, and wait for the airdrop to land. -/
def ensureLamports (wallet : Digest) (target : ℕ) : Run ℕ := do
  let balance ← Ask.balance wallet
  if target ≤ balance then pure 0
  else do
    let needed := target - balance
    Ask.requestAirdrop wallet needed
    let now ← Ask.clock
    awaitLamports wallet target (now + airdropTimeoutSeconds) airdropPolls
    pure needed

abbrev Wallets := List (String × Digest)

def ensureWallet (plan : BootstrapPlan) (name : String) : Run (Digest × Bool) := do
  Process.lift (walletPath name)
  let found ← Ask.walletExists name
  if found then do
    let wallet ← Ask.loadWallet name
    pure (wallet,false)
  else if plan.createWallets then do
    let wallet ← Ask.createWallet name
    pure (wallet,true)
  else .raise (.walletMissing name)

def airdropTo (plan : BootstrapPlan) (wallet : Digest) : Run (Option ℕ) :=
  if 0 < plan.targetLamports then do
    let lamports ← ensureLamports wallet plan.targetLamports
    pure (some lamports)
  else pure none

def ensureWallets (plan : BootstrapPlan) : List String → Wallets → List (String × WalletEntry) →
    Run (Wallets × List (String × WalletEntry))
  | [],wallets,report => pure (wallets,report)
  | name::names,wallets,report => do
    let (wallet,created) ← ensureWallet plan name
    let airdropped ← airdropTo plan wallet
    ensureWallets plan names (wallets ++ [(name,wallet)])
      (put report name ⟨wallet,created,airdropped⟩)

/-- An absent value and an empty text are both false. -/
def truthy (value : Option String) : Option String := value.filter (· ≠ "")

/-- `_mint_authority_if_local`. -/
def mintAuthorityIfLocal (profile : Profile) (mint : Digest) : Run (Option Digest) :=
  match truthy profile.mintAuthorityWallet with
  | none => pure none
  | some name =>
    if profile.paymentMint ≠ some (keyText mint) then pure none
    else do
      Process.lift (walletPath name)
      let found ← Ask.walletExists name
      if found then do
        let wallet ← Ask.loadWallet name
        pure (some wallet)
      else pure none

/-- `create_mint`. -/
def createMint (payer authority : Digest) (decimals : ℕ) (tokenProgram : Digest) :
    Run (Digest × String) := do
  let mint ← Ask.newKeypair
  let _ ← Ask.rentExemption mintAccountSize
  let signature ← Ask.send (.createMint payer mint authority decimals tokenProgram)
  pure (mint,signature)

/-- An initialized protocol keeps its mint. -/
def sameMint (existing : Option ProtocolConfig) (mint : Digest) : Except Failure Unit :=
  match existing with
  | some config => failIf (config.paymentMint ≠ mint) (.otherMint config.paymentMint mint)
  | none => pure ()

/-- The mint, how it was found, and its authority if that is a local wallet. -/
abbrev Payment := Digest × MintSource × Option Digest

/-- The mint of the profile, if it is still on chain. -/
def profileMint (profile : Profile) : Run (Option Digest) :=
  match truthy profile.paymentMint with
  | none => pure none
  | some text => do
    let mint ← Process.lift (require (readKey text) (.badKey text))
    let found ← Ask.accountExists mint
    pure (if found then some mint else none)

def ensurePaymentMint (profile : Profile) (plan : BootstrapPlan) (admin : Digest) : Run Payment := do
  let existing ← Ask.fetchConfig
  match truthy plan.paymentMint with
  | some text => do
    let mint ← Process.lift (require (readKey text) (.badKey text))
    Process.lift (sameMint existing mint)
    let found ← Ask.accountExists mint
    if found then do
      let authority ← mintAuthorityIfLocal profile mint
      pure (mint,.external,authority)
    else .raise (.mintMissing mint)
  | none =>
    match existing with
    | some config => do
      let authority ← mintAuthorityIfLocal profile config.paymentMint
      pure (config.paymentMint,.protocolConfig,authority)
    | none => do
      let known ← profileMint profile
      match known with
      | some mint => do
        let authority ← mintAuthorityIfLocal profile mint
        pure (mint,.clusterProfile,authority)
      | none =>
        if plan.createMint then do
          let (mint,signature) ← createMint admin admin localMintDecimals tokenProgramId
          Ask.saveCluster ⟨some (keyText mint),some localMintDecimals,some (keyText tokenProgramId),
            none,some plan.admin⟩
          pure (mint,.created signature,some admin)
        else .raise .noPaymentMint

def ensureProtocol [CharData] (plan : BootstrapPlan) (admin mint : Digest) :
    Run (ProtocolStatus × ProtocolConfig) := do
  let account ← Ask.mintInfo mint
  let info ← Process.lift (require account (.notAMint mint))
  let profile : Profile :=
    ⟨some (keyText mint),some info.decimals,some (keyText info.tokenProgram),none,none⟩
  let existing ← Ask.fetchConfig
  Process.lift (sameMint existing mint)
  match existing with
  | some config => do
    Ask.saveCluster profile
    pure (.alreadyInitialized,config)
  | none => do
    let floors ← Process.lift (stakeFloorsFromHuman plan info.decimals)
    Process.lift (validateTokenProgram info.tokenProgram)
    let signature ← Ask.send (.initializeProtocol admin mint info.tokenProgram floors)
    Ask.saveCluster {profile with adminWallet := some plan.admin}
    let config ← Ask.fetchConfig
    match config with
    | some config => pure (.initialized signature,config)
    | none => .raise .configStillMissing

/-- `_token_balance`. -/
def tokenBalance (account : Digest) : Run ℕ := do
  let balance ← Ask.tokenBalance account
  pure (balance.getD 0)

variable (A : Addressing)

/-- An owner's account on the payment mint. -/
def Addressing.of (config : ProtocolConfig) (owner : Digest) : Digest :=
  A.ata config.paymentMint config.tokenProgram owner

/-- A worker's stake vault. -/
def Addressing.vault (config : ProtocolConfig) (authority : Digest) : Digest :=
  A.of config (A.workerPda authority)

/-- What counts beside the wallet's own account: the vault of a wallet that a worker names. -/
def stakedBalance (plan : BootstrapPlan) (config : ProtocolConfig) (name : String)
    (wallet : Digest) : Run ℕ :=
  if name ∈ plan.workers.map WorkerSpec.wallet then tokenBalance (A.vault config wallet) else pure 0

/-- One turn of `_fund_wallets`. -/
def fundWallet (plan : BootstrapPlan) (config : ProtocolConfig) (wallets : Wallets)
    (mintAuthority : Digest) (target : ℕ) (report : List (String × FundingEntry)) (name : String) :
    Run (List (String × FundingEntry)) :=
  if name = plan.admin then pure report
  else do
    let wallet ← Process.lift (require (wallets.lookup name) (.keyError name))
    let own ← tokenBalance (A.of config wallet)
    let staked ← stakedBalance A plan config name wallet
    let current := own + staked
    if target ≤ current then pure (put report name ⟨current,0,none⟩)
    else do
      let amount := target - current
      let ata := A.of config wallet
      let found ← Ask.accountExists ata
      Process.lift (failIf (2^64 ≤ amount) .structError)
      let signature ← Ask.send (.mintTo mintAuthority config.paymentMint config.tokenProgram
        (if found then none else some wallet) ata amount config.paymentDecimals)
      pure (put report name ⟨target,amount,some signature⟩)

def fundWallets [CharData] (plan : BootstrapPlan) (config : ProtocolConfig) (wallets : Wallets)
    (mintAuthority : Option Digest) (fundKai : String) : Run (List (String × FundingEntry)) := do
  let authority ← Process.lift (require mintAuthority .noLocalMintAuthority)
  let target ← Process.lift (parseBaseUnits fundKai config.paymentDecimals)
  plan.walletNames.foldlM (fundWallet A plan config wallets authority target) []

def fundIfAsked [CharData] (plan : BootstrapPlan) (config : ProtocolConfig) (wallets : Wallets)
    (mintAuthority : Option Digest) : Run (Option (List (String × FundingEntry))) :=
  match plan.fundKai with
  | none => pure none
  | some fundKai => do
    let funding ← fundWallets A plan config wallets mintAuthority fundKai
    pure (some funding)

/-- Registration in `_ensure_workers`. -/
def ensureRegistered (config : ProtocolConfig) (spec : WorkerSpec) (wallet : Digest) :
    Run (Option String) := do
  let account ← Ask.fetchWorker (A.workerPda wallet)
  match account with
  | none => do
    let registration ← Process.lift spec.registration
    let signature ← Ask.send (.registerWorker wallet config.paymentMint config.tokenProgram registration)
    pure (some signature)
  | some account => do
    Process.lift (checkRegistration spec account)
    pure none

/-- One turn of `_ensure_workers`. -/
def ensureWorker [CharData] (config : ProtocolConfig) (wallets : Wallets)
    (report : List (String × WorkerEntry)) (spec : WorkerSpec) : Run (List (String × WorkerEntry)) := do
  let wallet ← Process.lift (require (wallets.lookup spec.wallet) (.keyError spec.wallet))
  let registered ← ensureRegistered A config spec wallet
  let target ← Process.lift (targetStake spec config)
  let current ← tokenBalance (A.vault config wallet)
  if current < target then do
    let amount := target - current
    Process.lift (failIf (2^64 ≤ amount) .structError)
    let signature ← Ask.send (.depositWorkerStake wallet config.paymentMint config.tokenProgram amount)
    pure (put report spec.wallet
      ⟨A.workerPda wallet,wallet,registered,some signature,amount,max current target⟩)
  else pure (put report spec.wallet
    ⟨A.workerPda wallet,wallet,registered,none,0,max current target⟩)

def ensureWorkers [CharData] (plan : BootstrapPlan) (config : ProtocolConfig) (wallets : Wallets) :
    Run (List (String × WorkerEntry)) :=
  plan.workers.foldlM (ensureWorker A config wallets) []

/-- `bootstrap`, with the profile of the cluster as it was loaded. -/
def bootstrap [CharData] (cluster : String) (profile : Profile) (plan : BootstrapPlan) :
    Run Summary := do
  Process.lift (failIf (cluster ∉ mintCreationClusters) (.wrongCluster cluster))
  let (wallets,walletReport) ← ensureWallets plan plan.walletNames [] []
  let admin ← Process.lift (require (wallets.lookup plan.admin) (.keyError plan.admin))
  let (mint,source,mintAuthority) ← ensurePaymentMint profile plan admin
  let (status,config) ← ensureProtocol plan admin mint
  Process.lift (validateTokenProgram config.tokenProgram)
  let funding ← fundIfAsked A plan config wallets mintAuthority
  let workers ← ensureWorkers A plan config wallets
  pure ⟨cluster,walletReport,(mint,source),(status,config),funding,workers⟩

end Steps

end Kswarm.Cli.Swarm
