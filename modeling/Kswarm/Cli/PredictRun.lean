import Kswarm.Cli.Rpc

/-! The commands that drive a run (`predict open`, `resume`, `bind-aggregate` and `cancel` of
`main.py`): one transaction at a time, the manifest rewritten after each confirmed one. -/
namespace Kswarm.Cli
open Worker

inductive CommandError where
  | rpc (error : RpcError)
  | file (text : String)
  | ipfs (text : String)
  | plan (error : OpenError)
  | manifestExists
  | unknownRun
  | unknownWallet (name : String)
  | nonceCollision (jobs : List Digest)
  | notDerived (job : Digest) (nonce : ℕ)
  | malformed
  | notResumable (reason : ResumeRefusal)
  | wrongCluster (cluster : String)
  | wrongWallet (customer : Digest)
  | otherCustomer (job customer : Digest)
  | noAggregate
  | nothingToBind (status : EntryStatus)
  | bind (error : BindError)

abbrev Command (α : Type) := Process Op Ans CommandError α

/-- The cluster, the wallets of the machine and the addresses of the protocol. -/
structure Session where
  cluster : String
  wallets : String → Option Digest
  jobPda : Digest → ℕ → Digest

def rpcCall {α : Type} (answer : Except RpcError α) : Command α := .lift (answer.mapError .rpc)

/-- `save_run_manifest`. -/
def saveRunManifest (run : RunManifest) : Command Unit := do
  let answer ← Ask.save run
  .lift (answer.mapError .file)

/-- `_load_predict_run`. -/
def loadPredictRun : Command RunManifest := do
  let file ← Ask.load
  .lift (require file .unknownRun)

/-- `load_wallet`. -/
def loadWallet (s : Session) (name : String) : Command Digest :=
  .lift (require (s.wallets name) (.unknownWallet name))

section Absence

def multipleAccountsChunk : ℕ := 100

/-- The chunks `getMultipleAccounts` is called with. -/
def accountChunks (jobs : List Digest) : List (List Digest) :=
  (List.range ((jobs.length+multipleAccountsChunk-1)/multipleAccountsChunk)).map
    (fun i => (jobs.drop (multipleAccountsChunk*i)).take multipleAccountsChunk)

/-- `get_multiple_account_infos`, chunk by chunk. -/
def getMultipleAccountInfos : List (List Digest) → Command (List Bool)
  | [] => pure []
  | chunk::chunks => do
    let answer ← Ask.accountInfos chunk
    let values ← rpcCall answer
    if values.length ≠ chunk.length then
      .raise (.rpc ⟨"MalformedResponse","getMultipleAccounts returned another number of accounts"⟩)
    else do
      let out ← getMultipleAccountInfos chunks
      pure (values ++ out)

/-- The jobs whose account exists. -/
def existingJobs (jobs : List Digest) (infos : List Bool) : List Digest :=
  ((jobs.zip infos).filter Prod.snd).map Prod.fst

/-- `_assert_jobs_absent`: no planned job may exist before escrow is spent. -/
def assertJobsAbsent (jobs : List Digest) : Command Unit := do
  let infos ← getMultipleAccountInfos (accountChunks jobs)
  if existingJobs jobs infos ≠ [] then .raise (.nonceCollision (existingJobs jobs infos))
  else pure ()

end Absence

section Walk

/-- Replaces the entry a walk is at in the manifest. -/
abbrev Put := JobEntry → RunManifest

/-- The turns of a loop over the branches; an entry that is replaced stays where it was. -/
def walkBranches (turn : Put → JobEntry → Command JobEntry) (run : RunManifest)
    (before : List JobEntry) : List JobEntry → Command RunManifest
  | [] => pure {run with branchJobs := before}
  | entry::rest => do
    let entry' ← turn (fun e => {run with branchJobs := before ++ e::rest}) entry
    walkBranches turn run (before ++ [entry']) rest

/-- A loop over `run_job_entries`. -/
def walkEntries (turn : Put → JobEntry → Command JobEntry) (run : RunManifest) :
    Command RunManifest := do
  let run' ← walkBranches turn run [] run.branchJobs
  match run'.aggregate with
  | none => pure run'
  | some entry => do
    let entry' ← turn (fun e => {run' with aggregate := some e}) entry
    pure {run' with aggregate := some entry'}

end Walk

section Driving

/-- The arguments of `open_job` for a planned entry; an unbound aggregate has none. -/
def openArgs (params : OpenParameters) (entry : JobEntry) : Option OpenJobArgs := do
  let inputBundleHash ← entry.inputBundleHash
  let expectedResultHash ← entry.expectedResultHash
  pure {
    inputBundleHash,expectedResultHash
    nonce := entry.nonce
    rewardAmount := entry.rewardAmount
    requiredStake := entry.requiredStake
    jobClass := entry.jobClass
    requiredRole := params.requiredRole
    requiredTier := params.requiredTier
    requiredCapability := entry.requiredCapability
    requiredSoftwareDigest := entry.requiredSoftwareDigest
    claimWindow := params.claimWindow
    executionWindow := params.executionWindow
    challengeWindow := params.challengeWindow
    challengeBond := entry.challengeBond }

/-- `sign_and_send`, then the save that records the confirmed step. -/
def sendAndSave (put : Put) (record : String → JobEntry) (transaction : Transaction) :
    Command JobEntry := do
  let answer ← Ask.send transaction
  let signature ← rpcCall answer
  saveRunManifest (put (record signature))
  pure (record signature)

def recordOpened (entry : JobEntry) (signature : String) : JobEntry :=
  {entry with status := some .jobOpened, openSignature := some signature}

def recordCommitted (entry : JobEntry) (signature : String) : JobEntry :=
  {entry with status := some .jobCommitted, commitSignature := some signature}

/-- `_open_planned_job`. -/
def openPlannedJob (s : Session) (signer : Digest) (put : Put) (entry : JobEntry) :
    Command JobEntry := do
  if s.jobPda signer entry.nonce ≠ entry.job then .raise (.notDerived entry.job entry.nonce)
  else do
    let args ← .lift (require (openArgs (put entry).openParameters entry) .malformed)
    sendAndSave put (recordOpened entry) (.openJob signer args)

/-- `commit_input_artifact`. -/
def commitOpenedJob (signer : Digest) (put : Put) (entry : JobEntry) : Command JobEntry := do
  let inputCid ← .lift (require entry.inputCid .malformed)
  sendAndSave put (recordCommitted entry) (.commitInputArtifact signer entry.job inputCid)

/-- The first half of a turn of `_drive_run_open`. -/
def openIfPlanned (s : Session) (signer : Digest) (put : Put) (entry : JobEntry) :
    Command JobEntry :=
  if entry.entryStatus = .jobPlanned then openPlannedJob s signer put entry else pure entry

/-- One turn of `_drive_run_open`. An entry that is not pending is passed over. -/
def driveEntry (s : Session) (signer : Digest) (put : Put) (entry : JobEntry) :
    Command JobEntry := do
  let opened ← openIfPlanned s signer put entry
  if opened.entryStatus = .jobOpened then commitOpenedJob signer put opened else pure opened

/-- `_drive_run_open`. -/
def driveRunOpen (s : Session) (signer : Digest) (run : RunManifest) : Command RunManifest := do
  let driven ← walkEntries (driveEntry s signer) run
  let opened := {driven with status := some .runOpen}
  saveRunManifest opened
  pure opened

/-- One turn of `_reconcile_run_with_chain`. -/
def reconcileEntry (put : Put) (entry : JobEntry) : Command JobEntry :=
  if entry.pending = false then pure entry
  else do
    let answer ← Ask.fetchJob entry.job
    match ← rpcCall answer with
    | none => pure {entry with status := some .jobPlanned}
    | some job =>
      if job.customer ≠ (put entry).customer then .raise (.otherCustomer entry.job job.customer)
      else if job.status = jobStatusAwaitingArtifact then pure {entry with status := some .jobOpened}
      else pure {entry with status := some .jobCommitted}

/-- `_reconcile_run_with_chain`. -/
def reconcileRunWithChain (run : RunManifest) : Command RunManifest :=
  walkEntries reconcileEntry run

end Driving

section Commands

/-- `predict open`, once its artifacts are pinned. -/
def predictOpenRun [CharData] (s : Session) (h : OpenHost) (o : OpenOptions) (t : OpenTerms) :
    Command RunManifest := do
  let (plan,_) ← .lift ((predictOpen h o).mapError .plan)
  let run := openedManifest h o t plan
  let file ← Ask.load
  if file.isSome then .raise .manifestExists
  else do
    assertJobsAbsent (run.runJobEntries.map JobEntry.job)
    saveRunManifest run
    driveRunOpen s h.customer run

/-- The wallet that signs for a run: the one named, else the one recorded. -/
def runSigner (s : Session) (wallet : Option String) (run : RunManifest) : Command Digest := do
  let signer ← loadWallet s (wallet.getD run.customerWallet)
  if signer ≠ run.customer then .raise (.wrongWallet run.customer) else pure signer

/-- `predict resume`. -/
def predictResume (s : Session) (wallet : Option String) : Command RunManifest := do
  let run ← loadPredictRun
  match run.runIsResumable with
  | .error .alreadyOpen => pure run
  | .error reason => .raise (.notResumable reason)
  | .ok () =>
    if run.cluster ≠ s.cluster then .raise (.wrongCluster run.cluster)
    else do
      let signer ← runSigner s wallet run
      let reconciled ← reconcileRunWithChain run
      saveRunManifest reconciled
      driveRunOpen s signer reconciled

/-- The aggregate entry bound to an artifact. -/
def bindEntry (entry : JobEntry) (imageId : Digest) (inputCid : String) (inputDigest : Digest)
    (journalHash : Digest) : JobEntry :=
  {entry with
    inputCid := some inputCid
    inputBundleHash := some inputDigest
    expectedResultHash := some journalHash
    requiredSoftwareDigest := imageId
    status := some .jobPlanned }

/-- The manifest with its aggregate bound. -/
def bindManifest (run : RunManifest) (imageId : Digest) (inputCid : String) (entry : JobEntry) :
    RunManifest :=
  {run with
    aggregate := some entry
    aggregateInputCid := some inputCid
    aggregateImageId := imageId
    status := some .runOpening }

/-- `predict bind-aggregate`. The pending entries are driven as the manifest has them. -/
def bindAggregateRun (s : Session) (wallet : Option String) (imageId : Digest)
    (allowCompleted : Bool) : Command RunManifest := do
  let run ← loadPredictRun
  if run.cluster ≠ s.cluster then .raise (.wrongCluster run.cluster)
  else match run.aggregate with
  | none => .raise .noAggregate
  | some entry =>
    if entry.entryStatus = .jobCommitted then pure run
    else if entry.entryStatus ∉ [.jobDeferred,.jobPlanned,.jobOpened] then
      .raise (.nothingToBind entry.entryStatus)
    else do
      let signer ← runSigner s wallet run
      let answer ← Ask.bindHost
      let host ← rpcCall answer
      let (artifact,journal) ← .lift
        ((predictBindAggregate {host with imageId} run.toRun allowCompleted).mapError .bind)
      let added ← Ask.addBytes "aggregate-input.json" artifact
      let inputCid ← .lift (added.mapError .ipfs)
      let journalHash ← .lift (require journal.journalHash .malformed)
      let bound := bindEntry entry imageId inputCid journal.inputDigest journalHash
      let run' := bindManifest run imageId inputCid bound
      saveRunManifest run'
      assertJobsAbsent [bound.job]
      driveRunOpen s signer run'

/-- One turn of `predict cancel`. -/
def cancelEntry (signer : Digest) (put : Put) (entry : JobEntry) : Command JobEntry := do
  let answer ← Ask.fetchJob entry.job
  match ← rpcCall answer with
  | none =>
    if entry.pending || decide (entry.entryStatus = .jobDeferred) then
      pure {entry with status := some .jobCancelled}
    else pure entry
  | some job =>
    if job.status = jobStatusAwaitingArtifact ∨ job.status = jobStatusOpen then
      sendAndSave put (fun _ => {entry with status := some .jobCancelled})
        (.cancelOpenJob signer entry.job)
    else pure entry

/-- `predict cancel`. -/
def predictCancel (s : Session) (wallet : String) : Command RunManifest := do
  let signer ← loadWallet s wallet
  let run ← loadPredictRun
  let walked ← walkEntries (cancelEntry signer) run
  let cancelled := {walked with status := some .runCancelled}
  saveRunManifest cancelled
  pure cancelled

end Commands

end Kswarm.Cli
