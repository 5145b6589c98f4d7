import Kswarm.Lib.Base58
import Kswarm.Lib.Numeral
import Kswarm.Lib.Process
import Kswarm.Lib.PyText
import Kswarm.Worker.BonsolHook

/-! The proof hook (`bonsol-aggregate-hook.py`). It recomputes the digests it is handed, publishes
the framed artifact, funds the marker, deploys the guest, and asks a Bonsol node to execute it. All
it does to the world is run two command lines, publish one input and write three files. -/
namespace Kswarm.Proving

def recordAggregateVerificationRawIx : UInt8 := 1
def markerRentSol : String := "0.02"
def executionIdMaxBytes : ℕ := 32
def maxInlineInputBytes : ℕ := 400
def systemProgramId : String := "11111111111111111111111111111111"
def instructionsSysvarId : String := "Sysvar1nstructions1111111111111111111111111"

def deployedMarkers : List String :=
  ["already deployed","already exists","AccountAlreadyInitialized"]

/-- `ProgramError::Custom(18)`, as the RPC reports it. -/
def deploymentNotVisible : String := "custom program error: 0x12"

/-- What the hook reads from its environment. -/
structure Environment where
  programId : String := "ERNzRcYhX6UYboXAAP7vwzbCKsULYu21R4RFNvDD8CkM"
  rpcUrl : String := "http://127.0.0.1:38899"
  imageServer : String := "http://127.0.0.1:38080"
  bonsolCli : String
  solanaCli : String
  keypair : String
  manifest : String
  workDir : String
  /-- Where a path of the host is in the container of the command line. -/
  containerPath : String → String
  executeTimeout : ℚ := 1800
  deployTimeout : ℚ := 180
  attempts : ℤ := 6
  retrySeconds : ℚ := 10
  tip : ℤ := 12000
  expiry : ℤ := 1500
  publishUrl : String := ""
  ipfsApiUrl : String := "http://127.0.0.1:4501"
  gatewayUrl : String := "http://127.0.0.1:48080/ipfs"

inductive HookError where
  | message (text : String)
  | noUrl (publishUrl : String) (answer : Json)
  | otherImage (deployed : Json) (required : String)

/-- `str(error)`. -/
def HookError.text [CharData] : HookError → String
  | .message text => text
  | .noUrl publishUrl answer =>
    publishUrl ++ " did not return a url: " ++ String.ofList answer.repr
  | .otherImage deployed required =>
    "the deployed aggregate reducer is " ++ deployed.strOf ++ ", but the job requires " ++
      required ++ "; rebuild the guest or re-pin the job's required_software_digest"

/-- What stops the hook. -/
inductive Failure where
  | hook (e : HookError)
  /-- An exception of the language or of a library. -/
  | other
  /-- The deployment loop took more turns than were asked about. -/
  | outOfTurns

/-- `inputs[0]` of an execution request. -/
inductive GuestInput where
  | publicData (data : String)
  | publicUrl (data : String)
  deriving DecidableEq

def GuestInput.toJson : GuestInput → Json
  | .publicData data => .obj [("inputType",.str "PublicData"),("data",.str data)]
  | .publicUrl data => .obj [("inputType",.str "PublicUrl"),("data",.str data)]

structure ExecutionRequest where
  imageId : Bytes
  executionId : String
  inputHash : Bytes
  input : GuestInput
  tip : ℤ
  expiry : ℤ
  programId : String
  instructionPrefix : Bytes
  marker : String
  aggregateJob : String
  deriving DecidableEq

def account (pubkey : String) (isWritable : Bool) : Json := .obj [
  ("pubkey",.str pubkey),("isSigner",.bool false),("isWritable",.bool isWritable)]

def ExecutionRequest.toJson (r : ExecutionRequest) : Json := .obj [
  ("imageId",.str (Reducer.encodeHex r.imageId)),
  ("executionId",.str r.executionId),
  ("executionConfig",.obj [("verifyInputHash",.bool true),
    ("inputHash",.str (Reducer.encodeHex r.inputHash)),("forwardOutput",.bool true)]),
  ("inputs",.arr [r.input.toJson]),
  ("tip",.int r.tip),
  ("expiry",.int r.expiry),
  ("callbackConfig",.obj [
    ("programId",.str r.programId),
    ("instructionPrefix",.arr (r.instructionPrefix.map (fun b => .int b.toNat))),
    -- The order the program's fallback reads.
    ("extraAccounts",.arr [account r.marker true,account r.aggregateJob false,
      account systemProgramId false,account instructionsSysvarId false])])]

/-- The command lines the hook runs. -/
inductive Command where
  | transfer (marker : String)
  | deploy
  | execute (requestPath : String)
  deriving DecidableEq

/-- `str(int(seconds))`. -/
def wholeText (seconds : ℚ) : String :=
  String.ofList (decimalInt (if seconds < 0 then ⌈seconds⌉ else ⌊seconds⌋))

def Command.argv (e : Environment) : Command → List String
  | .transfer marker => [e.solanaCli,"-u",e.rpcUrl,"transfer","--from",e.containerPath e.keypair,
    "--fee-payer",e.containerPath e.keypair,"--allow-unfunded-recipient",marker,markerRentSol]
  | .deploy => [e.bonsolCli,"-k",e.containerPath e.keypair,"-u",e.rpcUrl,"deploy","url","--url",
    e.imageServer,"--manifest-path",e.containerPath e.manifest,"--auto-confirm"]
  | .execute requestPath => [e.bonsolCli,"-k",e.containerPath e.keypair,"-u",e.rpcUrl,"execute",
    "-f",e.containerPath requestPath,"--wait","--timeout",wholeText e.executeTimeout]

structure Completed where
  returncode : ℤ
  stdout : String
  deriving DecidableEq

inductive Op where
  /-- `subprocess.run`. -/
  | run (command : Command) (argv : List String) (timeout : ℚ)
  | publish (url : String) (framed : Bytes)
  | ipfsAdd (url : String) (framed : Bytes)
  | clock
  | sleep (seconds : ℚ)
  | makeDir (path : String)
  | readManifest (path : String)
  | writeRequest (path : String) (request : ExecutionRequest)
  | writeInput (path : String) (artifact : Bytes)
  | writeLog (path output : String)

@[reducible] def Ans : Op → Type
  /- No answer is a command that did not start or did not end in time. -/
  | .run _ _ _ => Option Completed
  | .publish _ _ => Except String Json
  | .ipfsAdd _ _ => Except String (Option String)
  | .clock => ℚ
  | .sleep _ => Unit
  | .makeDir _ => Bool
  /- No answer is a file that is not there, and then one without an `imageId`. -/
  | .readManifest _ => Option (Option Json)
  | .writeRequest _ _ => Bool
  | .writeInput _ _ => Bool
  | .writeLog _ _ => Bool

abbrev Hook (α : Type) := Process Op Ans Failure α

def ask (o : Op) : Hook (Ans o) := Process.query o

def fail {α : Type} (text : String) : Hook α := .raise (.hook (.message text))

/-- An operation of the file system. -/
def wrote (done : Bool) : Hook Unit := if done then pure () else .raise .other

/-- `token in text`. -/
def contains (token text : String) : Bool := decide (token.toList <:+: text.toList)

/-- The output shows the deployment. -/
def shows (tokens : List String) (text : String) : Bool :=
  tokens.any (fun token => contains token text)

section Running
variable [CharData]

/-- `completed.stdout.strip()[-2000:]`. -/
def outputTail (stdout : String) : String :=
  let text := strip stdout.toList
  String.ofList (text.drop (text.length - 2000))

def exitText (program : String) (c : Completed) : String :=
  program ++ " exited " ++ String.ofList (decimalInt c.returncode) ++ ": " ++ outputTail c.stdout

def run (e : Environment) (command : Command) (timeout : ℚ) (allow : List String) :
    Hook String := do
  let completed ← ask (.run command (command.argv e) timeout)
  match completed with
  | none => .raise .other
  | some c =>
    if c.returncode = 0 ∨ shows allow c.stdout = true then pure c.stdout
    else fail (exitText ((command.argv e).headD "") c)

/-- The error is the one that passes by itself. -/
def Failure.retryable : Failure → Bool
  | .hook e => contains deploymentNotVisible e.text
  | _ => false

/-- The turns of `execute_request` that are left. -/
def tryExecute (e : Environment) (requestPath : String) : ℕ → Hook String
  | 0 => fail "unreachable"
  | n+1 =>
    (run e (.execute requestPath) (e.executeTimeout + 120) []).recover (fun error =>
      if error.retryable = false ∨ n = 0 then .raise error
      else do
        ask (.sleep e.retrySeconds)
        tryExecute e requestPath n)

/-- Submit the request, again while the deployment is not visible yet. -/
def executeRequest (e : Environment) (requestPath : String) : Hook String :=
  tryExecute e requestPath e.attempts.toNat

/-- The loop of `deploy_image`, for some turns. -/
def awaitDeployment (e : Environment) (deadline : ℚ) : ℕ → Hook Unit
  | 0 => .raise .outOfTurns
  | n+1 => do
    let output ← run e .deploy 600 deployedMarkers
    if shows deployedMarkers output = true then pure ()
    else do
      let now ← ask .clock
      if deadline < now then
        fail ("the guest image deployment is still not visible on chain; `bonsol execute` would " ++
          "fail with InvalidDeploymentAccount")
      else do
        ask (.sleep 3)
        awaitDeployment e deadline n

/-- Deploy the guest image, and do not return until the chain shows it. -/
def deployImage (e : Environment) (turns : ℕ) : Hook Unit := do
  let output ← run e .deploy 600 deployedMarkers
  if shows deployedMarkers output = true then pure ()
  else do
    let now ← ask .clock
    awaitDeployment e (now + e.deployTimeout) turns

end Running

/-- `Pubkey.find_program_address`, which refuses a seed of more than 32 bytes. -/
abbrev FindProgramAddress := List Bytes → Digest → Option Digest

def markerPda (find : FindProgramAddress) (programId aggregateJob : String)
    (executionId imageId inputDigest journalHash : Bytes) : Option String := do
  let job ← readKey aggregateJob
  let program ← readKey programId
  let address ← find [utf8 "bonsol_aggregate_verification".toList,job.val,executionId,imageId,
    inputDigest,journalHash] program
  some (keyText address)

def executionIdBytes (executionId : String) : Except Failure Bytes := do
  let raw := utf8 executionId.toList
  failIf (raw = [] ∨ executionIdMaxBytes < raw.length) (.hook (.message
    ("execution id must be 1..32 bytes; got " ++ String.ofList (decimal raw.length))))
  pure (raw ++ List.replicate (executionIdMaxBytes - raw.length) 0)

/-- Hand the framed bytes to the proving service and take back a URL for them. -/
def httpPublish (publishUrl : String) (framed : Bytes) : Hook String := do
  match ← ask (.publish publishUrl framed) with
  | .error error =>
    fail ("cannot publish the framed guest input to " ++ publishUrl ++ ": " ++ error)
  | .ok answer =>
    if answer.isObj = false then .raise .other
    else match answer.get "url" with
      | some (.str url) =>
        if url.isEmpty then .raise (.hook (.noUrl publishUrl answer)) else pure url
      | _ => .raise (.hook (.noUrl publishUrl answer))

def ipfsAdd (apiUrl : String) (framed : Bytes) : Hook String := do
  match ← ask (.ipfsAdd (apiUrl ++ "/api/v0/add?pin=true&cid-version=1") framed) with
  | .error error => fail ("cannot publish the framed guest input to " ++ apiUrl ++ ": " ++ error)
  | .ok none => .raise .other
  | .ok (some cid) => pure cid

/-- `url.rstrip("/")`. -/
def rstripSlash (url : String) : String :=
  String.ofList (url.toList.reverse.dropWhile (· = '/')).reverse

/-- The one input the guest reads, small enough to fit in a transaction. -/
def publishGuestInput (e : Environment) (framed : Bytes) : Hook GuestInput := do
  if framed.length ≤ maxInlineInputBytes then
    pure (.publicData ("0x" ++ Reducer.encodeHex framed))
  else if e.publishUrl.isEmpty = false then do
    let url ← httpPublish e.publishUrl framed
    pure (.publicUrl url)
  else do
    let cid ← ipfsAdd (rstripSlash e.ipfsApiUrl) framed
    pure (.publicUrl (rstripSlash e.gatewayUrl ++ "/" ++ cid))

/-- The payload of the hook, decoded. -/
structure Payload where
  aggregateJob : String
  imageId : Bytes
  artifact : Bytes
  inputDigest : Bytes
  committedOutputs : Bytes
  outputDigest : Bytes
  journalHash : Bytes

/-- `bytes.fromhex(payload[field])`. -/
def payloadHex (payload : Json) (field : String) : Except Failure Bytes :=
  match payload.get field with
  | some (.str value) => require (Cli.fromhex value.toList) .other
  | _ => .error .other

def readPayload [CharData] (payload : Json) : Except Failure Payload := do
  let job ← require (payload.get "aggregate_job") .other
  let imageId ← payloadHex payload "image_id"
  let artifact ← payloadHex payload "input_artifact_hex"
  let inputDigest ← payloadHex payload "input_digest"
  let committedOutputs ← payloadHex payload "committed_outputs"
  let outputDigest ← payloadHex payload "output_digest"
  let journalHash ← payloadHex payload "journal_hash"
  pure {aggregateJob := job.strOf,imageId,artifact,inputDigest,committedOutputs,outputDigest,journalHash}

/-- Recompute rather than trust. -/
def checkPayload (p : Payload) : Except Failure Unit := do
  failIf ((sha256 (lengthFrame p.artifact)).val ≠ p.inputDigest)
    (.hook (.message "payload input_digest is not sha256 of the framed artifact"))
  failIf ((sha256 p.committedOutputs).val ≠ p.outputDigest)
    (.hook (.message "payload output_digest is not sha256(committed_outputs)"))
  failIf ((sha256 (p.inputDigest ++ p.committedOutputs)).val ≠ p.journalHash)
    (.hook (.message "payload journal_hash is not sha256(input_digest || committed_outputs)"))

/-- The guest of the manifest is the one the job requires. -/
def checkManifest (e : Environment) (p : Payload) (manifest : Option (Option Json)) :
    Except Failure Unit := do
  let read ← require manifest (.hook (.message ("no aggregate reducer manifest at " ++ e.manifest ++
    ": run protocol/scripts/build-aggregate-reducer.sh")))
  let deployed ← require read .other
  match deployed with
  | .str image =>
    failIf (image ≠ Reducer.encodeHex p.imageId)
      (.hook (.otherImage deployed (Reducer.encodeHex p.imageId)))
  | _ => .error (.hook (.otherImage deployed (Reducer.encodeHex p.imageId)))

/-- `f"agg-{aggregate_job[:8]}-{int(time.time())}"`. -/
def executionIdAt (aggregateJob : String) (now : ℚ) : String :=
  "agg-" ++ String.ofList (aggregateJob.toList.take 8) ++ "-" ++ wholeText now

/-- What the callback hands to the program. -/
def callbackPrefix (p : Payload) (executionId : Bytes) : Bytes :=
  recordAggregateVerificationRawIx ::
    (executionId ++ p.imageId ++ p.inputDigest ++ p.outputDigest ++ p.journalHash)

def executionRequest (e : Environment) (p : Payload) (executionId : String) (padded : Bytes)
    (guestInput : GuestInput) (marker : String) : ExecutionRequest where
  imageId := p.imageId
  executionId := executionId
  inputHash := p.inputDigest
  input := guestInput
  tip := e.tip
  expiry := e.expiry
  programId := e.programId
  instructionPrefix := callbackPrefix p padded
  marker := marker
  aggregateJob := p.aggregateJob

def requestPath (e : Environment) (executionId : String) : String :=
  e.workDir ++ "/" ++ executionId ++ "-execution-request.json"

def inputPath (e : Environment) (executionId : String) : String :=
  e.workDir ++ "/" ++ executionId ++ "-input.json"

def logPath (e : Environment) (executionId : String) : String :=
  e.workDir ++ "/" ++ executionId ++ "-execute.log"

/-- What the hook prints. -/
def printed (p : Payload) (executionId : String) : Json := .obj [
  ("execution_id",.str executionId),
  ("image_id",.str (Reducer.encodeHex p.imageId)),
  ("input_digest",.str (Reducer.encodeHex p.inputDigest)),
  ("output_digest",.str (Reducer.encodeHex p.outputDigest)),
  ("journal_hash",.str (Reducer.encodeHex p.journalHash)),
  ("committed_outputs",.str (Reducer.encodeHex p.committedOutputs))]

section Main
variable [CharData] (e : Environment) (find : FindProgramAddress) (turns : ℕ)

/-- From the published input on. -/
def prove (p : Payload) (guestInput : GuestInput) : Hook Json := do
  let now ← ask .clock
  let executionId := executionIdAt p.aggregateJob now
  let padded ← .lift (executionIdBytes executionId)
  let marker ← .lift (require (markerPda find e.programId p.aggregateJob padded p.imageId
    p.inputDigest p.journalHash) .other)
  let _ ← run e (.transfer marker) 120 []
  deployImage e turns
  let requested ← ask (.writeRequest (requestPath e executionId)
    (executionRequest e p executionId padded guestInput marker))
  wrote requested
  let stored ← ask (.writeInput (inputPath e executionId) p.artifact)
  wrote stored
  let output ← executeRequest e (requestPath e executionId)
  let logged ← ask (.writeLog (logPath e executionId) output)
  wrote logged
  pure (printed p executionId)

/-- `main`, from the parsed payload to what is printed. -/
def main (payload : Json) : Hook Json := do
  let p ← .lift (readPayload payload)
  .lift (checkPayload p)
  let made ← ask (.makeDir e.workDir)
  wrote made
  let manifest ← ask (.readManifest e.manifest)
  .lift (checkManifest e p manifest)
  let guestInput ← publishGuestInput e (lengthFrame p.artifact)
  prove e find turns p guestInput

end Main

end Kswarm.Proving
