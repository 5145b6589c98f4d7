import Kswarm.Accounts.Job
import Kswarm.Legacy.Binding
import Kswarm.Lib.Base58
import Kswarm.Lib.JsJson
import Kswarm.Lib.NumberText
import Kswarm.Lib.Process

/-! The artifact gateway (`api.mjs`) and the client that uploads to it (`client.mjs`). An upload
carries a signed authorization; the gateway checks it against the job on chain, and only then has
the bytes pinned. -/
namespace Kswarm.Gateway
open Accounts Legacy.Node

/-- What the handlers take from the runtime and its libraries, beyond texts and numbers. -/
structure Runtime where
  /-- The text of an array or an object after its opening bracket. -/
  nested : Doc → List Char
  /-- `Number(value)` of anything but a number; some objects make it throw. -/
  coerce : Doc → Option Binary64
  /-- `new PublicKey(value)` of anything but a text. -/
  otherKey : Option Doc → Option Digest
  /-- `nacl.sign.detached.verify` of the decoded signature; a malformed one makes it throw. -/
  verify : Bytes → Digest → Option Doc → Option Bool

namespace Runtime
variable (R : Runtime)

/-- `JSON.stringify` of what `JSON.parse` returned. -/
def docText : Doc → List Char
  | .null => ['n','u','l','l']
  | .bool true => ['t','r','u','e']
  | .bool false => ['f','a','l','s','e']
  | .number x => if x.isFinite then x.numberText else ['n','u','l','l']
  | .text s => JsValue.quote s
  | .arr xs => '[' :: R.nested (.arr xs)
  | .obj entries => '\x7b' :: R.nested (.obj entries)

/-- A member of an object; one that is `undefined` is left out. -/
def memberText (key : String) (value : Option Doc) : Option (List Char) :=
  value.map (fun v => JsValue.quote (utf16 key.toList) ++ ':' :: R.docText v)

/-- The message that is signed. -/
def message (job kind sha256 timestamp : Option Doc) : List Char :=
  '\x7b' :: (Json.joined ',' ([("job",job),("kind",kind),("sha256",sha256),
    ("timestamp",timestamp)].filterMap (fun p => R.memberText p.1 p.2)) ++ ['\x7d'])

/-- `new PublicKey(value)`. -/
def publicKey : Option Doc → Option Digest
  | some (.text s) => readKey (String.ofList (scalars s))
  | v => R.otherKey v

/-- `Number(value)`. -/
def number : Option Doc → Option Binary64
  | none => some .nan
  | some (.number x) => some x
  | some v => R.coerce v

end Runtime

/-- The members the gateway reads; none is `undefined`. -/
structure Authorization where
  job : Option Doc
  kind : Option Doc
  sha256 : Option Doc
  timestamp : Option Doc
  signer : Option Doc
  signature : Option Doc

/-- The members of a parsed document; `null` has none to read. -/
def Authorization.read : Doc → Except String Authorization
  | .null => .error "Cannot read properties of null"
  | .obj o => .ok {
      job := Properties.get o "job"
      kind := Properties.get o "kind"
      sha256 := Properties.get o "sha256"
      timestamp := Properties.get o "timestamp"
      signer := Properties.get o "signer"
      signature := Properties.get o "signature" }
  | _ => .ok ⟨none,none,none,none,none,none⟩

def verifySignedPayload (R : Runtime) (auth : Authorization) : Except String Unit := do
  let key ← require (R.publicKey auth.signer) "Invalid public key input"
  let valid ← require (R.verify (utf8 (R.message auth.job auth.kind auth.sha256 auth.timestamp)) key
    auth.signature) "bad signature size"
  failIf (valid = false) "invalid artifact authorization signature"

/-- Whether the clock and the timestamp are more than five minutes apart. NaN never is. -/
def stale (now : ℕ) : Binary64 → Bool
  | .nan => false
  | .inf _ => true
  | .finite neg mag => match Binary64.nearest |(now : ℚ) - (if neg then -(mag : ℚ) else mag)| with
    | none => true
    | some delta => decide (5*60*1000 < delta)

def requireFreshTimestamp (R : Runtime) (now : ℕ) (timestamp : Option Doc) :
    Except String Unit := do
  let x ← require (R.number timestamp) "Cannot convert object to primitive value"
  failIf (stale now x = true) "stale artifact authorization timestamp"

/-- `value === text`. -/
def isText (value : Option Doc) (text : CodeUnits) : Bool :=
  match value with
  | some (.text s) => decide (s = text)
  | _ => false

def keyUnits (k : Digest) : CodeUnits := utf16 (keyText k).toList
def hexUnits (bytes : Bytes) : CodeUnits := utf16 (Reducer.encodeHex bytes).toList

/-- What the two routes do not share. -/
structure Route where
  kind : String
  owner : JobAccount → Digest
  notOwner : String
  admits : JobAccount → Bool
  notAdmitted : String
  /-- What the job already says about the bytes. -/
  accepts : JobAccount → Digest → Bool
  defaultName : String

def inputRoute : Route where
  kind := "input"
  owner job := job.customer
  notOwner := "only the customer can upload input"
  admits job := decide (job.status = 1)
  notAdmitted := "job is not awaiting artifact upload"
  accepts job observed := decide (hexUnits observed.val = hexUnits job.inputBundleHash)
  defaultName := "input.bin"

def outputRoute : Route where
  kind := "output"
  owner job := job.worker
  notOwner := "only the assigned worker can upload output"
  admits job := decide (job.status = 3 ∨ job.status = 4)
  notAdmitted := "job is not in a state that allows output uploads"
  accepts _ _ := true
  defaultName := "output.json"

/-- The checks of a route against the job. -/
def Route.check (route : Route) (job : JobAccount) (auth : Authorization) (address : CodeUnits)
    (observed : Digest) : Except String Unit := do
  failIf (isText auth.signer (keyUnits (route.owner job)) = false) route.notOwner
  failIf (route.admits job = false) route.notAdmitted
  failIf (route.accepts job observed = false) "input bundle hash mismatch"
  failIf (isText auth.sha256 (hexUnits observed.val) = false ∨
    isText auth.kind (utf16 route.kind.toList) = false ∨ isText auth.job address = false)
    "artifact authorization payload mismatch"

/-- A request to upload. The authorization is absent when its text does not parse; the numbers
that parsing returns are binary64 numbers. -/
structure Upload where
  address : CodeUnits
  file : Option (CodeUnits × Bytes)
  auth : Option Doc
  represented : ∀ o neg mag, auth = some (.obj o) →
    Properties.get o "timestamp" = some (.number (.finite neg mag)) →
    Binary64.nearest (mag : ℚ) = some (mag : ℚ)

inductive Op where
  | clock
  | fetchJob (address : CodeUnits)
  | addBytes (name : CodeUnits) (payload : Bytes)

structure Artifact where
  cid : Option Doc
  name : Option Doc
  size : Option Doc

@[reducible] def Ans : Op → Type
  | .clock => ℕ
  | .fetchJob _ => Except String (Option JobAccount)
  | .addBytes _ _ => Except String Artifact

abbrev Handler (α : Type) := Process Op Ans String α
abbrev Log := List (Sigma Ans)

/-- The file and the authorization of a request, the signature checked. -/
def readUpload (R : Runtime) (req : Upload) :
    Except String ((CodeUnits × Bytes) × Authorization) := do
  let file ← require req.file "missing artifact file"
  let doc ← require req.auth "the authorization is not JSON"
  let auth ← Authorization.read doc
  verifySignedPayload R auth
  pure (file,auth)

/-- The file name, which must not be empty. -/
def Route.nameOf (route : Route) (original : CodeUnits) : CodeUnits :=
  if original = [] then utf16 route.defaultName.toList else original

/-- A handler of the gateway. -/
def upload (R : Runtime) (route : Route) (req : Upload) : Handler Artifact := do
  let read ← .lift (readUpload R req)
  let now ← .query .clock
  .lift (requireFreshTimestamp R now read.2.timestamp)
  let answer ← .query (.fetchJob req.address)
  let state ← .lift answer
  let job ← .lift (require state "job not found")
  .lift (route.check job read.2 req.address (sha256 read.1.2))
  let added ← .query (.addBytes (route.nameOf read.1.1) read.1.2)
  .lift added

/-- `POST /api/protocol/jobs/:jobAddress/input`. -/
def postInput (R : Runtime) (req : Upload) : Handler Artifact := upload R inputRoute req

/-- `POST /api/protocol/jobs/:jobAddress/output`. -/
def postOutput (R : Runtime) (req : Upload) : Handler Artifact := upload R outputRoute req

end Kswarm.Gateway
