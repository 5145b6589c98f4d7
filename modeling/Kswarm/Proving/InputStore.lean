import Kswarm.Lib.Collision
import Kswarm.Proving.Execution

/-! The proving service (`bonsol-hook-server.py`). It keeps the framed inputs it was posted under
their SHA-256, hands them out by it, and runs the hook on anything else that is posted. The requests
of all its clients come in some order, and each is handled in one step. -/
namespace Kswarm.Proving

def maxRequestBytes : ℕ := 4*1024*1024

/-- `INPUTS`. -/
abbrev Inputs := List (String × Bytes)

/-- `INPUTS[digest] = raw`. -/
def Inputs.store (inputs : Inputs) (digest : String) (raw : Bytes) : Inputs :=
  match inputs with
  | [] => [(digest,raw)]
  | (key,body)::rest =>
    if key = digest then (key,raw)::rest else (key,body) :: Inputs.store rest digest raw

/-- What is the same for every request. -/
structure Server where
  publicBase : String
  hook : String
  hookPresent : Bool

/-- How a hook ended; none is one that took too long. -/
abbrev HookRun := Option (ℤ × String × String)

inductive Request where
  /-- A body of the announced length, and how the hook would end on it. -/
  | post (path : String) (contentLength : ℤ) (raw : Bytes) (hookRun : HookRun)
  | get (path : String)

inductive Reply where
  | json (status : ℕ) (payload : Json)
  | bytes (body : Bytes)
  /-- An exception ends the connection. -/
  | dropped

def problem (status : ℕ) (text : String) : Reply := .json status (.obj [("error",.str text)])

def inputPrefix : List Char := "/input/".toList

lemma inputPrefix_eq : inputPrefix = ['/','i','n','p','u','t','/'] := by decide

section Server
variable [CharData]

/-- A posted body that is not an input is a payload for the hook. -/
def runHook (raw : Bytes) (hookRun : HookRun) : Reply :=
  match Json.loads (decodeReplacing raw) with
  | none => problem 400 "body is not JSON"
  | some (.obj _) =>
    match hookRun with
    | none => .dropped
    | some (code,stdout,stderr) =>
      if code ≠ 0 then
        problem 502 (if (outputTail stderr).isEmpty then
          "hook exited " ++ String.ofList (decimalInt code) else outputTail stderr)
      else match Json.loads stdout.toList with
        | none =>
          problem 502
            ("hook did not print JSON: " ++ String.ofList (Json.reprChars (stdout.toList.take 500)))
        | some (.obj binding) => .json 200 (.obj binding)
        | some _ => .dropped
  | some _ => .dropped

def inputUrl (s : Server) (digest : String) : String := s.publicBase ++ "/input/" ++ digest

/-- `do_POST`. -/
def doPost (s : Server) (inputs : Inputs) (path : String) (contentLength : ℤ) (raw : Bytes)
    (hookRun : HookRun) : Reply × Inputs :=
  let route := rstripSlash path
  if route ≠ "" ∧ route ≠ "/prove" ∧ route ≠ "/input" then
    (problem 404 ("no such path: " ++ path),inputs)
  else if contentLength ≤ 0 ∨ maxRequestBytes < contentLength then
    (problem 413 ("body must be 1.." ++ String.ofList (decimal maxRequestBytes) ++ " bytes; got " ++
      String.ofList (decimalInt contentLength)),inputs)
  else if route = "/input" then
    let digest := Reducer.encodeHex (sha256 raw).val
    (.json 200 (.obj [("url",.str (inputUrl s digest)),("sha256",.str digest)]),
      inputs.store digest raw)
  else (runHook raw hookRun,inputs)

/-- `do_GET`. -/
def doGet (s : Server) (inputs : Inputs) (path : String) : Reply :=
  let route := rstripSlash path
  if route = "/healthz" then
    .json 200 (.obj [("ok",.bool true),("hook",.str s.hook),("hook_present",.bool s.hookPresent),
      ("inputs",.int inputs.length)])
  else if inputPrefix.isPrefixOf route.toList = true then
    match inputs.lookup (String.ofList (route.toList.drop inputPrefix.length)) with
    | none => problem 404 "no such input"
    | some body => .bytes body
  else problem 404 ("no such path: " ++ path)

def handle (s : Server) (inputs : Inputs) : Request → Reply × Inputs
  | .post path contentLength raw hookRun => doPost s inputs path contentLength raw hookRun
  | .get path => (doGet s inputs path,inputs)

/-- The inputs kept after some requests. -/
def after (s : Server) (history : List Request) : Inputs :=
  history.foldl (fun inputs request => (handle s inputs request).2) []

end Server

/-- The request stores these bytes. -/
def Stores (raw : Bytes) : Request → Prop
  | .post path contentLength body _ => rstripSlash path = "/input" ∧ 0 < contentLength ∧
      contentLength ≤ maxRequestBytes ∧ body = raw
  | .get _ => False

/-- Every input is kept under its own digest, and was posted. -/
def Addressed (history : List Request) (inputs : Inputs) : Prop :=
  ∀ digest body, inputs.lookup digest = some body →
    digest = Reducer.encodeHex (sha256 body).val ∧ ∃ request ∈ history, Stores body request

lemma lookup_store (inputs : Inputs) (digest key : String) (raw : Bytes) :
    (inputs.store digest raw).lookup key =
      if key = digest then some raw else inputs.lookup key := by
  induction inputs with
  | nil => rw [Inputs.store,Json.lookup_cons_ite]
  | cons entry inputs ih =>
    obtain ⟨k,b⟩ := entry
    rw [Inputs.store]
    by_cases hk : k = digest
    · subst hk
      rw [if_pos rfl,Json.lookup_cons_ite,Json.lookup_cons_ite]
      split_ifs <;> rfl
    · rw [if_neg hk,Json.lookup_cons_ite,ih,Json.lookup_cons_ite]
      by_cases hkey : key = k
      · subst hkey
        rw [if_pos rfl,if_neg hk,if_pos rfl]
      · rw [if_neg hkey,if_neg hkey]

lemma Stores.body {raw body : Bytes} {request : Request} (h : Stores raw request)
    (h' : Stores body request) : raw = body := by
  cases request with
  | post path contentLength posted hookRun => exact h.2.2.2.symm.trans h'.2.2.2
  | get path => cases h

section Server
variable [CharData] {s : Server} {inputs : Inputs} {request : Request} {history : List Request}

/-- A request stores the body it posts to the input path, or leaves the inputs alone. -/
lemma handle_inputs (s : Server) (inputs : Inputs) (request : Request) :
    (∃ raw, Stores raw request ∧ (handle s inputs request).2 =
      inputs.store (Reducer.encodeHex (sha256 raw).val) raw) ∨
    ((∀ raw, ¬Stores raw request) ∧ (handle s inputs request).2 = inputs) := by
  cases request with
  | get path => exact .inr ⟨fun _ h => h,rfl⟩
  | post path contentLength raw hookRun =>
    simp only [handle,doPost]
    split_ifs with hroute hlength hinput
    · refine .inr ⟨?_,rfl⟩
      rintro _ ⟨hpath,-⟩
      exact hroute.2.2 hpath
    · refine .inr ⟨?_,rfl⟩
      rintro _ ⟨-,hpos,hmax,-⟩
      omega
    · rw [not_or,not_le,not_lt] at hlength
      exact .inl ⟨raw,⟨hinput,hlength.1,hlength.2,rfl⟩,rfl⟩
    · refine .inr ⟨?_,rfl⟩
      rintro _ ⟨hpath,-⟩
      exact hinput hpath

lemma addressed_snoc (h : Addressed history inputs) (s : Server) (request : Request) :
    Addressed (history ++ [request]) (handle s inputs request).2 := by
  intro digest body hbody
  rcases handle_inputs s inputs request with ⟨raw,hraw,heq⟩ | ⟨-,heq⟩
  · rw [heq,lookup_store] at hbody
    split_ifs at hbody with hdigest
    · obtain rfl := Option.some.inj hbody
      exact ⟨hdigest,request,List.mem_append_right _ (List.mem_singleton_self _),hraw⟩
    · obtain ⟨hname,posted,hin,hposted⟩ := h digest body hbody
      exact ⟨hname,posted,List.mem_append_left _ hin,hposted⟩
  · rw [heq] at hbody
    obtain ⟨hname,posted,hin,hposted⟩ := h digest body hbody
    exact ⟨hname,posted,List.mem_append_left _ hin,hposted⟩

lemma after_snoc (s : Server) (history : List Request) (request : Request) :
    after s (history ++ [request]) = (handle s (after s history) request).2 := by
  rw [after,List.foldl_append]
  rfl

/-- Over every run the inputs are kept under their digests. -/
lemma addressed_after (s : Server) (history : List Request) :
    Addressed history (after s history) := by
  induction history using List.reverseRecOn with
  | nil => exact fun _ _ h => nomatch h
  | append_singleton history request ih =>
    rw [after_snoc]
    exact addressed_snoc ih s request

/-- What has been posted stays available under its digest. -/
lemma kept_after {raw : Bytes} (hin : request ∈ history) (hraw : Stores raw request) :
    ∃ body, (after s history).lookup (Reducer.encodeHex (sha256 raw).val) = some body := by
  induction history using List.reverseRecOn with
  | nil => exact absurd hin List.not_mem_nil
  | append_singleton history last ih =>
    rw [after_snoc]
    rcases handle_inputs s (after s history) last with ⟨body,hbody,heq⟩ | ⟨hnone,heq⟩
    · rw [heq,lookup_store]
      split_ifs with hdigest
      · exact ⟨body,rfl⟩
      · rcases List.mem_append.mp hin with hin | hin
        · exact ih hin
        · obtain rfl := List.mem_singleton.mp hin
          rw [hraw.body hbody] at hdigest
          exact absurd rfl hdigest
    · rw [heq]
      rcases List.mem_append.mp hin with hin | hin
      · exact ih hin
      · obtain rfl := List.mem_singleton.mp hin
        exact absurd hraw (hnone raw)

end Server

/-- The path that names a digest. -/
def digestPath (d : Digest) : String := String.ofList (inputPrefix ++ d.val.flatMap Reducer.hexPair)

/-- It does not end with a slash, so it is served as it is. -/
lemma rstripSlash_digestPath (d : Digest) : rstripSlash (digestPath d) = digestPath d := by
  have hne : d.val ≠ [] := by
    intro hnil
    have := d.property
    rw [hnil] at this
    cases this
  obtain ⟨bytes,b,hlast⟩ : ∃ bytes b, d.val = bytes ++ [b] :=
    ⟨_,_,(List.dropLast_append_getLast hne).symm⟩
  have hslash : ∀ n < 16, Json.hexChar n ≠ '/' := by decide
  have hend := hslash (b.toNat%16) (Nat.mod_lt _ (by decide))
  simp [rstripSlash,digestPath,hlast,Reducer.hexPair,hend]

/-- The path of a digest is answered from the inputs. -/
lemma doGet_digestPath (s : Server) (inputs : Inputs) (d : Digest) :
    doGet s inputs (digestPath d) = match inputs.lookup (Reducer.encodeHex d.val) with
      | none => problem 404 "no such input"
      | some body => .bytes body := by
  have hroute := rstripSlash_digestPath d
  have hhealth : digestPath d ≠ "/healthz" := by
    intro h
    have hchars := congrArg String.toList h
    rw [digestPath,String.toList_ofList,inputPrefix_eq] at hchars
    simp at hchars
  have hinput : inputPrefix.isPrefixOf (digestPath d).toList = true := by
    rw [digestPath,String.toList_ofList,List.isPrefixOf_iff_prefix]
    exact List.prefix_append _ _
  have hdrop : (digestPath d).toList.drop inputPrefix.length = d.val.flatMap Reducer.hexPair := by
    rw [digestPath,String.toList_ofList,List.drop_left]
  rw [doGet,hroute,if_neg hhealth,if_pos hinput,hdrop]
  rfl

section Server
variable [CharData] {s : Server} {request : Request} {history : List Request}

/-- The service hands out what it was posted, or the bytes that were posted collide. -/
lemma served_of_stored {raw : Bytes} (s : Server) (hin : request ∈ history)
    (hraw : Stores raw request) :
    ∃ body, doGet s (after s history) (digestPath (sha256 raw)) = .bytes body ∧
      sha256 body = sha256 raw ∧ ∃ posted ∈ history, Stores body posted := by
  obtain ⟨body,hbody⟩ := kept_after (s := s) hin hraw
  obtain ⟨hname,hposted⟩ := addressed_after s history _ _ hbody
  refine ⟨body,?_,?_,hposted⟩
  · rw [doGet_digestPath,hbody]
  · exact (Subtype.ext (Mirror.encodeHex_injective hname)).symm

end Server

/-- The service answered every publication of the log, among the other requests it handled. -/
def Answered [CharData] (s : Server) (history : List Request) (log : Log) : Prop :=
  ∀ url framed answer, (⟨.publish url framed,.ok answer⟩ : Sigma Ans) ∈ log →
    ∃ earlier path contentLength hookRun later,
      history = earlier ++ .post path contentLength framed hookRun :: later ∧
      rstripSlash path = "/input" ∧
      (handle s (after s earlier) (.post path contentLength framed hookRun)).1 = .json 200 answer

/-- What a node gets when it fetches the input of a request, from the service as it is now. -/
def Fetches [CharData] (s : Server) (history : List Request) (input : GuestInput) (body : Bytes) :
    Prop :=
  match input with
  | .publicData data => data = "0x" ++ Reducer.encodeHex body
  | .publicUrl url => ∃ d, url = s.publicBase ++ digestPath d ∧
      doGet s (after s history) (digestPath d) = .bytes body

lemma inputUrl_eq (s : Server) (d : Digest) :
    inputUrl s (Reducer.encodeHex d.val) = s.publicBase ++ digestPath d := by
  apply String.toList_inj.mp
  simp [inputUrl,digestPath,inputPrefix_eq,Reducer.encodeHex]

/-- The reply to a posted input names its digest. -/
lemma posted_reply [CharData] {s : Server} {inputs : Inputs} {path : String} {contentLength : ℤ}
    {raw : Bytes} {hookRun : HookRun} {answer : Json} (hpath : rstripSlash path = "/input")
    (h : (handle s inputs (.post path contentLength raw hookRun)).1 = .json 200 answer) :
    Stores raw (.post path contentLength raw hookRun) ∧
      answer.get "url" = some (.str (s.publicBase ++ digestPath (sha256 raw))) := by
  simp only [handle,doPost,hpath] at h
  split_ifs at h with hroute hlength
  · exact absurd rfl hroute.2.2
  · cases h
  · rw [not_or,not_le,not_lt] at hlength
    obtain ⟨-,rfl⟩ := Reply.json.inj h
    rw [← inputUrl_eq]
    exact ⟨⟨hpath,hlength.1,hlength.2,rfl⟩,rfl⟩

/-- What was published for a payload can be fetched, with the digest of the framed artifact. -/
lemma fetches_published [CharData] {e : Environment} {p : Payload} {log : Log} {s : Server}
    {history : List Request} {input : GuestInput} (hstore : e.publishUrl.isEmpty = false)
    (hanswered : Answered s history log) (h : Published e p log input) :
    ∃ body, Fetches s history input body ∧ sha256 body = sha256 (lengthFrame p.artifact) := by
  cases h with
  | inlined _ => exact ⟨_,rfl,rfl⟩
  | pinned hnone _ =>
    rw [hstore] at hnone
    cases hnone
  | served hurl hin =>
    obtain ⟨earlier,path,contentLength,hookRun,later,hhistory,hpath,hreply⟩ := hanswered _ _ _ hin
    obtain ⟨hstored,hget⟩ := posted_reply hpath hreply
    rw [hurl] at hget
    obtain rfl := Json.str.inj (Option.some.inj hget)
    have hmem : Request.post path contentLength (lengthFrame p.artifact) hookRun ∈ history := by
      rw [hhistory]
      exact List.mem_append_right _ List.mem_cons_self
    obtain ⟨body,hget,hdigest,-⟩ := served_of_stored s hmem hstored
    exact ⟨body,⟨_,rfl,hget⟩,hdigest⟩

/-- A request to execute names an input that the node can fetch, whatever else the service was asked
before and since, and what it fetches has the digest that the request commits to. It is the framed
artifact, or two inputs that were posted collide. -/
theorem executed_input_is_committed [CharData] (e : Environment) (find : FindProgramAddress)
    (turns : ℕ) (payload : Json) (log : Log) (f : Hook Json) (s : Server) (history : List Request)
    (hstore : e.publishUrl.isEmpty = false) (hanswered : Answered s history log)
    (h : Reaches (transcript Op Ans) [] (main e find turns payload) log f) :
    ∀ path argv timeout answer,
      (⟨.run (.execute path) argv timeout,answer⟩ : Sigma Ans) ∈ log →
      ∃ p r body, readPayload payload = .ok p ∧ Backed e find p r log ∧
        path = requestPath e r.executionId ∧ Fetches s history r.input body ∧
        (sha256 body).val = r.inputHash ∧
        (body = lengthFrame p.artifact ∨ Collision sha256 [body,lengthFrame p.artifact]) := by
  intro path argv timeout answer hin
  have hsound := (Safe.reaches (main_holds e find turns payload) h).invariant
  obtain ⟨before,rest,rfl⟩ := List.append_of_mem hin
  obtain ⟨p,r,hread,hbacked,hpath⟩ := hsound.backed _ _ _ _ _ _ rfl
  obtain ⟨p',hread',hconsistent⟩ := hsound.checked (by simp)
  obtain rfl := Except.ok.inj (hread.symm.trans hread')
  have hhash : (sha256 (lengthFrame p.artifact)).val = r.inputHash :=
    hconsistent.input.trans hbacked.carries.inputHash.symm
  have hmono := List.subset_append_left before
    ((⟨.run (.execute path) argv timeout,answer⟩ : Sigma Ans) :: rest)
  refine ⟨p,r,?_⟩
  obtain ⟨body,hfetch,hbody⟩ := fetches_published hstore hanswered
    (hbacked.published.mono hmono)
  refine ⟨body,hread,hbacked.mono hmono,hpath,hfetch,?_,
    eq_or_collision (by simp) (by simp) hbody⟩
  rw [hbody]
  exact hhash

/-- A service of one program. -/
def localServer : Server where
  publicBase := "http://127.0.0.1:38099"
  hook := "bonsol-aggregate-hook.py"
  hookPresent := true

/-- An artifact of four hundred bytes, framed. -/
def sampleInput : Bytes := lengthFrame (List.replicate 400 0)

theorem executed_input_is_committed_sample :
    ∃ (_ : CharData) (history : List Request) (log : Log) (p : Payload) (r : ExecutionRequest)
      (body : Bytes),
      Answered localServer history log ∧ Backed plain (fun _ _ => some (natKey 5)) p r log ∧
        Fetches localServer history r.input body ∧ (sha256 body).val = r.inputHash := by
  let tables := CharData.ascii
  let post := Request.post "/input" 408 sampleInput none
  let d := sha256 sampleInput
  let reply : Json := .obj [("url",.str (inputUrl localServer (Reducer.encodeHex d.val))),
    ("sha256",.str (Reducer.encodeHex d.val))]
  have hurl : (inputUrl localServer (Reducer.encodeHex d.val)).isEmpty = false := by
    rw [← Bool.not_eq_true,String.isEmpty_iff]
    intro h
    have := congrArg String.toList h
    simp [inputUrl,localServer] at this
  obtain ⟨log,hreach,hstored,hexecuted⟩ := plain_prints (natKey 9) (natKey 3).val
    (List.replicate 400 0) [1] (spells_toJson _) (show reply.get "url" = _ from rfl) hurl rfl
  have hanswered : Answered localServer [post] log := by
    intro url framed answer hin
    obtain ⟨rfl,hanswer⟩ := hstored _ _ _ hin
    obtain rfl := Except.ok.inj hanswer
    exact ⟨[],"/input",408,none,[],rfl,by decide,rfl⟩
  obtain ⟨answer,hexecution⟩ := List.exists_mem_of_ne_nil _ hexecuted
  obtain ⟨entry,hin,hsome⟩ := List.mem_filterMap.mp hexecution
  unfold execution at hsome
  split at hsome
  · obtain ⟨p,r,body,-,hbacked,-,hfetches,hdigest,-⟩ :=
      executed_input_is_committed _ _ _ _ _ _ localServer [post] rfl hanswered hreach _ _ _ _ hin
    exact ⟨tables,[post],log,p,r,body,hanswered,hbacked,hfetches,hdigest⟩
  · cases hsome

end Kswarm.Proving
