import Kswarm.Lifecycle.Driving
import Kswarm.Worker.AggregateVerifier

/-! What a command does as long as nothing fails: the transactions it lands, one after the other,
with the manifest it leaves behind each. -/
namespace Kswarm.Lifecycle
open Cli Worker

section Steps
variable {P : Program} {who signer : Digest} {s : Session} {w : World} {put : Put} {e : JobEntry}

lemma saveRunManifest_reaches (m : RunManifest) :
    Reaches (service P who) w (saveRunManifest m) (w.store m) (.done ()) :=
  .step (a := .ok ()) (.inl ⟨rfl,rfl⟩) .start

/-- A step that lands is recorded. -/
lemma sendAndSave_reaches {record : String → JobEntry} {tx : Transaction} {c : Chain}
    (hlands : P.executes w.chain tx c) :
    Reaches (service P who) w (sendAndSave put record tx)
      ((w.land tx c).store (put (record "signature"))) (.done (record "signature")) :=
  .step (a := .ok "signature") (.inl ⟨_,rfl,c,hlands,rfl⟩)
    (.step (a := .ok ()) (.inl ⟨rfl,rfl⟩) .start)

/-- A call that times out, whether or not its transaction landed. -/
def timeout : RpcError := ⟨"ConfirmationTimeout","timed out"⟩

/-- A step that lands although its call raises is not recorded. -/
lemma sendAndSave_raises {record : String → JobEntry} {tx : Transaction} {c : Chain}
    (hlands : P.executes w.chain tx c) :
    Reaches (service P who) w (sendAndSave put record tx) (w.land tx c) (.raise (.rpc timeout)) :=
  .step (a := .error timeout) (.inr ⟨_,rfl,.inr ⟨c,hlands,rfl⟩⟩) .start

lemma openPlannedJob_reaches {args : OpenJobArgs} {c : Chain}
    (hpda : s.jobPda signer e.nonce = e.job)
    (hargs : openArgs (put e).openParameters e = some args)
    (hlands : P.executes w.chain (.openJob signer args) c) :
    Reaches (service P who) w (openPlannedJob s signer put e)
      ((w.land (.openJob signer args) c).store (put (recordOpened e "signature")))
      (.done (recordOpened e "signature")) := by
  unfold openPlannedJob
  rw [if_neg (not_not.mpr hpda),hargs]
  exact sendAndSave_reaches hlands

lemma commitOpenedJob_reaches {inputCid : String} {c : Chain} (hcid : e.inputCid = some inputCid)
    (hlands : P.executes w.chain (.commitInputArtifact signer e.job inputCid) c) :
    Reaches (service P who) w (commitOpenedJob signer put e)
      ((w.land (.commitInputArtifact signer e.job inputCid) c).store
        (put (recordCommitted e "signature")))
      (.done (recordCommitted e "signature")) := by
  unfold commitOpenedJob
  rw [hcid]
  exact sendAndSave_reaches hlands

/-- An entry that is not pending is passed over. -/
lemma driveEntry_pass (h : e.pending = false) : driveEntry s signer put e = .done e := by
  have hp : ¬(e.entryStatus = .jobPlanned ∨ e.entryStatus = .jobOpened) := by
    rw [← pending_iff,h]
    simp
  unfold driveEntry openIfPlanned
  rw [if_neg (fun hs => hp (.inl hs))]
  change (if e.entryStatus = .jobOpened then _ else _) = _
  rw [if_neg (fun hs => hp (.inr hs))]
  rfl

/-- An opened entry is committed. -/
lemma driveEntry_opened {inputCid : String} {c : Chain} (hstatus : e.entryStatus = .jobOpened)
    (hcid : e.inputCid = some inputCid)
    (hlands : P.executes w.chain (.commitInputArtifact signer e.job inputCid) c) :
    Reaches (service P who) w (driveEntry s signer put e)
      ((w.land (.commitInputArtifact signer e.job inputCid) c).store
        (put (recordCommitted e "signature")))
      (.done (recordCommitted e "signature")) := by
  unfold driveEntry openIfPlanned
  rw [if_neg (by simp [hstatus])]
  change Reaches _ _ (if e.entryStatus = .jobOpened then _ else _) _ _
  rw [if_pos hstatus]
  exact commitOpenedJob_reaches hcid hlands

/-- A planned entry is opened and committed. -/
lemma driveEntry_planned {args : OpenJobArgs} {inputCid : String} {c c' : Chain}
    (hstatus : e.entryStatus = .jobPlanned) (hpda : s.jobPda signer e.nonce = e.job)
    (hargs : openArgs (put e).openParameters e = some args) (hcid : e.inputCid = some inputCid)
    (hopens : P.executes w.chain (.openJob signer args) c)
    (hcommits : P.executes c (.commitInputArtifact signer e.job inputCid) c') :
    Reaches (service P who) w (driveEntry s signer put e)
      ((((w.land (.openJob signer args) c).store (put (recordOpened e "signature"))).land
        (.commitInputArtifact signer e.job inputCid) c').store
          (put (recordCommitted (recordOpened e "signature") "signature")))
      (.done (recordCommitted (recordOpened e "signature") "signature")) := by
  unfold driveEntry openIfPlanned
  rw [if_pos hstatus]
  refine (openPlannedJob_reaches hpda hargs hopens).bind.trans ?_
  exact commitOpenedJob_reaches (e := recordOpened e "signature") hcid hcommits

/-- A planned entry that is opened, and whose commit lands although the call raises. -/
lemma driveEntry_commitRaises {args : OpenJobArgs} {inputCid : String} {c c' : Chain}
    (hstatus : e.entryStatus = .jobPlanned) (hpda : s.jobPda signer e.nonce = e.job)
    (hargs : openArgs (put e).openParameters e = some args) (hcid : e.inputCid = some inputCid)
    (hopens : P.executes w.chain (.openJob signer args) c)
    (hcommits : P.executes c (.commitInputArtifact signer e.job inputCid) c') :
    Reaches (service P who) w (driveEntry s signer put e)
      (((w.land (.openJob signer args) c).store (put (recordOpened e "signature"))).land
        (.commitInputArtifact signer e.job inputCid) c') (.raise (.rpc timeout)) := by
  unfold driveEntry openIfPlanned
  rw [if_pos hstatus]
  refine (openPlannedJob_reaches hpda hargs hopens).bind.trans ?_
  have hcid' : (recordOpened e "signature").inputCid = some inputCid := hcid
  change Reaches _ _ (commitOpenedJob signer put (recordOpened e "signature")) _ _
  unfold commitOpenedJob
  rw [hcid']
  exact sendAndSave_raises hcommits

/-- A planned entry whose `open_job` lands although the call raises. -/
lemma driveEntry_raises {args : OpenJobArgs} {c : Chain} (hstatus : e.entryStatus = .jobPlanned)
    (hpda : s.jobPda signer e.nonce = e.job)
    (hargs : openArgs (put e).openParameters e = some args)
    (hopens : P.executes w.chain (.openJob signer args) c) :
    Reaches (service P who) w (driveEntry s signer put e) (w.land (.openJob signer args) c)
      (.raise (.rpc timeout)) := by
  unfold driveEntry openIfPlanned openPlannedJob
  rw [if_pos hstatus,if_neg (not_not.mpr hpda),hargs]
  exact (Reaches.bind (sendAndSave_raises hopens)).trans .start

end Steps

section Walk
variable {W : Type} {S : Service Op Ans W} {w v : W} {turn : Put → JobEntry → Command JobEntry}
  {m : RunManifest}

/-- A loop whose turns do nothing. -/
lemma walkBranches_pass (run : RunManifest) (before rest : List JobEntry)
    (h : ∀ e ∈ rest, ∀ put, turn put e = .done e) :
    walkBranches turn run before rest = .done {run with branchJobs := before ++ rest} := by
  induction rest generalizing before with
  | nil =>
    rw [List.append_nil]
    rfl
  | cons e rest ih =>
    unfold walkBranches
    rw [h e List.mem_cons_self]
    have hrest := ih (before ++ [e]) (fun e' he' => h e' (List.mem_cons_of_mem _ he'))
    rw [List.append_assoc] at hrest
    exact hrest

/-- A loop that only has the aggregate to do. -/
lemma walkEntries_aggregate {e : JobEntry} (hagg : m.aggregate = some e)
    (h : ∀ x ∈ m.branchJobs, ∀ put, turn put x = .done x) :
    walkEntries turn m = turn (fun e => {m with aggregate := some e}) e >>=
      fun e' => .done {m with aggregate := some e'} := by
  unfold walkEntries
  rw [walkBranches_pass m [] m.branchJobs h,Process.done_bind]
  dsimp only
  rw [hagg]
  rfl

/-- A loop whose first turn raises. -/
lemma walkEntries_raise {e : JobEntry} {rest : List JobEntry} {error : CommandError}
    (hb : m.branchJobs = e::rest)
    (hturn : Reaches S w (turn (fun x => {m with branchJobs := x::rest}) e) v (.raise error)) :
    Reaches S w (walkEntries turn m) v (.raise error) := by
  unfold walkEntries
  rw [hb]
  exact (Reaches.bind (Reaches.bind hturn)).trans .start

/-- A loop after its branches. -/
lemma walkEntries_last {run : RunManifest} {a : JobEntry}
    (hbranches : Reaches S w (walkBranches turn m [] m.branchJobs) v (.done run))
    (hagg : run.aggregate = some a) :
    Reaches S w (walkEntries turn m) v (turn (fun e => {run with aggregate := some e}) a >>=
      fun e' => .done {run with aggregate := some e'}) := by
  unfold walkEntries
  refine (Reaches.bind hbranches).trans ?_
  rw [Process.done_bind,hagg]
  exact .start

/-- A loop over one branch and an aggregate that is left alone. -/
lemma walkEntries_branch {e e' a : JobEntry} (hb : m.branchJobs = [e]) (ha : m.aggregate = some a)
    (hturn : Reaches S w (turn (fun x => {m with branchJobs := [x]}) e) v (.done e'))
    (hpass : ∀ put, turn put a = .done a) :
    Reaches S w (walkEntries turn m) v (.done {m with branchJobs := [e']}) := by
  have hbranches : Reaches S w (walkBranches turn m [] m.branchJobs) v
      (.done {m with branchJobs := [e']}) := by
    rw [hb]
    exact (Reaches.bind hturn).trans .start
  refine (walkEntries_last hbranches ha).trans ?_
  rw [hpass,Process.done_bind,← ha]
  exact .start

end Walk

section Commands
variable {P : Program} {who signer : Digest} {s : Session} {w v : World} {put : Put} {e : JobEntry}
  {m m' : RunManifest} {wallet : Option String}

lemma driveRunOpen_reaches
    (h : Reaches (service P who) w (walkEntries (driveEntry s signer) m) v (.done m')) :
    Reaches (service P who) w (driveRunOpen s signer m)
      (v.store {m' with status := some .runOpen}) (.done {m' with status := some .runOpen}) := by
  refine (Reaches.bind h).trans ?_
  exact (saveRunManifest_reaches _).bind

lemma driveRunOpen_raises {error : CommandError}
    (h : Reaches (service P who) w (walkEntries (driveEntry s signer) m) v (.raise error)) :
    Reaches (service P who) w (driveRunOpen s signer m) v (.raise error) :=
  (Reaches.bind h).trans .start

lemma reconcileEntry_pass (h : e.pending = false) : reconcileEntry put e = .done e := if_pos h

/-- A job seen awaiting its artifact was opened. -/
lemma reconcileEntry_awaiting {job : Job} (h : e.pending = true) (hjob : w.chain e.job = some job)
    (howner : job.customer = (put e).customer) (hawait : Awaiting job) :
    Reaches (service P who) w (reconcileEntry put e) w
      (.done {e with status := some .jobOpened}) := by
  unfold reconcileEntry
  rw [if_neg (by simp [h])]
  refine .step (a := .ok (some job)) ⟨rfl,.inl (by rw [hjob])⟩ ?_
  change Reaches _ _ (if job.customer ≠ (put e).customer then _ else _) _ _
  unfold Awaiting at hawait
  rw [if_neg (not_not.mpr howner),if_pos hawait]
  exact .start

lemma runSigner_eq (h : s.wallets (wallet.getD m.customerWallet) = some m.customer) :
    runSigner s wallet m = .done m.customer := by
  unfold runSigner loadWallet
  rw [h]
  change (if m.customer ≠ m.customer then _ else _) = _
  rw [if_neg (not_not.mpr rfl)]
  rfl

/-- `predict resume`, from what it loaded. -/
def resumeLoaded (s : Session) (wallet : Option String) (run : RunManifest) : Command RunManifest :=
  match run.runIsResumable with
  | .error .alreadyOpen => pure run
  | .error reason => .raise (.notResumable reason)
  | .ok () =>
    if run.cluster ≠ s.cluster then .raise (.wrongCluster run.cluster)
    else do
      let signer ← runSigner s wallet run
      let reconciled ← reconcileRunWithChain run
      saveRunManifest reconciled
      driveRunOpen s signer reconciled

/-- `predict resume` of a run that is opening, up to the reconciliation. -/
lemma predictResume_reaches (hfile : w.file = some m) (hopening : m.runIsResumable = .ok ())
    (hcluster : m.cluster = s.cluster)
    (hwallet : s.wallets (wallet.getD m.customerWallet) = some m.customer) :
    Reaches (service P who) w (predictResume s wallet) w (reconcileRunWithChain m >>=
      fun r => saveRunManifest r >>= fun _ => driveRunOpen s m.customer r) := by
  refine .step (a := some m) ⟨hfile.symm,rfl⟩ ?_
  change Reaches _ _ (resumeLoaded s wallet m) _ _
  unfold resumeLoaded
  rw [hopening]
  dsimp only
  rw [if_neg (not_not.mpr hcluster),runSigner_eq hwallet]
  exact .start

end Commands

section FailureFree

/-- What the cluster, IPFS and the hook answer when they work. -/
structure Backends where
  bindHost : Chain → BindHost
  runnerHost : Chain → Runner
  hook : String → Json → String

/-- The answer reports no failure. -/
def Succeeds (B : Backends) : (o : Op) → World → Ans o → Prop
  | .lock,_,answer => answer = true
  | .save _,_,answer => answer = .ok ()
  | .fetchJob _,_,answer => ∃ job : Option Job, answer = .ok job
  | .accountInfos _,_,answer => ∃ infos : List Bool, answer = .ok infos
  | .send _,_,answer => ∃ signature : String, answer = .ok signature
  | .bindHost,w,answer => answer = .ok (B.bindHost w.chain)
  | .runnerHost,w,answer => answer = .ok (B.runnerHost w.chain)
  | .addBytes _ _,_,answer => ∃ cid : String, answer = .ok cid
  | .addJson _ _,_,answer => ∃ cid : String, answer = .ok cid
  | .branchOutput _,_,answer => ∃ output : Json, answer = some output
  | .hook command payload,_,answer => answer = .ok (B.hook command payload)
  | _,_,_ => True

/-- The world on a day without failures. -/
def failureFree (P : Program) (who : Digest) (B : Backends) : Service Op Ans World :=
  (service P who).only (Succeeds B)

/-- Without failures the program is never left unanswered and never raises, and what it returns
is as `post` says. -/
def Finishes (P : Program) (who : Digest) (B : Backends) {ε α : Type} (p : Process Op Ans ε α)
    (w : World) (post : α → World → Prop) : Prop :=
  Safe (failureFree P who B) (fun _ => True)
    (fun o v => ∃ answer u, (failureFree P who B).serves o v answer u)
    (fun r v => ∃ a, r = .ok a ∧ post a v) p w

variable {P : Program} {who : Digest} {B : Backends} {ε α β : Type} {w : World}
  {K K' : World → Prop}

namespace Finishes

lemma done {a : α} {post : α → World → Prop} (hK : Stable (service P who) K) (hw : K w)
    (h : ∀ v, K v → post a v) : Finishes P who B (.done a : Process Op Ans ε α) w post :=
  Safe.done hK hw (fun v hv => ⟨trivial,a,rfl,h v hv⟩)

lemma query {o : Op} {f : Ans o → Process Op Ans ε β} {post : β → World → Prop}
    (hK : Stable (service P who) K) (hw : K w)
    (hserved : ∀ v, K v → ∃ answer u, answers P o v answer u ∧ Succeeds B o v answer)
    (h : ∀ v answer u, K v → answers P o v answer u → Succeeds B o v answer →
      Finishes P who B (f answer) u post) :
    Finishes P who B (Process.query o >>= f) w post :=
  Safe.query hK hw
    (fun v hv => ⟨trivial,hserved v hv,fun answer u hs => h v answer u hv hs.1 hs.2⟩)

lemma andThen {p : Process Op Ans ε α} {f : α → Process Op Ans ε β} {post : α → World → Prop}
    {next : β → World → Prop} (h : Finishes P who B p w post)
    (hok : ∀ a v, post a v → Finishes P who B (f a) v next) :
    Finishes P who B (p >>= f) w next := by
  refine Safe.andThen h ?_ ?_
  · intro a v _ hr
    obtain ⟨a',ha,hpost⟩ := hr
    obtain rfl := Except.ok.inj ha
    exact hok a v hpost
  · intro e v _ hr
    obtain ⟨a',ha,-⟩ := hr
    cases ha

/-- A handler that is not needed. -/
lemma recover {p : Process Op Ans ε α} {f : ε → Process Op Ans ε α} {post : α → World → Prop}
    (h : Finishes P who B p w post) : Finishes P who B (p.recover f) w post := by
  refine Safe.recover (Safe.weaken h ?_)
  rintro r v _ ⟨a,rfl,ha⟩
  exact ⟨a,rfl,ha⟩

end Finishes

/-- A save whose answer is passed on, whatever the caller's exceptions are. -/
lemma save_finishes (raised : String → ε) (m : RunManifest) (hK : Stable (service P who) K)
    (hw : K w) (hK' : Stable (service P who) K') (hstore : ∀ v, K v → K' (v.store m)) :
    Finishes P who B (do
      let answer ← Ask.save m
      Process.lift (answer.mapError raised)) w (fun _ v => K' v) := by
  refine Finishes.query hK hw (fun v _ => ⟨.ok (),v.store m,.inl ⟨rfl,rfl⟩,rfl⟩) ?_
  intro v answer u hv hserve hgood
  obtain rfl : answer = .ok () := hgood
  rcases hserve with ⟨-,rfl⟩ | ⟨_,hbad,-⟩
  · exact Finishes.done hK' (hstore v hv) (fun _ h => h)
  · cases hbad

lemma saveRunManifest_finishes (m : RunManifest) (hK : Stable (service P who) K) (hw : K w)
    (hK' : Stable (service P who) K') (hstore : ∀ v, K v → K' (v.store m)) :
    Finishes P who B (saveRunManifest m) w (fun _ v => K' v) :=
  save_finishes CommandError.file m hK hw hK' hstore

/-- A step the program accepts lands and is recorded. -/
lemma sendAndSave_finishes {put : Put} {record : String → JobEntry} {tx : Transaction}
    (hK : Stable (service P who) K) (hw : K w) (hK' : Stable (service P who) K')
    (haccepts : ∀ v, K v → ∃ c, P.executes v.chain tx c)
    (hland : ∀ v c, K v → P.executes v.chain tx c → K' (v.land tx c))
    (hstore : ∀ v m, K' v → K' (v.store m)) :
    Finishes P who B (sendAndSave put record tx) w
      (fun e v => K' v ∧ ∃ signature, e = record signature) := by
  refine Finishes.query hK hw ?_ ?_
  · intro v hv
    obtain ⟨c,hc⟩ := haccepts v hv
    exact ⟨.ok "signature",v.land tx c,.inl ⟨_,rfl,c,hc,rfl⟩,_,rfl⟩
  · intro v answer u hv hserve hgood
    obtain ⟨signature,rfl⟩ := hgood
    rcases hserve with ⟨_,-,c,hc,rfl⟩ | ⟨_,hbad,-⟩
    · refine (saveRunManifest_finishes _ hK' (hland v c hv hc) hK' (fun v => hstore v _)).andThen ?_
      intro _ v' hv'
      exact Finishes.done hK' hv' (fun v hv => ⟨hv,signature,rfl⟩)
    · cases hbad

end FailureFree

section Sample

lemma sample_opens {c : Chain} {args : OpenJobArgs} (customer : Digest)
    (h : c (natKey args.nonce) = none) :
    sampleProgram.executes c (.openJob customer args)
      (Function.update c (natKey args.nonce) (some (openedJob customer args))) := by
  change (if (c (natKey args.nonce)).isSome = true then none else some _) = some _
  rw [if_neg (by simp [h])]

/-- Others settle an open job. -/
lemma sample_settles {c : Chain} {key : Digest} {job : Job} (who : Digest) (bytes : Bytes)
    (h : c key = some job) (hopen : job.status = jobStatusOpen) :
    sampleProgram.others who c (Function.update c key (some (settledJob job bytes))) := by
  intro x
  by_cases hx : x = key
  · subst hx
    exact .inr ⟨job,bytes,h,hopen,Function.update_self _ _ _⟩
  · exact .inl (Function.update_of_ne hx _ _)

lemma sample_commits {c : Chain} {key : Digest} {job : Job} (inputCid : String)
    (h : c key = some job) (hawait : Awaiting job) :
    sampleProgram.executes c (.commitInputArtifact job.customer key inputCid)
      (Function.update c key (some {job with status := jobStatusOpen, inputCid := inputCid})) := by
  unfold Awaiting at hawait
  exact moveJob_eq_some.mpr ⟨job,h,by simp [hawait],rfl⟩

lemma sample_claims {c : Chain} {key : Digest} {job : Job} (worker : Digest) (h : c key = some job)
    (hopen : job.status = jobStatusOpen) :
    sampleProgram.executes c (.claimJob worker key)
      (Function.update c key (some {job with status := jobStatusClaimed, worker := worker})) :=
  moveJob_eq_some.mpr ⟨job,h,by simp [hopen],rfl⟩

end Sample

end Kswarm.Lifecycle
