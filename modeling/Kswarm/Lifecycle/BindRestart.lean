import Kswarm.Lifecycle.BindAggregate

/-! `predict bind-aggregate` over whole histories: from every ready state it is restartable, and the
two kinds of state that are not ready, each with the run that shows what goes wrong there. -/
namespace Kswarm.Lifecycle
open Cli Worker

section Restart
variable {P : Program} {customer : Digest} {s : Session} {w : World}

/-- One command of a run, stopped anywhere: an open, a resume, or a bind that starts ready. -/
def OpensResumesOrBinds [CharData] (P : Program) (customer : Digest) (h : OpenHost) (o : OpenOptions)
    (t : OpenTerms) (w v : World) : Prop :=
  OpensOrResumes P customer h o t w v ∨
    (BindReady w ∧ ∃ s wallet imageId allowCompleted, s.jobPda = P.jobPda ∧
      Stops (service P customer) (bindAggregateRun s wallet imageId allowCompleted) w v)

/-- The file stays tracked and the openings counted over any such history. -/
lemma tracked_of_history [CharData] {h : OpenHost} {o : OpenOptions} {t : OpenTerms} {run : Run}
    {r : RunShape} (hlaw : Lawful P customer) (hpda : h.jobPda = P.jobPda)
    (hcustomer : h.customer = customer) (hopen : predictOpen h o = .ok (run,r)) {w₀ : World}
    (hstart : w₀.file = none) (hledger : Ledger P customer w₀.chain w₀)
    (hhistory : Relation.ReflTransGen (OpensResumesOrBinds P customer h o t) w₀ w) :
    FileTracked (openedManifest h o t run) w ∧ Ledger P customer w₀.chain w := by
  have hplan := openedManifest_wellFormed (t := t) hlaw hpda hcustomer hopen
  induction hhistory with
  | refl =>
    refine ⟨?_,hledger⟩
    intro m hm
    simp [hstart] at hm
  | tail _ hstep ih =>
    rcases hstep with ⟨s,hs,hstop | ⟨wallet,hstop⟩⟩ | ⟨hready,s,wallet,imageId,allow,hs,hstop⟩
    · have hsafe := predictOpenRun_guards (t := t) hlaw hpda hcustomer hopen hs ih.1
      exact ⟨hsafe.stops hstop,ledger_stops hlaw hsafe ih.2 hstop⟩
    · have hsafe := predictResume_guards hlaw hplan hs wallet ih.1
      exact ⟨hsafe.stops hstop,ledger_stops hlaw hsafe ih.2 hstop⟩
    · have hsafe := bindAggregateRun_guards hlaw hplan hs wallet imageId allow ih.1 hready
      exact ⟨hsafe.stops hstop,ledger_stops hlaw hsafe ih.2 hstop⟩

/-- Every branch job of the manifest is settled. -/
def BranchesSettled (m : RunManifest) (c : Chain) : Prop :=
  ∀ e ∈ m.branchJobs, ∃ job, c e.job = some job ∧ job.status = jobStatusSettled

/-- A settled branch is pending in no manifest that is ready. -/
lemma BindReady.done {m : RunManifest} (h : BindReady w) (hfile : w.file = some m)
    (hsettled : BranchesSettled m w.chain) : ∀ e ∈ m.branchJobs, e.pending = false := by
  intro e he
  by_contra hp
  rw [Bool.not_eq_false] at hp
  have hexact := (h m hfile).1 e he hp
  obtain ⟨job,hjob,hstatus⟩ := hsettled e he
  rcases pending_iff.mp hp with hs | hs
  · simp [hexact.planned hs] at hjob
  · obtain ⟨job',hjob',hawait⟩ := hexact.opened hs
    obtain rfl := Option.some.inj (hjob'.symm.trans hjob)
    simp [Awaiting,hstatus,jobStatusSettled,jobStatusAwaitingArtifact] at hawait

/-- The aggregate of a saved manifest is a job of the plan, not there before the run. -/
lemma Tracked.aggregate {plan m : RunManifest} {c c₀ : Chain} (h : Tracked plan m c)
    (hsome : plan.aggregate.isSome = true)
    (hfresh : ∀ e ∈ plan.runJobEntries, c₀ e.job = none) :
    ∃ e, m.aggregate = some e ∧ c₀ e.job = none := by
  obtain ⟨e₀,he₀⟩ := Option.isSome_iff_exists.mp hsome
  have hsame := h.plans.aggregate
  rw [he₀] at hsame
  obtain ⟨e,he,heq⟩ := Option.map_eq_some_iff.mp hsame
  obtain ⟨hjob,-⟩ := Prod.mk.inj heq
  exact ⟨e,he,by rw [hjob]; exact hfresh e₀ (by simp [RunManifest.runJobEntries,he₀])⟩

/-- An aggregate that is not committed is on its way, or was never bound. -/
lemma Tracked.unbound {plan m : RunManifest} {c : Chain} (h : Tracked plan m c) {e : JobEntry}
    (he : m.aggregate = some e) (hstatus : e.entryStatus ≠ .jobCommitted) :
    e.entryStatus = .jobDeferred ∨ e.entryStatus = .jobPlanned ∨ e.entryStatus = .jobOpened := by
  by_cases hp : e.pending = true
  · exact .inr (pending_iff.mp hp)
  · have hexact := (h.lags e (by simp [RunManifest.runJobEntries,he])).exact (by simpa using hp)
    unfold Exact at hexact
    split at hexact
    · exact .inr (.inl ‹_›)
    · exact .inl ‹_›
    · exact .inr (.inr ‹_›)
    · exact absurd ‹_› hstatus
    · exact absurd hexact id

/-- `predict bind-aggregate` of a run whose aggregate is committed returns at once. -/
lemma bound_finishes {plan m : RunManifest} {e : JobEntry} {B : Backends} {c₀ : Chain}
    {wallet : Option String} {imageId : Digest} {allowCompleted : Bool} (hlaw : Lawful P customer)
    (hplan : WellFormed P customer plan) (htrack : FileTracked plan w)
    (hcount : Ledger P customer c₀ w) (hfile : w.file = some m) (he : m.aggregate = some e)
    (hfresh : c₀ e.job = none) (hcluster : m.cluster = s.cluster)
    (hstatus : e.entryStatus = .jobCommitted) :
    Finishes P customer B (bindAggregateRun s wallet imageId allowCompleted) w
      (AggregateBound P) := by
  have hmem : e ∈ m.runJobEntries := by simp [RunManifest.runJobEntries,he]
  have hstable : Stable (service P customer)
      (fun v => (FileTracked plan v ∧ v.file = some m) ∧ Ledger P customer c₀ v) := by
    intro a b hd h
    exact ⟨⟨stable_fileTracked hlaw hplan a b hd h.1.1,hd.2.1.trans h.1.2⟩,
      stable_ledger hlaw a b hd h.2⟩
  refine (loadPredictRun_finishes hstable ⟨⟨htrack,hfile⟩,hcount⟩ (fun _ h => h.1.2)).andThen ?_
  intro m' v hr
  obtain ⟨rfl,hv⟩ := hr
  rw [if_neg (not_not.mpr hcluster)]
  split
  · rename_i hnone
    simp [he] at hnone
  rename_i e' he'
  obtain rfl : e' = e := Option.some.inj (he'.symm.trans he)
  rw [if_pos hstatus]
  apply Finishes.done hstable hv
  intro v hv
  obtain ⟨⟨htrack,hfile⟩,hcount⟩ := hv
  have hm := htrack m' hfile
  have hexact := (hm.lags e' hmem).exact (by simp [JobEntry.pending,hstatus])
  obtain ⟨job,hjob,hpast,hcid⟩ := hexact.committed hstatus
  refine ⟨e',job,he,hjob,hpast,hcid,?_⟩
  have hkey := (hplan.plans hm.plans).derived e' hmem
  rw [hkey] at hfresh hjob
  rw [hkey,hcount e'.nonce hfresh,if_neg (by simp [hjob])]

/-- `predict bind-aggregate` is restartable from every ready state. Over any history of opens,
resumes and binds, each stopped anywhere and each bind started ready, a bind that starts ready sends
no step whose effect is on chain, and once every branch is settled it finishes with the aggregate
opened once and its artifact committed. -/
theorem bind_aggregate_restartable [CharData] {h : OpenHost} {o : OpenOptions} (t : OpenTerms)
    {run : Run} {r : RunShape} (hlaw : Lawful P customer) (haccepts : Accepts P customer)
    (hpda : h.jobPda = P.jobPda) (hcustomer : h.customer = customer)
    (hopen : predictOpen h o = .ok (run,r)) {w₀ : World} (hstart : w₀.file = none)
    (hlanded : w₀.landed = [])
    (hfresh : ∀ e ∈ (openedManifest h o t run).runJobEntries, w₀.chain e.job = none)
    (hhistory : Relation.ReflTransGen (OpensResumesOrBinds P customer h o t) w₀ w)
    (hready : BindReady w) (hs : s.jobPda = P.jobPda) (wallet : Option String) (imageId : Digest)
    (allowCompleted : Bool) :
    (∀ v transaction next, Reaches (service P customer) w
        (bindAggregateRun s wallet imageId allowCompleted) v (.ask (.send transaction) next) →
      NeverRepeats P (.send transaction) v) ∧
    ∀ (B : Backends) m, w.file = some m → BranchesSettled m w.chain → m.cluster = s.cluster →
      s.wallets (wallet.getD m.customerWallet) = some m.customer →
      (∀ c, P.others customer w.chain c → Binds (B.bindHost c) m imageId allowCompleted) →
      Finishes P customer B (bindAggregateRun s wallet imageId allowCompleted) w
        (AggregateBound P) := by
  have hplan := openedManifest_wellFormed (t := t) hlaw hpda hcustomer hopen
  have hledger : Ledger P customer w₀.chain w₀ := by
    intro n hn
    simp [openings,hlanded,hn]
  obtain ⟨htrack,hcount⟩ := tracked_of_history hlaw hpda hcustomer hopen hstart hledger hhistory
  constructor
  · intro v transaction next hreach
    exact ((bindAggregateRun_guards hlaw hplan hs wallet imageId allowCompleted htrack
      hready).reaches hreach).mayAsk.1
  · intro B m hfile hsettled hcluster hwallet hbinds
    have hm := htrack m hfile
    obtain ⟨e,he,hnone⟩ := hm.aggregate rfl hfresh
    by_cases hstatus : e.entryStatus = .jobCommitted
    · exact bound_finishes hlaw hplan htrack hcount hfile he hnone hcluster hstatus
    · have hwell := hplan.plans hm.plans
      have habsent := ((hready m hfile).2 e he).resolve_left hstatus
      have hjob := hwell.derived e (by simp [RunManifest.runJobEntries,he])
      rw [hjob] at hnone habsent
      have hw : Unopened P customer e.nonce w := ⟨habsent,by rw [hcount e.nonce hnone,if_pos habsent]⟩
      exact bindAggregateRun_finishes hlaw haccepts hs hwell hfile he hcluster hwallet
        (hm.unbound he hstatus) (hready.done hfile hsettled) hw hbinds

end Restart

section Interrupted
variable {P : Program} {who : Digest} {B : Backends} {s : Session} {w : World}

/-- A bind on a day without failures, up to the absence guard. -/
lemma bindAggregateRun_reaches {wallet : Option String} {imageId : Digest} {allowCompleted : Bool}
    {m : RunManifest} {e : JobEntry} {artifact : Bytes} {journal : AggregateJournal} {hash : Digest}
    (hfile : w.file = some m) (hcluster : m.cluster = s.cluster) (he : m.aggregate = some e)
    (hstatus : e.entryStatus = .jobDeferred ∨ e.entryStatus = .jobPlanned)
    (hwallet : s.wallets (wallet.getD m.customerWallet) = some m.customer)
    (hbind : predictBindAggregate {B.bindHost w.chain with imageId} m.toRun allowCompleted =
      .ok (artifact,journal)) (hhash : journal.journalHash = some hash) :
    Reaches (failureFree P who B) w (bindAggregateRun s wallet imageId allowCompleted)
      (w.store (bindManifest m imageId "cid-artifact"
        (bindEntry e imageId "cid-artifact" journal.inputDigest hash)))
      (assertJobsAbsent [e.job] >>= fun _ => driveRunOpen s m.customer
        (bindManifest m imageId "cid-artifact"
          (bindEntry e imageId "cid-artifact" journal.inputDigest hash))) := by
  refine .step (a := some m) ⟨⟨hfile.symm,rfl⟩,trivial⟩ ?_
  change Reaches _ _ (if m.cluster ≠ s.cluster then _ else _) _ _
  rw [if_neg (not_not.mpr hcluster)]
  split
  · rename_i hnone
    simp [he] at hnone
  rename_i e' he'
  obtain rfl : e' = e := Option.some.inj (he'.symm.trans he)
  rw [if_neg (by rcases hstatus with h | h <;> simp [h]),
    if_neg (by rcases hstatus with h | h <;> simp [h]),runSigner_eq hwallet]
  refine .step (a := .ok (B.bindHost w.chain)) ⟨rfl,rfl⟩ ?_
  change Reaches _ _ (Process.lift (Except.mapError _ (predictBindAggregate _ _ _)) >>= _) _ _
  rw [hbind]
  refine .step (a := .ok "cid-artifact") ⟨rfl,_,rfl⟩ ?_
  change Reaches _ _ (Process.lift (require journal.journalHash _) >>= _) _ _
  rw [hhash]
  exact .step (a := .ok ()) ⟨.inl ⟨rfl,rfl⟩,rfl⟩ .start

/-- A bind whose aggregate account does not exist goes on to drive the bound manifest. -/
lemma bindAggregateRun_drives {wallet : Option String} {imageId : Digest} {allowCompleted : Bool}
    {m : RunManifest} {e : JobEntry} {artifact : Bytes} {journal : AggregateJournal} {hash : Digest}
    (hfile : w.file = some m) (hcluster : m.cluster = s.cluster) (he : m.aggregate = some e)
    (hstatus : e.entryStatus = .jobDeferred ∨ e.entryStatus = .jobPlanned)
    (hwallet : s.wallets (wallet.getD m.customerWallet) = some m.customer)
    (hbind : predictBindAggregate {B.bindHost w.chain with imageId} m.toRun allowCompleted =
      .ok (artifact,journal)) (hhash : journal.journalHash = some hash)
    (habsent : w.chain e.job = none) :
    Reaches (service P who) w (bindAggregateRun s wallet imageId allowCompleted)
      (w.store (bindManifest m imageId "cid-artifact"
        (bindEntry e imageId "cid-artifact" journal.inputDigest hash)))
      (driveRunOpen s m.customer (bindManifest m imageId "cid-artifact"
        (bindEntry e imageId "cid-artifact" journal.inputDigest hash))) := by
  have hguard := assertJobsAbsent_reaches (P := P) who (w.store (bindManifest m imageId
    "cid-artifact" (bindEntry e imageId "cid-artifact" journal.inputDigest hash))) [e.job]
  rw [if_neg (by simp [habsent])] at hguard
  exact (bindAggregateRun_reaches hfile hcluster he hstatus hwallet hbind hhash).of_only.trans
    hguard.bind

/-- The guard refuses an account that is there. -/
lemma assertJobsAbsent_refuses {key : Digest} {job : Job} (h : w.chain key = some job)
    {α : Type} {next : Unit → Command α} :
    Reaches (failureFree P who B) w (assertJobsAbsent [key] >>= next) w
      (.raise (.nonceCollision [key])) := by
  have hchunks : accountChunks [key] = [[key]] := by
    simp [accountChunks,multipleAccountsChunk]
  unfold assertJobsAbsent
  rw [hchunks]
  refine .step (a := .ok [true]) ⟨⟨rfl,.inl ?_⟩,_,rfl⟩ .start
  change Except.ok [true] = Except.ok [(w.chain key).isSome]
  rw [h]
  rfl

end Interrupted

section Sample
open Prediction

/-- The cluster as it is, over the sample's store. -/
def sampleBackends : Backends where
  bindHost c := {settledHost (fun _ => []) with fetchJob := fun key => (c key).map Job.toJobAccount}
  runnerHost c := ⟨storeRunner,c,false⟩
  hook _ _ := ""

/-- A binding reads no other account than its branches'. -/
lemma predictBindAggregate_fetch {h : BindHost} {run : Run} {allowCompleted : Bool}
    {fetch : Digest → Option JobAccount}
    (hf : ∀ item ∈ run.branchJobs, ∀ key, readKey item.job = some key → fetch key = h.fetchJob key) :
    predictBindAggregate {h with fetchJob := fetch} run allowCompleted =
      predictBindAggregate h run allowCompleted := by
  have hcollect : ∀ items : List BranchJob, (∀ item ∈ items, item ∈ run.branchJobs) →
      items.mapM (collectBranch {h with fetchJob := fetch} allowCompleted) =
        items.mapM (collectBranch h allowCompleted) := by
    intro items hmem
    induction items with
    | nil => rfl
    | cons item items ih =>
      have hitem : collectBranch {h with fetchJob := fetch} allowCompleted item =
          collectBranch h allowCompleted item := by
        unfold collectBranch
        cases hkey : readKey item.job with
        | none => rfl
        | some key =>
          have hsame := hf item (hmem item List.mem_cons_self) key hkey
          simp only [require,ok_bind,hsame]
      rw [List.mapM_cons,List.mapM_cons,hitem,ih (fun x hx => hmem x (List.mem_cons_of_mem _ hx))]
  unfold predictBindAggregate collectBranchReceipts
  rw [hcollect run.branchJobs (fun _ h => h)]
  rfl

/-- The sample run binds once its branch settled with what an honest worker answers. -/
lemma sample_bindable : let _ := CharData.ascii
    ∃ run r b bytes, predictOpen sampleHost meanOptions = .ok (run,r) ∧ run.branchJobs = [b] ∧
      b.nonce = 7 ∧ ∀ (c : Chain) job, job.verifierAttestationHash = none →
        c (natKey 7) = some (settledJob job bytes) →
        ∃ artifact journal, predictBindAggregate {sampleBackends.bindHost c with imageId := natKey 2}
          run false = .ok (artifact,journal) := by
  let _ := CharData.ascii
  obtain ⟨run,r,branches,x,hopen,hx,hc⟩ := mean_settles
  obtain ⟨artifact,journal,cid,hbind,-⟩ := (predictOpen_ok hopen).settled_checked hx hc
  obtain ⟨b,hb,hn,hkeyText⟩ := single_branch hopen
  refine ⟨run,r,b,(x 0).resultBytes,hopen,hb,hn,?_⟩
  intro c job hnone hjob
  refine ⟨artifact,journal,?_⟩
  rw [← hbind]
  apply predictBindAggregate_fetch (h := settledHost (fun i => (x i).resultBytes))
  intro item hitem key hkey
  rw [hb] at hitem
  obtain rfl := List.mem_singleton.mp hitem
  rw [hkeyText,readKey_keyText] at hkey
  obtain rfl := Option.some.inj hkey
  change (c (natKey 7)).map Job.toJobAccount = some _
  rw [hjob,← hnone]
  rfl

/-- The sample's branch settles, whether or not the open saw its commit land. -/
lemma sample_settled [CharData] {run : Run} {r : RunShape} {b : BranchJob} (bytes : Bytes)
    (hopen : predictOpen sampleHost meanOptions = .ok (run,r)) (hb : run.branchJobs = [b]) :
    ∃ c : Chain, c (natKey b.nonce) = some (settledJob (committedJob b) bytes) ∧
      (∀ key, key ≠ natKey b.nonce → c key = none) ∧
      Stops (service sampleProgram (natKey 1))
        (predictOpenRun sampleSession sampleHost meanOptions sampleTerms) emptyWorld
        (sampleWorld (doneRun run b) b c) ∧
      Stops (service sampleProgram (natKey 1))
        (predictOpenRun sampleSession sampleHost meanOptions sampleTerms) emptyWorld
        (sampleWorld (laggingRun run b) b c) := by
  obtain ⟨c₂,hjob₂,hother₂,hdone,hlag⟩ := sample_committed hopen hb
  obtain ⟨c,hsettles,hjob,hother⟩ : ∃ c, sampleProgram.others (natKey 1) c₂ c ∧
      c (natKey b.nonce) = some (settledJob (committedJob b) bytes) ∧
      ∀ key, key ≠ natKey b.nonce → c key = none :=
    ⟨_,sample_settles (natKey 1) bytes hjob₂ rfl,Function.update_self _ _ _,
      fun key hne => (Function.update_of_ne hne _ _).trans (hother₂ key hne)⟩
  exact ⟨c,hjob,hother,hdone.drift ⟨hsettles,rfl,rfl,rfl⟩,hlag.drift ⟨hsettles,rfl,rfl,rfl⟩⟩

lemma natKey_ne : natKey 8 ≠ natKey 7 := by
  intro h
  have := natKey_inj (by simp [nonceMax]) (by simp [nonceMax]) h
  omega

/-- The sample's commands read back the run they planned. -/
lemma doneRun_toRun [CharData] {run : Run} {r : RunShape} {b : BranchJob}
    (hopen : predictOpen sampleHost meanOptions = .ok (run,r)) (hb : run.branchJobs = [b]) :
    (doneRun run b).toRun = run ∧ (laggingRun run b).toRun = run := by
  have h := openedManifest_toRun sampleTerms hopen
  simp only [RunManifest.toRun,openedManifest,hb,List.map_cons,List.map_nil] at h
  exact ⟨h,h⟩

/-- The sample's aggregate entry once it is bound. -/
abbrev boundEntry (journal : AggregateJournal) (hash : Digest) : JobEntry :=
  bindEntry (aggregateEntry sampleHost sampleTerms 8) (natKey 2) "cid-artifact" journal.inputDigest hash

/-- The sample run once its aggregate is bound. -/
abbrev boundRun (m : RunManifest) (journal : AggregateJournal) (hash : Digest) : RunManifest :=
  bindManifest m (natKey 2) "cid-artifact" (boundEntry journal hash)

/-- The sample's bind, up to its first transaction. -/
lemma sample_bind_drives {m : RunManifest} {b : BranchJob} {c : Chain} {artifact : Bytes}
    {journal : AggregateJournal} {hash : Digest} (hcluster : m.cluster = "local")
    (he : m.aggregate = some (aggregateEntry sampleHost sampleTerms 8))
    (hcustomer : m.customer = natKey 1)
    (hbind : predictBindAggregate {sampleBackends.bindHost c with imageId := natKey 2} m.toRun false =
      .ok (artifact,journal)) (hhash : journal.journalHash = some hash)
    (habsent : c (natKey 8) = none) :
    Reaches (service sampleProgram (natKey 1)) (sampleWorld m b c)
      (bindAggregateRun sampleSession none (natKey 2) false)
      ((sampleWorld m b c).store (boundRun m journal hash))
      (driveRunOpen sampleSession (natKey 1) (boundRun m journal hash)) := by
  have h : Reaches (service sampleProgram (natKey 1)) (sampleWorld m b c)
      (bindAggregateRun sampleSession none (natKey 2) false) _ _ :=
    bindAggregateRun_drives (B := sampleBackends) rfl hcluster he (.inl rfl)
      (congrArg some hcustomer.symm) hbind hhash habsent
  rwa [hcustomer] at h

/-- A bind of the sample whose aggregate account exists is refused. -/
lemma sample_bind_refused {m : RunManifest} {e : JobEntry} {job : Job} {w : World} {artifact : Bytes}
    {journal : AggregateJournal} {hash : Digest} (hfile : w.file = some m)
    (hcluster : m.cluster = "local") (he : m.aggregate = some e)
    (hstatus : e.entryStatus = .jobPlanned) (hcustomer : m.customer = natKey 1)
    (hbind : predictBindAggregate {sampleBackends.bindHost w.chain with imageId := natKey 2} m.toRun
      false = .ok (artifact,journal)) (hhash : journal.journalHash = some hash)
    (hjob : w.chain e.job = some job) :
    ¬Finishes sampleProgram (natKey 1) sampleBackends
      (bindAggregateRun sampleSession none (natKey 2) false) w (AggregateBound sampleProgram) := by
  intro hfinish
  have hreach : Reaches (failureFree sampleProgram (natKey 1) sampleBackends) w
      (bindAggregateRun sampleSession none (natKey 2) false) _ _ :=
    bindAggregateRun_reaches hfile hcluster he (.inr hstatus) (congrArg some hcustomer.symm) hbind
      hhash
  have hrefused := hreach.trans (assertJobsAbsent_refuses (w := w.store _) hjob)
  obtain ⟨_,hbad,-⟩ := (hfinish.reaches hrefused _ (Service.drifts_refl _ _)).2
  cases hbad

lemma sampleProgram_accepts (customer : Digest) : Accepts sampleProgram customer := by
  refine ⟨?_,?_⟩
  · intro c args hnone
    exact ⟨_,sample_opens customer hnone⟩
  · intro c key job inputCid hjob hawait howner
    subst howner
    exact ⟨_,sample_commits inputCid hjob hawait⟩

/-- A manifest with no branch pending and no aggregate account can be bound. -/
lemma bindReady_of_absent {w : World} {m : RunManifest} {e : JobEntry} (hfile : w.file = some m)
    (hbranches : ∀ x ∈ m.branchJobs, x.pending = false) (he : m.aggregate = some e)
    (habsent : w.chain e.job = none) : BindReady w := by
  intro m' hm'
  obtain rfl := Option.some.inj (hfile.symm.trans hm')
  refine ⟨?_,?_⟩
  · intro x hx hp
    simp [hbranches x hx] at hp
  · intro e' he'
    obtain rfl := Option.some.inj (he.symm.trans he')
    exact .inr habsent

/-- A bind of the sample stopped right after its save, and the rerun that finishes it. -/
theorem bind_aggregate_restartable_sample : let _ := CharData.ascii
    ∃ w₁ w₂,
      OpensOrResumes sampleProgram (natKey 1) sampleHost meanOptions sampleTerms emptyWorld w₁ ∧
      Stops (service sampleProgram (natKey 1)) (bindAggregateRun sampleSession none (natKey 2) false)
        w₁ w₂ ∧
      Finishes sampleProgram (natKey 1) sampleBackends
        (bindAggregateRun sampleSession none (natKey 2) false) w₂ (AggregateBound sampleProgram) := by
  let _ := CharData.ascii
  obtain ⟨run,r,b,bytes,hopen,hb,hn,hbinds⟩ := sample_bindable
  obtain ⟨c,hjob,hother,hdone,-⟩ := sample_settled bytes hopen hb
  obtain ⟨hrun,-⟩ := doneRun_toRun hopen hb
  have habsent := hother (natKey 8) (by rw [hn]; exact natKey_ne)
  obtain ⟨artifact,journal,hbind⟩ := hbinds c (committedJob b) rfl (hn ▸ hjob)
  obtain ⟨hash,hhash⟩ := bound_journalHash hbind
  rw [← hrun] at hbind
  have hstop : Stops (service sampleProgram (natKey 1))
      (bindAggregateRun sampleSession none (natKey 2) false) (sampleWorld (doneRun run b) b c)
      ((sampleWorld (doneRun run b) b c).store (boundRun (doneRun run b) journal hash)) :=
    ⟨_,sample_bind_drives rfl rfl rfl hbind hhash habsent⟩
  have hopened : OpensOrResumes sampleProgram (natKey 1) sampleHost meanOptions sampleTerms
      emptyWorld (sampleWorld (doneRun run b) b c) := ⟨sampleSession,rfl,.inl hdone⟩
  have hbranches : ∀ x ∈ (doneRun run b).branchJobs, x.pending = false := by
    intro x hx
    obtain rfl := List.mem_singleton.mp hx
    rfl
  have hready : BindReady (sampleWorld (doneRun run b) b c) :=
    bindReady_of_absent (e := aggregateEntry sampleHost sampleTerms 8) rfl hbranches rfl habsent
  have hready' : BindReady
      ((sampleWorld (doneRun run b) b c).store (boundRun (doneRun run b) journal hash)) :=
    bindReady_of_absent (e := boundEntry journal hash) rfl hbranches rfl habsent
  refine ⟨_,_,hopened,hstop,?_⟩
  refine (bind_aggregate_restartable sampleTerms (sampleProgram_lawful (natKey 1))
    (sampleProgram_accepts (natKey 1)) rfl rfl hopen rfl rfl (fun _ _ => rfl)
    (.tail (.single (.inl hopened)) (.inr ⟨hready,sampleSession,none,natKey 2,false,rfl,hstop⟩))
    hready' rfl none (natKey 2) false).2 sampleBackends _ rfl ?_ rfl rfl ?_
  · intro e he
    obtain rfl := List.mem_singleton.mp he
    exact ⟨_,hjob,rfl⟩
  · intro c' hc'
    have hsame : c' (natKey b.nonce) = some (settledJob (committedJob b) bytes) := by
      rcases hc' (natKey b.nonce) with hkept | ⟨job,_,hjob',hopen',-⟩
      · exact hkept.trans hjob
      · obtain rfl := Option.some.inj (hjob'.symm.trans hjob)
        simp [settledJob,jobStatusSettled,jobStatusOpen] at hopen'
    obtain ⟨artifact',journal',hbind'⟩ := hbinds c' (committedJob b) rfl (hn ▸ hsame)
    have hrun₂ : (boundRun (doneRun run b) journal hash).toRun = run := hrun
    rw [← hrun₂] at hbind'
    exact ⟨_,hbind'⟩

/-- A bind repeats a commit that was confirmed on chain, where the open did not see it land; and a
bind whose `open_job` landed is refused ever after. -/
theorem bind_aggregate_repeats : let _ := CharData.ascii
    (∃ w v key job inputCid next,
      OpensOrResumes sampleProgram (natKey 1) sampleHost meanOptions sampleTerms emptyWorld w ∧
      Reaches (service sampleProgram (natKey 1)) w
        (bindAggregateRun sampleSession none (natKey 2) false) v
        (.ask (.send (.commitInputArtifact (natKey 1) key inputCid)) next) ∧
      v.chain key = some job ∧ ¬Awaiting job ∧ job.inputCid = inputCid) ∧
    ∃ w₁ w₂ m,
      OpensOrResumes sampleProgram (natKey 1) sampleHost meanOptions sampleTerms emptyWorld w₁ ∧
      Stops (service sampleProgram (natKey 1)) (bindAggregateRun sampleSession none (natKey 2) false)
        w₁ w₂ ∧ w₂.file = some m ∧ BranchesSettled m w₂.chain ∧
      ¬Finishes sampleProgram (natKey 1) sampleBackends
        (bindAggregateRun sampleSession none (natKey 2) false) w₂ (AggregateBound sampleProgram) := by
  let _ := CharData.ascii
  obtain ⟨run,r,b,bytes,hopen,hb,hn,hbinds⟩ := sample_bindable
  obtain ⟨c,hjob,hother,hdone,hlag⟩ := sample_settled bytes hopen hb
  obtain ⟨hrun,hrun'⟩ := doneRun_toRun hopen hb
  have habsent := hother (natKey 8) (by rw [hn]; exact natKey_ne)
  have hpast : ∀ b, ¬Awaiting (settledJob (committedJob b) bytes) := by
    intro b
    simp [Awaiting,settledJob,jobStatusSettled,jobStatusAwaitingArtifact]
  obtain ⟨artifact,journal,hbind⟩ := hbinds c (committedJob b) rfl (hn ▸ hjob)
  obtain ⟨hash,hhash⟩ := bound_journalHash hbind
  constructor
  · rw [← hrun'] at hbind
    have hreach := sample_bind_drives (b := b) rfl rfl rfl hbind hhash habsent
    exact ⟨_,_,_,_,b.inputCid,_,⟨sampleSession,rfl,.inl hlag⟩,hreach,hjob,hpast _,rfl⟩
  · rw [← hrun] at hbind
    have hreach := sample_bind_drives (b := b) rfl rfl rfl hbind hhash habsent
    -- The aggregate's `open_job` lands and its call raises; the rerun finds the account.
    obtain ⟨args,hargs⟩ : ∃ args, openArgs (doneRun run b).openParameters
        (boundEntry journal hash) = some args := ⟨_,rfl⟩
    have hnonce : args.nonce = 8 := openArgs_nonce hargs
    obtain ⟨c',hopens,hagg,hkept⟩ : ∃ c', sampleProgram.executes c (.openJob (natKey 1) args) c' ∧
        c' (natKey 8) = some (openedJob (natKey 1) args) ∧
        c' (natKey b.nonce) = some (settledJob (committedJob b) bytes) := by
      refine ⟨_,sample_opens (natKey 1) (by rw [hnonce]; exact habsent),?_,?_⟩
      · rw [hnonce,Function.update_self]
      · rw [hnonce,hn,Function.update_of_ne natKey_ne.symm,← hn,hjob]
    have hwalk : Reaches (service sampleProgram (natKey 1))
        ((sampleWorld (doneRun run b) b c).store (boundRun (doneRun run b) journal hash))
        (walkEntries (driveEntry sampleSession (natKey 1)) (boundRun (doneRun run b) journal hash))
        (((sampleWorld (doneRun run b) b c).store (boundRun (doneRun run b) journal hash)).land
          (.openJob (natKey 1) args) c') (.raise (.rpc timeout)) := by
      rw [walkEntries_aggregate rfl (fun x hx put => driveEntry_pass (by
        obtain rfl := List.mem_singleton.mp hx
        rfl))]
      exact (driveEntry_raises rfl rfl hargs hopens).bind
    have hstop := hreach.trans (driveRunOpen_raises hwalk)
    have hrun₂ : (boundRun (doneRun run b) journal hash).toRun = run := hrun
    obtain ⟨artifact',journal',hbind'⟩ := hbinds c' (committedJob b) rfl (hn ▸ hkept)
    obtain ⟨hash',hhash'⟩ := bound_journalHash hbind'
    rw [← hrun₂] at hbind'
    refine ⟨sampleWorld (doneRun run b) b c,
      ((sampleWorld (doneRun run b) b c).store (boundRun (doneRun run b) journal hash)).land
        (.openJob (natKey 1) args) c',boundRun (doneRun run b) journal hash,
      ⟨sampleSession,rfl,.inl hdone⟩,⟨_,hstop⟩,rfl,?_,?_⟩
    · intro e he
      obtain rfl := List.mem_singleton.mp he
      exact ⟨_,hkept,rfl⟩
    · exact sample_bind_refused rfl rfl rfl rfl rfl hbind' hhash' hagg

end Sample

end Kswarm.Lifecycle
