import Kswarm.Lifecycle.Resume
import Kswarm.Mirror.Agreement

/-! `predict bind-aggregate` started again after a stop. It drives the manifest as it finds it, so it
repeats no step only where the pending branches are where the manifest says and the aggregate
account is not there yet; from such a state it also finishes. -/
namespace Kswarm.Lifecycle
open Cli Worker

section Guards
variable {P : Program} {customer : Digest} {plan : RunManifest} {s : Session} {w : World}

/-- The state `predict bind-aggregate` can be started in: no pending branch has moved on from where
the manifest has it, and the aggregate is committed or its account does not exist. -/
def BindReady (w : World) : Prop :=
  ∀ m, w.file = some m →
    (∀ e ∈ m.branchJobs, e.pending = true → Exact (w.chain e.job) e) ∧
    ∀ e, m.aggregate = some e → e.entryStatus = .jobCommitted ∨ w.chain e.job = none

/-- A loaded manifest that can be bound. -/
structure Bindable (plan m : RunManifest) (e : JobEntry) (w : World) : Prop where
  tracked : FileTracked plan w
  saved : w.file = some m
  branches : ∀ x ∈ m.branchJobs, Exact (w.chain x.job) x
  absent : w.chain e.job = none

lemma stable_bindable (hlaw : Lawful P customer) (hplan : WellFormed P customer plan)
    {m : RunManifest} {e : JobEntry} (he : m.aggregate = some e) :
    Stable (service P customer) (Bindable plan m e) := by
  intro w v hd h
  have hm := hplan.plans (h.tracked m h.saved).plans
  refine ⟨stable_fileTracked hlaw hplan w v hd h.tracked,hd.2.1.trans h.saved,?_,?_⟩
  · intro x hx
    exact (h.branches x hx).keeps (keeps_of_drift hlaw hm hd (List.mem_append_left _ hx))
  · exact (keeps_of_drift hlaw hm hd (by simp [RunManifest.runJobEntries,he])).none_iff.mpr h.absent

/-- Binding a manifest whose aggregate account does not exist leaves every entry exact. -/
lemma Bindable.ahead {m : RunManifest} {e : JobEntry} (h : Bindable plan m e w)
    (he : m.aggregate = some e) (imageId : Digest) (inputCid : String)
    (inputDigest journalHash : Digest) :
    Ahead plan (bindManifest m imageId inputCid
      (bindEntry e imageId inputCid inputDigest journalHash)) w := by
  have hplans := (h.tracked m h.saved).plans
  refine ⟨h.tracked,⟨hplans.customer,hplans.branches,?_⟩,?_,by simp [RunManifest.runStatus,bindManifest]⟩
  · rw [← hplans.aggregate,he]
    rfl
  · intro x hx
    rcases List.mem_append.mp hx with hb | ha
    · exact h.branches x hb
    · obtain rfl := List.mem_singleton.mp ha
      exact h.absent

lemma stable_bindReady (hlaw : Lawful P customer) (hplan : WellFormed P customer plan) :
    Stable (service P customer) (fun v => FileTracked plan v ∧ BindReady v) := by
  intro w v hd h
  refine ⟨stable_fileTracked hlaw hplan w v hd h.1,?_⟩
  intro m hm
  rw [hd.2.1] at hm
  have hwell := hplan.plans (h.1 m hm).plans
  obtain ⟨hb,ha⟩ := h.2 m hm
  refine ⟨?_,?_⟩
  · intro x hx hp
    exact (hb x hx hp).keeps (keeps_of_drift hlaw hwell hd (List.mem_append_left _ hx))
  · intro e he
    refine (ha e he).imp_right ?_
    intro hnone
    exact (keeps_of_drift hlaw hwell hd (by simp [RunManifest.runJobEntries,he])).none_iff.mpr hnone

/-- A ready state whose aggregate is still to be bound. -/
lemma BindReady.bindable {m : RunManifest} {e : JobEntry} (h : BindReady w)
    (htrack : FileTracked plan w) (hfile : w.file = some m) (he : m.aggregate = some e)
    (hstatus : e.entryStatus ≠ .jobCommitted) : Bindable plan m e w := by
  obtain ⟨hb,ha⟩ := h m hfile
  refine ⟨htrack,hfile,?_,(ha e he).resolve_left hstatus⟩
  intro x hx
  by_cases hp : x.pending = true
  · exact hb x hx hp
  · exact ((htrack m hfile).lags x (List.mem_append_left _ hx)).exact (by simpa using hp)

/-- `predict bind-aggregate` from a ready state keeps the file tracked wherever it stops, and
repeats no step. -/
theorem bindAggregateRun_guards (hlaw : Lawful P customer) (hplan : WellFormed P customer plan)
    (hs : s.jobPda = P.jobPda) (wallet : Option String) (imageId : Digest) (allowCompleted : Bool)
    (hw : FileTracked plan w) (hready : BindReady w) :
    Guards P customer plan (bindAggregateRun s wallet imageId allowCompleted) w
      (fun _ _ => True) := by
  refine (loadPredictRun_guards (stable_bindReady hlaw hplan) (fun _ h => h.1)
    ⟨hw,hready⟩).andThen ?_ (by simp)
  intro m v _ hr
  obtain ⟨⟨htrack,hbind⟩,hfile⟩ := hr m rfl
  split
  · exact refuse hlaw hplan htrack _
  split
  · exact refuse hlaw hplan htrack _
  rename_i e he
  split
  · exact Safe.done (stable_fileTracked hlaw hplan) htrack (fun v hv => ⟨hv,fun _ _ => trivial⟩)
  rename_i hstatus
  split
  · exact refuse hlaw hplan htrack _
  have hstable := stable_bindable hlaw hplan he
  refine (runSigner_guards hlaw hplan hstable (fun _ h => h.tracked) wallet m
    (hbind.bindable htrack hfile he hstatus)).andThen ?_ (by simp)
  intro signer v₁ _ hr
  obtain ⟨hv₁,rfl⟩ := hr signer rfl
  apply Safe.query hstable hv₁
  intro v₂ hv₂
  refine ⟨hv₂.tracked,⟨trivial,trivial⟩,?_⟩
  intro answer v₃ hserve
  obtain rfl : v₃ = v₂ := hserve
  refine Safe.lift ?_ (fun error _ => refuse hlaw hplan hv₂.tracked error)
  intro host _
  refine Safe.lift ?_ (fun error _ => refuse hlaw hplan hv₂.tracked error)
  intro bound _
  apply Safe.query hstable hv₂
  intro v₄ hv₄
  refine ⟨hv₄.tracked,⟨trivial,trivial⟩,?_⟩
  intro added v₅ hserve
  obtain rfl : v₅ = v₄ := hserve
  refine Safe.lift ?_ (fun error _ => refuse hlaw hplan hv₄.tracked error)
  intro inputCid _
  refine Safe.lift ?_ (fun error _ => refuse hlaw hplan hv₄.tracked error)
  intro journalHash _
  have hahead := hv₄.ahead he imageId inputCid bound.2.inputDigest journalHash
  refine (saveRunManifest_guards hlaw hplan hahead).andThen ?_ (by simp)
  intro _ v₆ _ hr
  have hsynced := hr () rfl
  have hwell := hplan.plans (hv₄.tracked m hv₄.saved).plans
  have hjobs : ∀ job ∈ [e.job], ∃ n, job = P.jobPda customer n := by
    intro job hmem
    obtain rfl := List.mem_singleton.mp hmem
    exact ⟨e.nonce,hwell.derived e (by simp [RunManifest.runJobEntries,he])⟩
  refine (assertJobsAbsent_guards hlaw hjobs (stable_synced hlaw hplan _)
    (fun _ h => h.tracked) hsynced).andThen ?_ (by simp)
  intro _ v₇ _ hr
  rw [hwell.owner]
  exact (driveRunOpen_guards hlaw hplan hs (hr () rfl).1).weaken
    (fun _ _ _ _ _ _ => trivial)

end Guards

section Ledger
variable {P : Program} {customer : Digest} {plan : RunManifest} {c₀ : Chain} {w v : World}

/-- The transaction opens the job at an address. -/
def opensAt (P : Program) (key : Digest) : Transaction → Bool
  | .openJob who args => decide (P.jobPda who args.nonce = key)
  | _ => false

/-- How often the commands opened the job at an address. -/
def openings (P : Program) (key : Digest) (w : World) : ℕ := w.landed.countP (opensAt P key)

/-- A job that was not there at first was opened once if it is there now, else never. -/
def Ledger (P : Program) (customer : Digest) (c₀ : Chain) (w : World) : Prop :=
  ∀ n, c₀ (P.jobPda customer n) = none →
    openings P (P.jobPda customer n) w =
      if w.chain (P.jobPda customer n) = none then 0 else 1

lemma openings_land (key : Digest) (transaction : Transaction) (c : Chain) :
    openings P key (w.land transaction c) =
      openings P key w + if opensAt P key transaction then 1 else 0 := by
  unfold openings World.land
  rw [List.countP_append,List.countP_singleton]

lemma stable_ledger (hlaw : Lawful P customer) :
    Stable (service P customer) (Ledger P customer c₀) := by
  intro w v hd h n hn
  have hkeeps := hlaw.others _ _ hd.1 n
  have hlanded : openings P (P.jobPda customer n) v = openings P (P.jobPda customer n) w := by
    unfold openings
    rw [hd.2.2.1]
  rw [hlanded,h n hn]
  simp only [hkeeps.none_iff]

/-- The customer's own steps keep the count. -/
lemma Ledger.lands (hlaw : Lawful P customer) {transaction : Transaction}
    (hown : OwnSteps customer (.send transaction)) (h : Ledger P customer c₀ w)
    (hland : Lands P transaction w v) : Ledger P customer c₀ v := by
  obtain ⟨c,hex,rfl⟩ := hland
  intro n hn
  have hbefore := h n hn
  change openings P _ (w.land transaction c) = if c _ = none then 0 else 1
  rw [openings_land,hbefore]
  cases transaction with
  | openJob who args =>
    obtain rfl : who = customer := hown
    obtain ⟨hnone,job,rfl,-,-⟩ := hlaw.opens _ _ _ hex
    by_cases hkey : P.jobPda who args.nonce = P.jobPda who n
    · rw [hkey] at hnone
      simp [opensAt,hkey,hnone]
    · have hne : P.jobPda who n ≠ P.jobPda who args.nonce := fun h => hkey h.symm
      simp [opensAt,hkey,Function.update_of_ne hne]
  | commitInputArtifact who key inputCid =>
    obtain rfl : who = customer := hown
    obtain ⟨job,job',hjob,-,rfl,-,-,-⟩ := hlaw.commits _ _ _ _ hex
    by_cases hkey : P.jobPda who n = key
    · subst hkey
      simp [opensAt,hjob]
    · simp [opensAt,Function.update_of_ne hkey]
  | cancelOpenJob who key => exact absurd hown id
  | claimJob worker key => exact absurd hown id
  | submitReceipt worker key outputCid resultBytes => exact absurd hown id

/-- A command that only takes the customer's own steps keeps the count wherever it stops. -/
lemma ledger_stops {α : Type} {p : Command α} {post : α → World → Prop}
    (hlaw : Lawful P customer) (hp : Guards P customer plan p w post)
    (h : Ledger P customer c₀ w) (hstop : Stops (service P customer) p w v) :
    Ledger P customer c₀ v := by
  refine ((hp.strengthen (stable_ledger hlaw) h ?_).stops hstop).2
  intro o v a u _ hmay hv hserve
  rcases answers_moves hserve with ⟨hchain,hlanded⟩ | ⟨transaction,rfl,hland⟩
  · intro n hn
    rw [hchain,openings,hlanded]
    exact hv n hn
  · exact hv.lands hlaw hmay.2 hland

end Ledger

section Finishing
variable {P : Program} {customer : Digest} {B : Backends} {s : Session} {w : World} {n : ℕ}

/-- The program takes the customer's steps where they are due. -/
structure Accepts (P : Program) (customer : Digest) : Prop where
  opens : ∀ c args, c (P.jobPda customer args.nonce) = none →
    ∃ c', P.executes c (.openJob customer args) c'
  commits : ∀ c key job inputCid, c key = some job → Awaiting job → job.customer = customer →
    ∃ c', P.executes c (.commitInputArtifact customer key inputCid) c'

/-- The customer's job of a nonce was never opened. -/
def Unopened (P : Program) (customer : Digest) (n : ℕ) (w : World) : Prop :=
  w.chain (P.jobPda customer n) = none ∧ openings P (P.jobPda customer n) w = 0

/-- It was opened once, by the customer, and awaits its artifact. -/
def OpenedOnce (P : Program) (customer : Digest) (n : ℕ) (w : World) : Prop :=
  (∃ job, w.chain (P.jobPda customer n) = some job ∧ Awaiting job ∧ job.customer = customer) ∧
    openings P (P.jobPda customer n) w = 1

/-- It was opened once, and its artifact is committed. -/
def CommittedOnce (P : Program) (customer : Digest) (n : ℕ) (inputCid : String) (w : World) : Prop :=
  (∃ job, w.chain (P.jobPda customer n) = some job ∧ ¬Awaiting job ∧ job.inputCid = inputCid) ∧
    openings P (P.jobPda customer n) w = 1

lemma openings_drift {v : World} (hd : (service P customer).drifts w v) (key : Digest) :
    openings P key v = openings P key w := by
  unfold openings
  rw [hd.2.2.1]

lemma stable_unopened (hlaw : Lawful P customer) :
    Stable (service P customer) (Unopened P customer n) := by
  intro w v hd h
  exact ⟨(hlaw.others _ _ hd.1 n).none_iff.mpr h.1,(openings_drift hd _).trans h.2⟩

lemma stable_openedOnce (hlaw : Lawful P customer) :
    Stable (service P customer) (OpenedOnce P customer n) := by
  intro w v hd h
  obtain ⟨⟨job,hjob,hawait,howner⟩,hcount⟩ := h
  have hkeeps := hlaw.others _ _ hd.1 n
  rw [hjob] at hkeeps
  exact ⟨⟨job,hkeeps.awaiting hawait,hawait,howner⟩,(openings_drift hd _).trans hcount⟩

lemma stable_committedOnce (hlaw : Lawful P customer) (inputCid : String) :
    Stable (service P customer) (CommittedOnce P customer n inputCid) := by
  intro w v hd h
  obtain ⟨⟨job,hjob,hpast,hcid⟩,hcount⟩ := h
  have hkeeps := hlaw.others _ _ hd.1 n
  rw [hjob] at hkeeps
  obtain ⟨job',hjob',hpast',hcid'⟩ := hkeeps.past hpast
  exact ⟨⟨job',hjob',hpast',hcid'.trans hcid⟩,(openings_drift hd _).trans hcount⟩

lemma Unopened.lands (hlaw : Lawful P customer) {args : OpenJobArgs} {c : Chain}
    (hn : args.nonce = n) (h : Unopened P customer n w)
    (hex : P.executes w.chain (.openJob customer args) c) :
    OpenedOnce P customer n (w.land (.openJob customer args) c) := by
  subst hn
  obtain ⟨-,job,rfl,hawait,howner⟩ := hlaw.opens _ _ _ hex
  refine ⟨⟨job,Function.update_self _ _ _,hawait,howner⟩,?_⟩
  rw [openings_land,h.2]
  simp [opensAt]

lemma OpenedOnce.lands (hlaw : Lawful P customer) {inputCid : String} {c : Chain}
    (h : OpenedOnce P customer n w)
    (hex : P.executes w.chain (.commitInputArtifact customer (P.jobPda customer n) inputCid) c) :
    CommittedOnce P customer n inputCid
      (w.land (.commitInputArtifact customer (P.jobPda customer n) inputCid) c) := by
  obtain ⟨_,job,-,-,rfl,hpast,hcid,-⟩ := hlaw.commits _ _ _ _ hex
  refine ⟨⟨job,Function.update_self _ _ _,hpast,hcid⟩,?_⟩
  rw [openings_land,h.2]
  simp [opensAt]

/-- A planned entry that was never opened is opened once and committed. -/
lemma driveEntry_finishes (hlaw : Lawful P customer) (haccepts : Accepts P customer)
    (hs : s.jobPda = P.jobPda) {put : Put} {e : JobEntry} {args : OpenJobArgs} {inputCid : String}
    (hstatus : e.entryStatus = .jobPlanned) (hjob : e.job = P.jobPda customer e.nonce)
    (hargs : openArgs (put e).openParameters e = some args) (hcid : e.inputCid = some inputCid)
    (hw : Unopened P customer e.nonce w) :
    Finishes P customer B (driveEntry s customer put e) w
      (fun e' v => CommittedOnce P customer e.nonce inputCid v ∧ terms e' = terms e) := by
  have hnonce := openArgs_nonce hargs
  have hopen : Finishes P customer B (openIfPlanned s customer put e) w
      (fun e' v => OpenedOnce P customer e.nonce v ∧ ∃ signature, e' = recordOpened e signature) := by
    unfold openIfPlanned openPlannedJob
    rw [if_pos hstatus,if_neg (by simp [hs,hjob]),hargs]
    refine sendAndSave_finishes (stable_unopened hlaw) hw (stable_openedOnce hlaw) ?_ ?_ ?_
    · intro v hv
      exact haccepts.opens _ _ (by rw [hnonce]; exact hv.1)
    · intro v c hv hex
      exact hv.lands hlaw hnonce hex
    · exact fun _ _ hv => hv
  apply hopen.andThen
  intro e' v hr
  obtain ⟨hv,signature,rfl⟩ := hr
  have hopened : (recordOpened e signature).entryStatus = .jobOpened := rfl
  have hcid' : (recordOpened e signature).inputCid = some inputCid := hcid
  have hjob' : (recordOpened e signature).job = P.jobPda customer e.nonce := hjob
  rw [if_pos hopened]
  unfold commitOpenedJob
  rw [hcid',hjob']
  have hcommit : Finishes P customer B (sendAndSave put (recordCommitted (recordOpened e signature))
      (.commitInputArtifact customer (P.jobPda customer e.nonce) inputCid)) v
      (fun e' v => CommittedOnce P customer e.nonce inputCid v ∧
        ∃ sig, e' = recordCommitted (recordOpened e signature) sig) := by
    refine sendAndSave_finishes (stable_openedOnce hlaw) hv (stable_committedOnce hlaw inputCid) ?_ ?_ ?_
    · intro v hv
      obtain ⟨job,hjob,hawait,howner⟩ := hv.1
      exact haccepts.commits _ _ job inputCid hjob hawait howner
    · intro v c hv hex
      exact hv.lands hlaw hex
    · exact fun _ _ hv => hv
  apply hcommit.weaken
  intro r v _ hr
  obtain ⟨e',he',hv',sig,rfl⟩ := hr
  exact ⟨_,he',hv',rfl⟩

lemma loadPredictRun_finishes {m : RunManifest} {K : World → Prop}
    (hK : Stable (service P customer) K) (hw : K w) (hfile : ∀ v, K v → v.file = some m) :
    Finishes P customer B loadPredictRun w (fun m' v => m' = m ∧ K v) := by
  refine Finishes.query hK hw (fun v _ => ⟨v.file,v,⟨rfl,rfl⟩,trivial⟩) ?_
  intro v answer u hv hserve _
  obtain ⟨rfl,rfl⟩ := hserve
  rw [hfile u hv]
  exact Finishes.done hK hv (fun _ h => ⟨rfl,h⟩)

/-- The absence guard passes where there is no account. -/
lemma assertJobsAbsent_finishes {key : Digest} {K : World → Prop}
    (hK : Stable (service P customer) K) (hw : K w) (habsent : ∀ v, K v → v.chain key = none) :
    Finishes P customer B (assertJobsAbsent [key]) w (fun _ v => K v) := by
  unfold assertJobsAbsent
  have hchunks : accountChunks [key] = [[key]] := by
    simp [accountChunks,multipleAccountsChunk]
  rw [hchunks]
  refine Finishes.query hK hw ?_ ?_
  · intro v _
    exact ⟨.ok ([key].map (fun job => (v.chain job).isSome)),v,⟨rfl,.inl rfl⟩,_,rfl⟩
  · intro v answer u hv hserve hgood
    obtain ⟨infos,rfl⟩ := hgood
    obtain ⟨rfl,hinfos | ⟨_,hbad⟩⟩ := hserve
    · obtain rfl := Except.ok.inj hinfos
      simp only [List.map_cons,List.map_nil,habsent u hv]
      exact Finishes.done hK hv (fun _ h => h)
    · cases hbad

/-- The branches pass the checks of `predict bind-aggregate`. -/
def Binds (host : BindHost) (m : RunManifest) (imageId : Digest) (allowCompleted : Bool) : Prop :=
  ∃ bound, predictBindAggregate {host with imageId} m.toRun allowCompleted = .ok bound

/-- The journal of a binding can always be hashed. -/
lemma bound_journalHash {host : BindHost} {run : Run} {allowCompleted : Bool} {artifact : Bytes}
    {journal : AggregateJournal}
    (h : predictBindAggregate host run allowCompleted = .ok (artifact,journal)) :
    ∃ hash, journal.journalHash = some hash := by
  simp only [predictBindAggregate,bindBranches,bind_eq_ok,ok_of_mapError,pure_eq_ok,
    Prod.mk.injEq] at h
  obtain ⟨_,-,_,-,_,-,_,-,_,-,_,hjournal,rfl,rfl⟩ := h
  exact Mirror.cli_journalHash hjournal

/-- The aggregate job of a manifest was opened once, and the artifact it names is committed. -/
def AggregateBound (P : Program) (m : RunManifest) (w : World) : Prop :=
  ∃ e job, m.aggregate = some e ∧ w.chain e.job = some job ∧ ¬Awaiting job ∧
    e.inputCid = some job.inputCid ∧ openings P e.job w = 1

/-- Driving a bound manifest whose branches are done. -/
lemma driveRunOpen_finishes (hlaw : Lawful P customer) (haccepts : Accepts P customer)
    (hs : s.jobPda = P.jobPda) {m : RunManifest} {e : JobEntry} {args : OpenJobArgs}
    {inputCid : String} (he : m.aggregate = some e)
    (hbranches : ∀ x ∈ m.branchJobs, x.pending = false)
    (hstatus : e.entryStatus = .jobPlanned) (hjob : e.job = P.jobPda customer e.nonce)
    (hargs : openArgs m.openParameters e = some args) (hcid : e.inputCid = some inputCid)
    (hw : Unopened P customer e.nonce w) :
    Finishes P customer B (driveRunOpen s customer m) w (AggregateBound P) := by
  unfold driveRunOpen
  rw [walkEntries_aggregate he (fun x hx put => driveEntry_pass (hbranches x hx))]
  have hstable := stable_committedOnce (P := P) (n := e.nonce) hlaw inputCid
  have hwalk : Finishes P customer B (driveEntry s customer (fun x => {m with aggregate := some x}) e
      >>= fun e' => .done {m with aggregate := some e'}) w
      (fun m' v => CommittedOnce P customer e.nonce inputCid v ∧
        ∃ e', m'.aggregate = some e' ∧ terms e' = terms e) := by
    refine (driveEntry_finishes hlaw haccepts hs hstatus hjob hargs hcid hw).andThen ?_
    intro e' v hr
    exact Finishes.done hstable hr.1 (fun v hv => ⟨hv,e',rfl,hr.2⟩)
  apply hwalk.andThen
  intro m' v hr
  obtain ⟨hv,e',he',hterms⟩ := hr
  refine (saveRunManifest_finishes _ hstable hv hstable (fun _ hv => hv)).andThen ?_
  intro _ v hv
  apply Finishes.done hstable hv
  intro v hv
  obtain ⟨⟨job,hchain,hpast,hsame⟩,hcount⟩ := hv
  have hterms' := sameTerms hterms
  have hkey : e'.job = P.jobPda customer e.nonce := hterms'.job.trans hjob
  exact ⟨e',job,he',by rwa [hkey],hpast,by rw [hterms'.inputCid,hcid,hsame],by rwa [hkey]⟩

/-- `predict bind-aggregate` with nothing left of the branches and an aggregate never opened. -/
theorem bindAggregateRun_finishes (hlaw : Lawful P customer) (haccepts : Accepts P customer)
    (hs : s.jobPda = P.jobPda) {wallet : Option String} {imageId : Digest} {allowCompleted : Bool}
    {m : RunManifest} {e : JobEntry} (hm : WellFormed P customer m) (hfile : w.file = some m)
    (he : m.aggregate = some e) (hcluster : m.cluster = s.cluster)
    (hwallet : s.wallets (wallet.getD m.customerWallet) = some m.customer)
    (hstatus : e.entryStatus = .jobDeferred ∨ e.entryStatus = .jobPlanned ∨
      e.entryStatus = .jobOpened)
    (hbranches : ∀ x ∈ m.branchJobs, x.pending = false) (hw : Unopened P customer e.nonce w)
    (hbinds : ∀ c, P.others customer w.chain c → Binds (B.bindHost c) m imageId allowCompleted) :
    Finishes P customer B (bindAggregateRun s wallet imageId allowCompleted) w
      (AggregateBound P) := by
  have hjob := hm.derived e (by simp [RunManifest.runJobEntries,he])
  have hstable := stable_unopened (n := e.nonce) hlaw
  have hseen : Stable (service P customer) (fun v => Unopened P customer e.nonce v ∧
      v.file = some m ∧ P.others customer w.chain v.chain) := by
    intro a b hd h
    exact ⟨hstable a b hd h.1,hd.2.1.trans h.2.1,P.others_trans _ _ _ _ h.2.2 hd.1⟩
  refine (loadPredictRun_finishes hseen ⟨hw,hfile,P.others_refl _ _⟩ (fun _ h => h.2.1)).andThen ?_
  intro m' v hr
  obtain ⟨rfl,hv⟩ := hr
  rw [if_neg (not_not.mpr hcluster)]
  split
  · rename_i hnone
    simp [he] at hnone
  rename_i e' he'
  obtain rfl : e' = e := Option.some.inj (he'.symm.trans he)
  rw [if_neg (by rcases hstatus with h | h | h <;> simp [h]),
    if_neg (by rcases hstatus with h | h | h <;> simp [h]),runSigner_eq hwallet]
  change Finishes P customer B (Ask.bindHost >>= _) v _
  refine Finishes.query hseen hv (fun v _ => ⟨.ok (B.bindHost v.chain),v,rfl,rfl⟩) ?_
  intro v₁ answer u hv₁ hserve hgood
  obtain rfl : u = v₁ := hserve
  obtain rfl : answer = .ok (B.bindHost u.chain) := hgood
  obtain ⟨⟨artifact,journal⟩,hbind⟩ := hbinds u.chain hv₁.2.2
  obtain ⟨hash,hhash⟩ := bound_journalHash hbind
  change Finishes P customer B (Process.lift (Except.mapError _ (predictBindAggregate _ _ _)) >>= _) u _
  rw [hbind]
  refine Finishes.query hstable hv₁.1 (fun v _ => ⟨.ok "cid",v,rfl,_,rfl⟩) ?_
  intro v₂ added u₂ hv₂ hserve hgood
  obtain rfl : u₂ = v₂ := hserve
  obtain ⟨inputCid,rfl⟩ := hgood
  change Finishes P customer B (Process.lift (require journal.journalHash _) >>= _) u₂ _
  rw [hhash]
  refine (saveRunManifest_finishes _ hstable hv₂ hstable (fun _ h => h)).andThen ?_
  intro _ v₃ hv₃
  refine (assertJobsAbsent_finishes hstable hv₃ ?_).andThen ?_
  · intro v hv
    change v.chain e'.job = none
    rw [hjob]
    exact hv.1
  intro _ v₄ hv₄
  rw [hm.owner]
  exact driveRunOpen_finishes hlaw haccepts hs rfl hbranches rfl hjob rfl rfl hv₄

end Finishing

end Kswarm.Lifecycle
