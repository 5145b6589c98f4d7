import Kswarm.Lifecycle.Entries

/-! Walking the entries of a manifest: reconciling them with the chain makes each exact, and driving
exact entries sends no step twice. -/
namespace Kswarm.Lifecycle
open Cli Worker

section Walk
variable {W : Type} {S : Service Op Ans W} {inv : W → Prop} {may : Op → W → Prop}
  {turn : Put → JobEntry → Command JobEntry} {J : RunManifest → W → Prop} {Q : JobEntry → W → Prop}

/-- What one turn must do: keep the loop's invariant, finish its own entry, and leave the finished
ones finished. -/
def Turns (S : Service Op Ans W) (inv : W → Prop) (may : Op → W → Prop)
    (turn : Put → JobEntry → Command JobEntry) (J : RunManifest → W → Prop)
    (Q : JobEntry → W → Prop) : Prop :=
  ∀ put e w, Slot put → J (put e) w → Safe S inv may
    (fun r v => ∀ e', r = .ok e' → J (put e') v ∧ Q e' v ∧ ∀ x, Q x w → Q x v) (turn put e) w

/-- The assertions of a loop that no drift can falsify. -/
structure Invariants (S : Service Op Ans W) (inv : W → Prop)
    (J : RunManifest → W → Prop) (Q : JobEntry → W → Prop) : Prop where
  stable : ∀ m, Stable S (J m)
  finished : ∀ x, Stable S (Q x)
  implies : ∀ m w, J m w → inv w

lemma walkBranches_safe (hturn : Turns S inv may turn J Q) (hI : Invariants S inv J Q)
    (run : RunManifest) (before rest : List JobEntry) {w : W}
    (hJ : J {run with branchJobs := before ++ rest} w) (hQ : ∀ x ∈ before, Q x w) :
    Safe S inv may (fun r v => ∀ m, r = .ok m → J m v ∧ ∀ e ∈ m.branchJobs, Q e v)
      (walkBranches turn run before rest) w := by
  induction rest generalizing before w with
  | nil =>
    rw [List.append_nil] at hJ
    have hstable : Stable S
        (fun v => J {run with branchJobs := before} v ∧ ∀ x ∈ before, Q x v) := by
      intro u v hd hu
      exact ⟨hI.stable _ u v hd hu.1,fun x hx => hI.finished x u v hd (hu.2 x hx)⟩
    apply Safe.done hstable ⟨hJ,hQ⟩
    intro v hv
    refine ⟨hI.implies _ v hv.1,?_⟩
    intro m hm
    obtain rfl := Except.ok.inj hm
    exact hv
  | cons entry rest ih =>
    refine (hturn _ entry w (.branch run before rest) hJ).andThen ?_ (by simp)
    intro e' v _ hr
    obtain ⟨hJ',hQ',hkeep⟩ := hr e' rfl
    apply ih (before ++ [e']) (by rwa [List.append_assoc])
    intro x hx
    rcases List.mem_append.mp hx with hb | hs
    · exact hkeep x (hQ x hb)
    · rwa [List.mem_singleton.mp hs]

/-- The rule of a loop over the entries. -/
theorem walkEntries_safe (hturn : Turns S inv may turn J Q) (hI : Invariants S inv J Q)
    {run : RunManifest} {w : W} (hJ : J run w) :
    Safe S inv may (fun r v => ∀ m, r = .ok m → J m v ∧ ∀ e ∈ m.runJobEntries, Q e v)
      (walkEntries turn run) w := by
  refine (walkBranches_safe hturn hI run [] run.branchJobs hJ (by simp)).andThen ?_ (by simp)
  intro run' v _ hr
  obtain ⟨hJ',hQ'⟩ := hr run' rfl
  have hstable : ∀ m : RunManifest, Stable S (fun u => J m u ∧ ∀ e ∈ m.runJobEntries, Q e u) := by
    intro m u u' hd hu
    exact ⟨hI.stable _ u u' hd hu.1,fun x hx => hI.finished x u u' hd (hu.2 x hx)⟩
  have hend : ∀ (m : RunManifest) (u : W), J m u → (∀ e ∈ m.runJobEntries, Q e u) →
      Safe S inv may (fun r v => ∀ m, r = .ok m → J m v ∧ ∀ e ∈ m.runJobEntries, Q e v)
        (.done m : Command RunManifest) u := by
    intro m u hJm hQm
    apply Safe.done (hstable m) ⟨hJm,hQm⟩
    intro u' hu'
    refine ⟨hI.implies _ u' hu'.1,?_⟩
    intro m' hm'
    obtain rfl := Except.ok.inj hm'
    exact hu'
  cases hagg : run'.aggregate with
  | none =>
    apply hend run' v hJ'
    simpa [RunManifest.runJobEntries,hagg] using hQ'
  | some entry =>
    have hput : {run' with aggregate := some entry} = run' := by rw [← hagg]
    refine (hturn _ entry v (.aggregate run') (by rwa [hput])).andThen ?_ (by simp)
    intro e' u _ hr'
    obtain ⟨hJ'',hQ'',hkeep⟩ := hr' e' rfl
    apply hend _ u hJ''
    intro x hx
    rcases List.mem_append.mp hx with hb | hs
    · exact hkeep x (hQ' x hb)
    · rwa [List.mem_singleton.mp hs]

end Walk

section States

/-- A saved manifest and the chain: every entry lags at most by what a stop can lose, and a run
called open has all its branches committed. -/
structure Tracked (plan m : RunManifest) (c : Chain) : Prop where
  plans : Plans plan m
  lags : ∀ e ∈ m.runJobEntries, Lags (c e.job) e
  opened : m.runStatus = .runOpen → ∀ e ∈ m.branchJobs, e.entryStatus = .jobCommitted

/-- The invariant of the run file. -/
def FileTracked (plan : RunManifest) (w : World) : Prop :=
  ∀ m, w.file = some m → Tracked plan m w.chain

/-- A manifest in memory that is exact, whatever the file still says. -/
structure Ahead (plan m : RunManifest) (w : World) : Prop where
  tracked : FileTracked plan w
  plans : Plans plan m
  exact : ∀ e ∈ m.runJobEntries, Exact (w.chain e.job) e
  opening : m.runStatus ≠ .runOpen

/-- The same, saved. -/
structure Synced (plan m : RunManifest) (w : World) : Prop extends Ahead plan m w where
  saved : w.file = some m

lemma Ahead.tracks {plan m : RunManifest} {w : World} (h : Ahead plan m w) :
    Tracked plan m w.chain :=
  ⟨h.plans,fun e he => .inl (h.exact e he),fun ho => absurd ho h.opening⟩

lemma Ahead.store {plan m : RunManifest} {w : World} (h : Ahead plan m w) :
    Synced plan m (w.store m) := by
  refine ⟨⟨?_,h.plans,h.exact,h.opening⟩,rfl⟩
  intro m' hm'
  obtain rfl : m = m' := Option.some.inj hm'
  exact h.tracks

variable {P : Program} {customer : Digest} {plan : RunManifest}

lemma keeps_of_drift (hlaw : Lawful P customer) {m : RunManifest} (hm : WellFormed P customer m)
    {w v : World} (hd : (service P customer).drifts w v) {e : JobEntry}
    (he : e ∈ m.runJobEntries) : Keeps (w.chain e.job) (v.chain e.job) := by
  rw [hm.derived e he]
  exact hlaw.others _ _ hd.1 e.nonce

lemma Tracked.drift (hlaw : Lawful P customer) (hplan : WellFormed P customer plan)
    {m : RunManifest} {w v : World} (hd : (service P customer).drifts w v)
    (h : Tracked plan m w.chain) : Tracked plan m v.chain :=
  ⟨h.plans,fun e he => (h.lags e he).keeps (keeps_of_drift hlaw (hplan.plans h.plans) hd he),
    h.opened⟩

lemma stable_fileTracked (hlaw : Lawful P customer) (hplan : WellFormed P customer plan) :
    Stable (service P customer) (FileTracked plan) := by
  intro w v hd h m hm
  rw [hd.2.1] at hm
  exact (h m hm).drift hlaw hplan hd

lemma stable_ahead (hlaw : Lawful P customer) (hplan : WellFormed P customer plan)
    (m : RunManifest) : Stable (service P customer) (Ahead plan m) := by
  intro w v hd h
  exact ⟨stable_fileTracked hlaw hplan w v hd h.tracked,h.plans,
    fun e he => (h.exact e he).keeps (keeps_of_drift hlaw (hplan.plans h.plans) hd he),h.opening⟩

lemma stable_synced (hlaw : Lawful P customer) (hplan : WellFormed P customer plan)
    (m : RunManifest) : Stable (service P customer) (Synced plan m) := by
  intro w v hd h
  exact ⟨stable_ahead hlaw hplan m w v hd h.toAhead,hd.2.1.trans h.saved⟩

/-- No step is sent whose effect is already on chain. -/
def NeverRepeats (P : Program) : Op → World → Prop
  | .send (.openJob who args),w => w.chain (P.jobPda who args.nonce) = none
  | .send (.commitInputArtifact _ key _),w => ∃ job, w.chain key = some job ∧ Awaiting job
  | _,_ => True

/-- The commands that open a run sign nothing but the customer's own steps. -/
def OwnSteps (customer : Digest) : Op → Prop
  | .send (.openJob who _) => who = customer
  | .send (.commitInputArtifact who _ _) => who = customer
  | .send _ => False
  | _ => True

/-- What such a command may ask. -/
def Advances (P : Program) (customer : Digest) (o : Op) (w : World) : Prop :=
  NeverRepeats P o w ∧ OwnSteps customer o

end States

section Drive
variable {P : Program} {customer : Digest} {plan : RunManifest} {s : Session}

/-- The guarantee of a command: the file stays tracked wherever it stops, and it repeats no step. -/
abbrev Guards (P : Program) (customer : Digest) (plan : RunManifest) {α : Type} (p : Command α)
    (w : World) (post : α → World → Prop) : Prop :=
  Safe (service P customer) (FileTracked plan) (Advances P customer)
    (fun r v => ∀ a, r = .ok a → post a v) p w

lemma refuse (hlaw : Lawful P customer) (hplan : WellFormed P customer plan) {α : Type}
    {post : α → World → Prop} {w : World} (h : FileTracked plan w) (e : CommandError) :
    Guards P customer plan (.raise e) w post :=
  Safe.raise (stable_fileTracked hlaw hplan) h (fun _ hv => ⟨hv,by simp⟩)

/-- Saving an exact manifest. -/
lemma saveRunManifest_guards (hlaw : Lawful P customer) (hplan : WellFormed P customer plan)
    {m : RunManifest} {w : World} (h : Ahead plan m w) :
    Guards P customer plan (saveRunManifest m) w (fun _ v => Synced plan m v) := by
  apply Safe.query (stable_ahead hlaw hplan m) h
  intro v hv
  refine ⟨hv.tracked,⟨trivial,trivial⟩,?_⟩
  intro answer u hserve
  have hstable : Stable (service P customer)
      (fun v => FileTracked plan v ∧ (answer = .ok () → Synced plan m v)) := by
    intro u v hd hu
    exact ⟨stable_fileTracked hlaw hplan u v hd hu.1,
      fun ha => stable_synced hlaw hplan m u v hd (hu.2 ha)⟩
  have hu : FileTracked plan u ∧ (answer = .ok () → Synced plan m u) := by
    rcases hserve with ⟨rfl,rfl⟩ | ⟨text,rfl,rfl | rfl⟩
    · exact ⟨hv.store.tracked,fun _ => hv.store⟩
    · exact ⟨hv.tracked,by simp⟩
    · exact ⟨hv.store.tracked,by simp⟩
  apply Safe.liftEnd hstable hu
  intro v' hv'
  exact ⟨hv'.1,fun _ ha => hv'.2 ((ok_of_mapError _ _ _).mp ha)⟩

/-- A job moves on and its entry with it; the file is one step behind. -/
lemma Synced.move {put : Put} {e e' : JobEntry} {v u : World} {job : Job}
    (hplan : WellFormed P customer plan) (h : Synced plan (put e) v) (hslot : Slot put)
    (hfile : u.file = v.file) (hchain : u.chain = Function.update v.chain e.job (some job))
    (hterms : terms e' = terms e) (hlags : Lags (some job) e) (hexact : Exact (some job) e') :
    Ahead plan (put e') u := by
  have hdistinct := (hplan.plans h.plans).distinct
  have hopen : (put e').runStatus ≠ .runOpen := by
    rw [hslot.runStatus (e := e)]
    exact h.opening
  refine ⟨?_,hslot.plans h.plans hterms,?_,hopen⟩
  · intro m hm
    obtain rfl : put e = m := Option.some.inj (h.saved.symm.trans (hfile ▸ hm))
    refine ⟨h.plans,?_,fun ho => absurd ho h.opening⟩
    intro x hx
    rw [hchain]
    rcases hslot.replaced hx hdistinct with rfl | ⟨hmem,hne⟩
    · rwa [Function.update_self]
    · rw [Function.update_of_ne hne]
      exact .inl (h.exact x hmem)
  · intro x hx
    rw [hchain]
    rcases hslot.replaced hx hdistinct with rfl | ⟨hmem,hne⟩
    · rwa [(sameTerms hterms).job,Function.update_self]
    · rw [Function.update_of_ne hne]
      exact h.exact x hmem

/-- Sending a step and recording it. The step lands on an entry that is exact, and whether or not
its error comes back the file is at most this one step behind. -/
lemma sendAndSave_guards (hlaw : Lawful P customer) (hplan : WellFormed P customer plan) {put : Put}
    {e : JobEntry} (record : String → JobEntry) {transaction : Transaction} {w : World}
    (h : Synced plan (put e) w)
    (hmay : ∀ v, Synced plan (put e) v → Advances P customer (.send transaction) v)
    (hland : ∀ v u, Synced plan (put e) v → Lands P transaction v u →
      ∀ signature, Ahead plan (put (record signature)) u) :
    Guards P customer plan (sendAndSave put record transaction) w
      (fun e' v => Synced plan (put e') v ∧ ∃ signature, e' = record signature) := by
  apply Safe.query (stable_synced hlaw hplan _) h
  intro v hv
  refine ⟨hv.tracked,hmay v hv,?_⟩
  intro answer u hserve
  have hu : FileTracked plan u ∧
      ∀ signature : String, answer = .ok signature → Ahead plan (put (record signature)) u := by
    rcases hserve with ⟨signature,rfl,hl⟩ | ⟨error,rfl,rfl | hl⟩
    · refine ⟨(hland v u hv hl signature).tracked,?_⟩
      intro signature' hs
      exact hland v u hv hl signature'
    · exact ⟨hv.tracked,by simp⟩
    · exact ⟨(hland v u hv hl "").tracked,by simp⟩
  refine Safe.lift ?_ (fun e _ => refuse hlaw hplan hu.1 e)
  intro signature hsig
  refine (saveRunManifest_guards hlaw hplan
    (hu.2 signature ((ok_of_mapError _ _ _).mp hsig))).andThen ?_ (by simp)
  intro _ v' _ hv'
  apply Safe.done (stable_synced hlaw hplan _) (hv' () rfl)
  intro v'' hv''
  refine ⟨hv''.tracked,?_⟩
  intro e' he'
  obtain rfl := Except.ok.inj he'
  exact ⟨hv'',signature,rfl⟩

lemma openArgs_nonce {params : OpenParameters} {e : JobEntry} {args : OpenJobArgs}
    (h : openArgs params e = some args) : args.nonce = e.nonce := by
  simp only [openArgs,Option.bind_eq_bind,Option.bind_eq_some_iff,Option.pure_def,
    Option.some.injEq] at h
  obtain ⟨_,-,_,-,rfl⟩ := h
  rfl

/-- Opening a planned entry. -/
lemma openPlannedJob_guards (hlaw : Lawful P customer) (hplan : WellFormed P customer plan)
    (hs : s.jobPda = P.jobPda) {put : Put} {e : JobEntry} {w : World} (hslot : Slot put)
    (hstatus : e.entryStatus = .jobPlanned) (h : Synced plan (put e) w) :
    Guards P customer plan (openPlannedJob s customer put e) w
      (fun e' v => Synced plan (put e') v ∧ e'.entryStatus = .jobOpened) := by
  unfold openPlannedJob
  split
  · exact refuse hlaw hplan h.tracked _
  · rename_i hpda
    rw [not_not,hs] at hpda
    refine Safe.lift ?_ (fun e _ => refuse hlaw hplan h.tracked e)
    intro args hargs
    have hkey : P.jobPda customer args.nonce = e.job := by
      rw [openArgs_nonce (require_eq_ok.mp hargs),hpda]
    have habsent : ∀ v, Synced plan (put e) v → v.chain e.job = none := by
      intro v hv
      exact (hv.exact e (hslot.mem e)).planned hstatus
    refine (sendAndSave_guards hlaw hplan (recordOpened e) h ?_ ?_).weaken ?_
    · intro v hv
      refine ⟨?_,rfl⟩
      change v.chain (P.jobPda customer args.nonce) = none
      rw [hkey]
      exact habsent v hv
    · intro v u hv hl signature
      obtain ⟨c,hex,rfl⟩ := hl
      obtain ⟨-,job,rfl,hawait,-⟩ := hlaw.opens _ _ _ hex
      refine hv.move hplan hslot rfl (congrArg (Function.update v.chain · _) hkey) rfl ?_ ?_
      · refine .inr ⟨pending_iff.mpr (.inl hstatus),?_⟩
        intro job' hjob' hpast
        exact absurd (Option.some.inj hjob' ▸ hawait) hpast
      · exact ⟨job,rfl,hawait⟩
    · intro r v _ hr e' he'
      obtain ⟨hv,signature,rfl⟩ := hr e' he'
      exact ⟨hv,rfl⟩

/-- Committing the artifact of an opened entry. -/
lemma commitOpenedJob_guards (hlaw : Lawful P customer) (hplan : WellFormed P customer plan)
    {put : Put} {e : JobEntry} {w : World} (hslot : Slot put)
    (hstatus : e.entryStatus = .jobOpened) (h : Synced plan (put e) w) :
    Guards P customer plan (commitOpenedJob customer put e) w
      (fun e' v => Synced plan (put e') v ∧ e'.entryStatus = .jobCommitted) := by
  refine Safe.lift ?_ (fun e _ => refuse hlaw hplan h.tracked e)
  intro inputCid hcid
  rw [require_eq_ok] at hcid
  refine (sendAndSave_guards hlaw hplan (recordCommitted e) h ?_ ?_).weaken ?_
  · intro v hv
    exact ⟨(hv.exact e (hslot.mem e)).opened hstatus,rfl⟩
  · intro v u hv hl signature
    obtain ⟨c,hex,rfl⟩ := hl
    obtain ⟨_,job,-,-,rfl,hpast,hjob,-⟩ := hlaw.commits _ _ _ _ hex
    refine hv.move hplan hslot rfl rfl rfl ?_ ?_
    · refine .inr ⟨pending_iff.mpr (.inr hstatus),?_⟩
      intro job' hjob' _
      rw [← Option.some.inj hjob',hcid,hjob]
    · exact ⟨job,rfl,hpast,by rw [hjob]; exact hcid⟩
  · intro r v _ hr e' he'
    obtain ⟨hv,signature,rfl⟩ := hr e' he'
    exact ⟨hv,rfl⟩

/-- An entry that is left as it is. -/
lemma pass_guards (hlaw : Lawful P customer) (hplan : WellFormed P customer plan) {put : Put}
    {e : JobEntry} {w : World} {Q : JobEntry → Prop} (h : Synced plan (put e) w) (hQ : Q e) :
    Guards P customer plan (.done e) w (fun e' v => Synced plan (put e') v ∧ Q e') := by
  apply Safe.done (stable_synced hlaw hplan _) h
  intro v hv
  refine ⟨hv.tracked,?_⟩
  intro e' he'
  obtain rfl := Except.ok.inj he'
  exact ⟨hv,hQ⟩

/-- Driving one entry opens and commits what is missing, each step once. -/
lemma driveEntry_guards (hlaw : Lawful P customer) (hplan : WellFormed P customer plan)
    (hs : s.jobPda = P.jobPda) {put : Put} {e : JobEntry} {w : World} (hslot : Slot put)
    (h : Synced plan (put e) w) :
    Guards P customer plan (driveEntry s customer put e) w
      (fun e' v => Synced plan (put e') v ∧ e'.pending = false) := by
  have hopen : Guards P customer plan (openIfPlanned s customer put e) w
      (fun e' v => Synced plan (put e') v ∧ e'.entryStatus ≠ .jobPlanned) := by
    unfold openIfPlanned
    split
    · rename_i hstatus
      refine (openPlannedJob_guards hlaw hplan hs hslot hstatus h).weaken ?_
      intro r v _ hr e' he'
      exact ⟨(hr e' he').1,by simp [(hr e' he').2]⟩
    · rename_i hstatus
      exact pass_guards hlaw hplan h hstatus
  refine hopen.andThen ?_ (by simp)
  intro opened v _ hr
  obtain ⟨hv,hplanned⟩ := hr opened rfl
  split
  · rename_i hstatus
    refine (commitOpenedJob_guards hlaw hplan hslot hstatus hv).weaken ?_
    intro r u _ hr e' he'
    exact ⟨(hr e' he').1,by simp [JobEntry.pending,(hr e' he').2]⟩
  · rename_i hstatus
    exact pass_guards hlaw hplan hv (by simp [JobEntry.pending,hplanned,hstatus])

/-- The run is open: its manifest is saved as such, and every entry is where it says. -/
structure Opened (plan m : RunManifest) (w : World) : Prop where
  saved : w.file = some m
  tracked : Tracked plan m w.chain
  status : m.runStatus = .runOpen
  settled : ∀ e ∈ m.runJobEntries, Exact (w.chain e.job) e ∧ e.pending = false

lemma stable_opened (hlaw : Lawful P customer) (hplan : WellFormed P customer plan)
    (m : RunManifest) : Stable (service P customer) (Opened plan m) := by
  intro w v hd h
  refine ⟨hd.2.1.trans h.saved,h.tracked.drift hlaw hplan hd,h.status,?_⟩
  intro e he
  exact ⟨(h.settled e he).1.keeps (keeps_of_drift hlaw (hplan.plans h.tracked.plans) hd he),
    (h.settled e he).2⟩

lemma Opened.fileTracked {m : RunManifest} {w : World} (h : Opened plan m w) :
    FileTracked plan w := by
  intro m' hm'
  obtain rfl := Option.some.inj (h.saved.symm.trans hm')
  exact h.tracked

/-- `_drive_run_open` on exact entries repeats no step, and returns with the run open. -/
theorem driveRunOpen_guards (hlaw : Lawful P customer) (hplan : WellFormed P customer plan)
    (hs : s.jobPda = P.jobPda) {m : RunManifest} {w : World} (h : Synced plan m w) :
    Guards P customer plan (driveRunOpen s customer m) w (fun m' v => Opened plan m' v) := by
  have hturn : Turns (service P customer) (FileTracked plan) (Advances P customer)
      (driveEntry s customer) (Synced plan) (fun e _ => e.pending = false) := by
    intro put e w hslot hw
    refine (driveEntry_guards hlaw hplan hs hslot hw).weaken ?_
    intro r v _ hr e' he'
    exact ⟨(hr e' he').1,(hr e' he').2,fun _ hx => hx⟩
  have hI : Invariants (service P customer) (FileTracked plan) (Synced plan)
      (fun e _ => e.pending = false) :=
    ⟨stable_synced hlaw hplan,fun _ _ _ _ hx => hx,fun _ _ hw => hw.tracked⟩
  refine (walkEntries_safe hturn hI h).andThen ?_ (by simp)
  intro driven v _ hr
  obtain ⟨hv,hsettled⟩ := hr driven rfl
  -- The last save only changes the status, and every branch is committed by now.
  have hstore : ∀ v, Synced plan driven v →
      Opened plan {driven with status := some .runOpen}
        (v.store {driven with status := some .runOpen}) := by
    intro v hv
    refine ⟨rfl,⟨⟨hv.plans.customer,hv.plans.branches,hv.plans.aggregate⟩,?_,?_⟩,rfl,?_⟩
    · exact fun e he => .inl (hv.exact e he)
    · intro _ e he
      have hmem : e ∈ driven.runJobEntries := List.mem_append_left _ he
      refine ((hv.exact e hmem).settled (hsettled e hmem)).resolve_right ?_
      exact (hplan.plans hv.plans).branches e he
    · exact fun e he => ⟨hv.exact e he,hsettled e he⟩
  refine Safe.bind (Safe.query (stable_synced hlaw hplan driven) hv ?_)
  intro v hv
  refine ⟨hv.tracked,⟨trivial,trivial⟩,?_⟩
  intro answer u hserve
  rcases hserve with ⟨rfl,rfl⟩ | ⟨text,rfl,rfl | rfl⟩
  · apply Safe.done (stable_opened hlaw hplan _) (hstore v hv)
    intro v' hv'
    refine ⟨hv'.fileTracked,?_⟩
    apply Safe.done (stable_opened hlaw hplan _) hv'
    intro v'' hv''
    refine ⟨hv''.fileTracked,?_⟩
    intro m' hm'
    obtain rfl := Except.ok.inj hm'
    exact hv''
  · exact refuse hlaw hplan hv.tracked _
  · exact refuse hlaw hplan (hstore v hv).fileTracked _

end Drive

section Reconcile
variable {P : Program} {customer : Digest} {plan : RunManifest}

/-- A loaded manifest on its way to being exact. -/
structure Loaded (plan m : RunManifest) (w : World) : Prop where
  tracked : FileTracked plan w
  plans : Plans plan m
  lags : ∀ e ∈ m.runJobEntries, Lags (w.chain e.job) e
  opening : m.runStatus ≠ .runOpen

/-- A reconciled entry. -/
def Reconciled (P : Program) (customer : Digest) (e : JobEntry) (w : World) : Prop :=
  e.job = P.jobPda customer e.nonce ∧ Exact (w.chain e.job) e

lemma stable_loaded (hlaw : Lawful P customer) (hplan : WellFormed P customer plan)
    (m : RunManifest) : Stable (service P customer) (Loaded plan m) := by
  intro w v hd h
  exact ⟨stable_fileTracked hlaw hplan w v hd h.tracked,h.plans,
    fun e he => (h.lags e he).keeps (keeps_of_drift hlaw (hplan.plans h.plans) hd he),h.opening⟩

lemma stable_reconciled (hlaw : Lawful P customer) (e : JobEntry) :
    Stable (service P customer) (Reconciled P customer e) := by
  intro w v hd h
  refine ⟨h.1,h.2.keeps ?_⟩
  rw [h.1]
  exact hlaw.others _ _ hd.1 e.nonce

/-- What a turn of the reconciliation leaves. -/
def Resolved (P : Program) (customer : Digest) (plan : RunManifest) (put : Put) (w : World)
    (e : JobEntry) (v : World) : Prop :=
  Loaded plan (put e) v ∧ Reconciled P customer e v ∧
    ∀ x, Reconciled P customer x w → Reconciled P customer x v

lemma resolve_guards (hlaw : Lawful P customer) (hplan : WellFormed P customer plan) {put : Put}
    {w v : World} {e : JobEntry} (h : Resolved P customer plan put w e v) :
    Guards P customer plan (.done e) v (fun e' u => Resolved P customer plan put w e' u) := by
  have hstable : Stable (service P customer) (Resolved P customer plan put w e) := by
    intro u u' hd hu
    exact ⟨stable_loaded hlaw hplan _ u u' hd hu.1,stable_reconciled hlaw _ u u' hd hu.2.1,
      fun x hx => stable_reconciled hlaw x u u' hd (hu.2.2 x hx)⟩
  apply Safe.done hstable h
  intro u hu
  refine ⟨hu.1.tracked,?_⟩
  intro e' he'
  obtain rfl := Except.ok.inj he'
  exact hu

/-- Setting a pending entry to what its account shows. -/
lemma Loaded.resolve {put : Put} {e : JobEntry} {w v : World} (h : Loaded plan (put e) v)
    (hplan : WellFormed P customer plan) (hslot : Slot put) (status : EntryStatus)
    (hkept : ∀ x, Reconciled P customer x w → Reconciled P customer x v)
    (hexact : Exact (v.chain e.job) {e with status := some status}) :
    Resolved P customer plan put w {e with status := some status} v := by
  have hw := hplan.plans h.plans
  refine ⟨⟨h.tracked,hslot.plans h.plans rfl,?_,?_⟩,⟨hw.derived e (hslot.mem e),hexact⟩,hkept⟩
  · intro x hx
    rcases hslot.replaced hx hw.distinct with rfl | ⟨hmem,-⟩
    · exact .inl hexact
    · exact h.lags x hmem
  · rw [hslot.runStatus (e := e)]
    exact h.opening

lemma reconcileEntry_guards (hlaw : Lawful P customer) (hplan : WellFormed P customer plan)
    {put : Put} {e : JobEntry} {w : World} (hslot : Slot put) (h : Loaded plan (put e) w) :
    Guards P customer plan (reconcileEntry put e) w (Resolved P customer plan put w) := by
  unfold reconcileEntry
  split
  · rename_i hpending
    have hmem := hslot.mem e
    exact resolve_guards hlaw hplan ⟨h,⟨(hplan.plans h.plans).derived e hmem,
      (h.lags e hmem).exact hpending⟩,fun _ hx => hx⟩
  · rename_i hpending
    have hstable : Stable (service P customer) (fun v => Loaded plan (put e) v ∧
        ∀ x, Reconciled P customer x w → Reconciled P customer x v) := by
      intro u u' hd hu
      exact ⟨stable_loaded hlaw hplan _ u u' hd hu.1,
        fun x hx => stable_reconciled hlaw x u u' hd (hu.2 x hx)⟩
    apply Safe.query hstable ⟨h,fun _ hx => hx⟩
    intro v hv
    obtain ⟨hload,hkept⟩ := hv
    refine ⟨hload.tracked,⟨trivial,trivial⟩,?_⟩
    intro answer u hserve
    obtain ⟨rfl,hanswer⟩ := hserve
    refine Safe.lift ?_ (fun error _ => refuse hlaw hplan hload.tracked error)
    intro found hfound
    have hseen : u.chain e.job = found := by
      rcases hanswer with rfl | ⟨error,rfl⟩
      · exact Except.ok.inj ((ok_of_mapError _ _ _).mp hfound)
      · simp [Except.mapError] at hfound
    split
    · exact resolve_guards hlaw hplan (hload.resolve hplan hslot .jobPlanned hkept hseen)
    · rename_i job
      split
      · exact refuse hlaw hplan hload.tracked _
      · split
        · rename_i hawait
          exact resolve_guards hlaw hplan
            (hload.resolve hplan hslot .jobOpened hkept ⟨job,hseen,hawait⟩)
        · rename_i hpast
          refine resolve_guards hlaw hplan
            (hload.resolve hplan hslot .jobCommitted hkept ⟨job,hseen,hpast,?_⟩)
          -- A pending entry whose job is past awaiting its artifact was committed by this run.
          cases hload.lags e (hslot.mem e) with
          | inr hl => exact hl.2 job hseen hpast
          | inl hl =>
            rcases pending_iff.mp (by simpa using hpending) with hs | hs
            · simp [hl.planned hs] at hseen
            · obtain ⟨job',hjob',hawait⟩ := hl.opened hs
              exact absurd (Option.some.inj (hjob'.symm.trans hseen) ▸ hawait) hpast

/-- `_reconcile_run_with_chain` leaves every entry exact. -/
theorem reconcileRunWithChain_guards (hlaw : Lawful P customer) (hplan : WellFormed P customer plan)
    {m : RunManifest} {w : World} (h : Loaded plan m w) :
    Guards P customer plan (reconcileRunWithChain m) w (fun m' v => Ahead plan m' v) := by
  have hturn : Turns (service P customer) (FileTracked plan)
      (Advances P customer) reconcileEntry
      (Loaded plan) (Reconciled P customer) := by
    intro put e w hslot hw
    exact reconcileEntry_guards hlaw hplan hslot hw
  have hI : Invariants (service P customer) (FileTracked plan) (Loaded plan)
      (Reconciled P customer) :=
    ⟨stable_loaded hlaw hplan,stable_reconciled hlaw,fun _ _ hw => hw.tracked⟩
  refine (walkEntries_safe hturn hI h).weaken ?_
  intro r v _ hr m' hm'
  obtain ⟨hload,hexact⟩ := hr m' hm'
  exact ⟨hload.tracked,hload.plans,fun e he => (hexact e he).2,hload.opening⟩

end Reconcile

section Absence
variable {P : Program} {customer : Digest} {plan : RunManifest}

/-- The chunks cover the jobs, in order. -/
lemma accountChunks_flatten (jobs : List Digest) : (accountChunks jobs).flatten = jobs := by
  have htake : ∀ n, ((List.range n).map (fun i =>
      (jobs.drop (multipleAccountsChunk*i)).take multipleAccountsChunk)).flatten =
        jobs.take (multipleAccountsChunk*n) := by
    intro n
    induction n with
    | zero => simp
    | succ n ih =>
      rw [List.range_succ,List.map_append,List.flatten_append,ih,Nat.mul_succ,List.take_add]
      simp
  rw [accountChunks,htake]
  apply List.take_of_length_le
  rw [multipleAccountsChunk]
  omega

/-- No account was there when it was looked up. -/
def Absent (c : Chain) (jobs : List Digest) (infos : List Bool) : Prop :=
  List.Forall₂ (fun job present => present = false → c job = none) jobs infos

lemma Absent.all {c : Chain} {jobs : List Digest} {infos : List Bool} (h : Absent c jobs infos)
    (hnone : existingJobs jobs infos = []) : ∀ job ∈ jobs, c job = none := by
  induction h with
  | nil => simp
  | @cons job present jobs infos hjob _ ih =>
    cases present with
    | true => simp [existingJobs] at hnone
    | false =>
      have htail : existingJobs jobs infos = [] := by simpa [existingJobs] using hnone
      intro x hx
      rcases List.mem_cons.mp hx with rfl | hmem
      · exact hjob rfl
      · exact ih htail x hmem

/-- While `K` holds, lookups show the accounts as they are, and of those in `D` none appears. -/
structure Looks {W : Type} (S : Service Op Ans W) (chain : W → Chain) (D : Digest → Prop)
    (K inv : W → Prop) (may : Op → W → Prop) : Prop where
  stable : Stable S K
  implies : ∀ v, K v → inv v
  allowed : ∀ jobs v, K v → may (.accountInfos jobs) v
  serves : ∀ jobs v (answer : Except RpcError (List Bool)) u, K v →
    S.serves (.accountInfos jobs) v answer u → K u ∧ chain u = chain v ∧
      (answer = .ok (jobs.map (fun job => (chain v job).isSome)) ∨
        ∃ e : RpcError, answer = .error e)
  keeps : ∀ w v job, K w → S.drifts w v → D job → chain w job = none → chain v job = none

namespace Looks
variable {W : Type} {S : Service Op Ans W} {chain : W → Chain} {D : Digest → Prop}
  {K inv : W → Prop} {may : Op → W → Prop} {w v : W} {jobs : List Digest} {infos : List Bool}

lemma absent (hL : Looks S chain D K inv may) (hjobs : ∀ job ∈ jobs, D job) :
    Stable S (fun v => K v ∧ Absent (chain v) jobs infos) := by
  rintro w v hd ⟨hw,habsent⟩
  refine ⟨hL.stable w v hd hw,?_⟩
  unfold Absent at habsent ⊢
  induction habsent with
  | nil => exact .nil
  | cons hjob _ ih =>
    refine .cons ?_ (ih (fun job hmem => hjobs job (List.mem_cons_of_mem _ hmem)))
    intro hpresent
    exact hL.keeps w v _ hw hd (hjobs _ List.mem_cons_self) (hjob hpresent)

lemma refuse (hL : Looks S chain D K inv may) {α : Type} {post : α → W → Prop} (hw : K w)
    (e : CommandError) :
    Safe S inv may (fun r v => ∀ a, r = .ok a → post a v) (.raise e : Command α) w :=
  Safe.raise hL.stable hw (fun v hv => ⟨hL.implies v hv,by simp⟩)

lemma accountInfos (hL : Looks S chain D K inv may) (chunks : List (List Digest))
    (hjobs : ∀ job ∈ chunks.flatten, D job) (hw : K w) :
    Safe S inv may (fun r v => ∀ infos, r = .ok infos → K v ∧ Absent (chain v) chunks.flatten infos)
      (getMultipleAccountInfos chunks) w := by
  induction chunks generalizing K w with
  | nil =>
    apply Safe.done hL.stable hw
    intro v hv
    refine ⟨hL.implies v hv,?_⟩
    intro infos hinfos
    obtain rfl := Except.ok.inj hinfos
    exact ⟨hv,.nil⟩
  | cons chunk chunks ih =>
    have hchunk : ∀ job ∈ chunk, D job := fun job hmem => hjobs job (by simp [hmem])
    have hrest : ∀ job ∈ chunks.flatten, D job :=
      fun job hmem => hjobs job (by simp [List.mem_flatten.mp hmem])
    apply Safe.query hL.stable hw
    intro v hv
    refine ⟨hL.implies v hv,hL.allowed chunk v hv,?_⟩
    intro answer u hserve
    obtain ⟨hu,hchain,hanswer⟩ := hL.serves chunk v answer u hv hserve
    refine Safe.lift ?_ (fun error _ => hL.refuse hu error)
    intro values hvalues
    have hseen : Absent (chain u) chunk values := by
      rcases hanswer with rfl | ⟨error,rfl⟩
      · obtain rfl := Except.ok.inj ((ok_of_mapError _ _ _).mp hvalues)
        rw [Absent,List.forall₂_map_right_iff,List.forall₂_same,hchain]
        intro job _ hnone
        simpa using hnone
      · simp [Except.mapError] at hvalues
    split
    · exact hL.refuse hu _
    · have hL' : Looks S chain D (fun v => K v ∧ Absent (chain v) chunk values) inv may := by
        refine ⟨hL.absent hchunk,fun v hv => hL.implies v hv.1,
          fun jobs v hv => hL.allowed jobs v hv.1,?_,fun w v job hw => hL.keeps w v job hw.1⟩
        intro jobs v answer u hv hserve
        obtain ⟨hu,hsame,hanswer⟩ := hL.serves jobs v answer u hv.1 hserve
        exact ⟨⟨hu,hsame ▸ hv.2⟩,hsame,hanswer⟩
      refine (ih hL' hrest ⟨hu,hseen⟩).andThen ?_ (by simp)
      intro out v _ hr
      apply Safe.done (hL'.absent hrest) (hr out rfl)
      rintro v' ⟨⟨hv',hfirst⟩,hout⟩
      refine ⟨hL.implies v' hv',?_⟩
      intro infos hinfos
      obtain rfl := Except.ok.inj hinfos
      refine ⟨hv',?_⟩
      rw [Absent,List.flatten_cons]
      exact List.rel_append hfirst hout

/-- `_assert_jobs_absent` returns only where no account was there. -/
lemma assertJobsAbsent (hL : Looks S chain D K inv may) (hjobs : ∀ job ∈ jobs, D job) (hw : K w) :
    Safe S inv may (fun r v => ∀ a, r = .ok a → K v ∧ ∀ job ∈ jobs, chain v job = none)
      (assertJobsAbsent jobs) w := by
  refine (hL.accountInfos (accountChunks jobs) (by rwa [accountChunks_flatten]) hw).andThen ?_
    (by simp)
  intro infos v _ hr
  obtain ⟨hv,habsent⟩ := hr infos rfl
  rw [accountChunks_flatten] at habsent
  split
  · exact hL.refuse hv _
  · rename_i hnone
    apply Safe.done (hL.absent hjobs) ⟨hv,habsent⟩
    intro v' hv'
    exact ⟨hL.implies v' hv'.1,fun _ _ => ⟨hv'.1,hv'.2.all (not_not.mp hnone)⟩⟩

end Looks

lemma assertJobsAbsent_guards (hlaw : Lawful P customer) {jobs : List Digest}
    (hjobs : ∀ job ∈ jobs, ∃ n, job = P.jobPda customer n) {K : World → Prop}
    (hK : Stable (service P customer) K) (hinv : ∀ v, K v → FileTracked plan v) {w : World}
    (hw : K w) : Guards P customer plan (assertJobsAbsent jobs) w
      (fun _ v => K v ∧ ∀ job ∈ jobs, v.chain job = none) := by
  have hL : Looks (service P customer) World.chain (fun job => ∃ n, job = P.jobPda customer n) K
      (FileTracked plan) (Advances P customer) := by
    refine ⟨hK,hinv,fun _ _ _ => ⟨trivial,trivial⟩,?_,?_⟩
    · rintro jobs v answer u hv ⟨rfl,hanswer⟩
      exact ⟨hv,rfl,hanswer⟩
    · rintro w v _ _ hd ⟨n,rfl⟩ hnone
      exact (hlaw.others _ _ hd.1 n).none_iff.mpr hnone
  exact hL.assertJobsAbsent hjobs hw

variable (who : Digest) (w : World)

/-- What the lookups see when nothing fails. -/
lemma getMultipleAccountInfos_reaches (chunks : List (List Digest)) :
    Reaches (service P who) w (getMultipleAccountInfos chunks) w
      (.done (chunks.flatten.map (fun job => (w.chain job).isSome))) := by
  induction chunks with
  | nil => exact .start
  | cons chunk chunks ih =>
    refine .step (a := .ok (chunk.map (fun job => (w.chain job).isSome))) ⟨rfl,.inl rfl⟩ ?_
    change Reaches (service P who) w (if _ ≠ _ then _ else _) _ _
    rw [if_neg (by simp),List.flatten_cons,List.map_append]
    exact ih.bind

lemma existingJobs_map (jobs : List Digest) :
    existingJobs jobs (jobs.map (fun job => (w.chain job).isSome)) =
      jobs.filter (fun job => (w.chain job).isSome) := by
  induction jobs with
  | nil => rfl
  | cons job jobs ih =>
    simp only [existingJobs,List.map_cons,List.zip_cons_cons,List.filter_cons] at ih ⊢
    split <;> simp [ih]

lemma assertJobsAbsent_reaches (jobs : List Digest) :
    Reaches (service P who) w (assertJobsAbsent jobs) w
      (if jobs.filter (fun job => (w.chain job).isSome) ≠ [] then
        .raise (.nonceCollision (jobs.filter (fun job => (w.chain job).isSome)))
      else .done ()) := by
  have h := (getMultipleAccountInfos_reaches (P := P) who w (accountChunks jobs)).bind
    (f := fun infos =>
      if existingJobs jobs infos ≠ [] then .raise (.nonceCollision (existingJobs jobs infos))
      else .done ())
  rw [accountChunks_flatten] at h
  change Reaches (service P who) w (assertJobsAbsent jobs) w
    (if existingJobs jobs (jobs.map (fun job => (w.chain job).isSome)) ≠ [] then
      .raise (.nonceCollision (existingJobs jobs (jobs.map (fun job => (w.chain job).isSome))))
    else .done ()) at h
  rwa [existingJobs_map] at h

variable {who : Digest} {w : World}

end Absence

end Kswarm.Lifecycle
