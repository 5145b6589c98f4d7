import Kswarm.Lifecycle.LateRuns

/-! `predict cancel` next to the commands that open a run, with transactions that land late. It
cancels job by job and marks the run only at the end, so a cancel that stops in between leaves a
manifest that still calls the run open. -/
namespace Kswarm.Lifecycle
open Cli Worker

section Progress
variable {P : Program} {customer : Digest} {plan : RunManifest} {w v u : Late}

/-- The saved manifest says the run was cancelled. -/
def FileCancelled (w : World) : Prop := ∃ m, w.file = some m ∧ m.runStatus = .runCancelled

def CancelLanded (w : World) : Prop := ∃ who key, Transaction.cancelOpenJob who key ∈ w.landed

/-- What can be underway while a run is cancelled. -/
def StepOrCancel (customer : Digest) (plan : RunManifest) (transaction : Transaction) : Prop :=
  Harmless customer plan transaction ∨ ∃ who key, transaction = .cancelOpenJob who key

/-- How far a cancel started in `w` got: everything is as before, but that some of its transactions
may be underway, or one landed, or the run is marked; and a run that was marked stays marked. -/
structure Cancelling (customer : Digest) (plan : RunManifest) (w v : Late) : Prop where
  kept : FileCancelled w.toWorld → FileCancelled v.toWorld
  moved : FileCancelled v.toWorld ∨ CancelLanded v.toWorld ∨
    Honest (StepOrCancel customer plan) plan v

/-- The manifest in memory has the status of the saved one. -/
def SameStatus (m : RunManifest) (w : World) : Prop :=
  ∃ m', w.file = some m' ∧ m'.runStatus = m.runStatus

lemma SameStatus.cancelled {m : RunManifest} {w : World} (h : SameStatus m w) :
    FileCancelled w ↔ m.runStatus = .runCancelled := by
  obtain ⟨m',hfile,hsame⟩ := h
  constructor
  · intro hc
    obtain ⟨m'',hfile',hstatus⟩ := hc
    obtain rfl := Option.some.inj (hfile.symm.trans hfile')
    exact hsame.symm.trans hstatus
  · exact fun hstatus => ⟨m',hfile,hsame.trans hstatus⟩

lemma Moves.file (h : Moves P customer w v) : v.file = w.file := by
  cases h <;> rfl

lemma stable_fileCancelled :
    Stable (lateService P customer) (fun w => FileCancelled w.toWorld) := by
  apply stable_of_moves
  intro w v hmove h
  obtain ⟨m,hfile,hstatus⟩ := h
  exact ⟨m,hmove.file.trans hfile,hstatus⟩

lemma stable_cancelLanded :
    Stable (lateService P customer) (fun w => CancelLanded w.toWorld) := by
  apply stable_of_moves
  intro w v hmove h
  obtain ⟨who,key,hmem⟩ := h
  cases hmove with
  | others _ => exact ⟨who,key,hmem⟩
  | lands _ _ => exact ⟨who,key,List.mem_append_left _ hmem⟩
  | expires _ => exact ⟨who,key,hmem⟩

lemma stable_cancelling (hlaw : Lawful P customer) (hplan : WellFormed P customer plan) :
    Stable (lateService P customer) (Cancelling customer plan w) := by
  apply stable_of_moves
  intro v u hmove h
  refine ⟨fun hw => stable_fileCancelled v u (.single hmove) (h.kept hw),?_⟩
  rcases h.moved with hmarked | hlanded | hhonest
  · exact .inl (stable_fileCancelled v u (.single hmove) hmarked)
  · exact .inr (.inl (stable_cancelLanded v u (.single hmove) hlanded))
  · rcases hhonest.moves hlaw hplan hmove with hstill | ⟨tx,hsent,hnot,hmem⟩
    · exact .inr (.inr hstill)
    · obtain ⟨who,key,rfl⟩ := hsent.resolve_left hnot
      exact .inr (.inl ⟨who,key,hmem⟩)

lemma stable_sameStatus (m : RunManifest) :
    Stable (lateService P customer) (fun w => SameStatus m w.toWorld) := by
  apply stable_of_moves
  intro v u hmove h
  obtain ⟨m',hfile,hsame⟩ := h
  exact ⟨m',hmove.file.trans hfile,hsame⟩

/-- A cancel landed since `w`, or the run is marked. -/
structure Landed (w : Late) (m : RunManifest) (v : Late) : Prop where
  kept : FileCancelled w.toWorld → FileCancelled v.toWorld
  moved : CancelLanded v.toWorld ∨ FileCancelled v.toWorld
  status : SameStatus m v.toWorld

lemma stable_landed (m : RunManifest) : Stable (lateService P customer) (Landed w m) := by
  intro v u hd h
  exact ⟨fun hw => stable_fileCancelled v u hd (h.kept hw),
    h.moved.imp (stable_cancelLanded v u hd) (stable_fileCancelled v u hd),
    stable_sameStatus m v u hd h.status⟩

lemma Landed.cancelling {m : RunManifest} (h : Landed w m v) : Cancelling customer plan w v := by
  refine ⟨h.kept,?_⟩
  rcases h.moved with hlanded | hmarked
  · exact .inr (.inl hlanded)
  · exact .inl hmarked

/-- Saving what a cancel has changed keeps the status. -/
lemma Landed.store {m m' : RunManifest} (h : Landed w m v) (hs : m'.runStatus = m.runStatus) :
    Landed w m' ⟨v.store m',v.underway⟩ := by
  have hsame : FileCancelled v.toWorld → FileCancelled (v.store m') := by
    intro hv
    exact ⟨m',rfl,hs.trans (h.status.cancelled.mp hv)⟩
  exact ⟨fun hw => hsame (h.kept hw),h.moved.imp_right hsame,m',rfl,rfl⟩

lemma Cancelling.lands {m : RunManifest} {who key : Digest} {c : Chain}
    (h : Cancelling customer plan w v) (hs : SameStatus m v.toWorld) :
    Landed w m ⟨v.land (.cancelOpenJob who key) c,v.underway⟩ :=
  ⟨h.kept,.inl ⟨who,key,List.mem_concat_self⟩,hs⟩

/-- What a cancel leaves whose call raises. -/
lemma Cancelling.sent {m : RunManifest} {who key : Digest} (h : Cancelling customer plan w v)
    (hs : SameStatus m v.toWorld) (hsent : Sent P (.cancelOpenJob who key) v u) :
    Cancelling customer plan w u := by
  cases hsent with
  | landed _ => exact (h.lands hs).cancelling
  | lost => exact h
  | underway =>
    refine ⟨h.kept,h.moved.imp_right (Or.imp_right ?_)⟩
    intro hhonest
    obtain ⟨m',hfile,-⟩ := hs
    refine ⟨hhonest.follows,fun hnone => ?_,?_,hhonest.uncancelled⟩
    · cases hfile.symm.trans hnone
    · intro tx htx
      rcases List.mem_append.mp htx with hold | hnew
      · exact hhonest.underway tx hold
      · exact .inr ⟨who,key,List.mem_singleton.mp hnew⟩

end Progress

section Turn
variable {P : Program} {customer : Digest} {plan : RunManifest} {w v : Late}

/-- The guarantee of a cancel started in `w`. -/
abbrev Cancels (P : Program) (customer : Digest) (plan : RunManifest) (w : Late) {α : Type}
    (p : Command α) (v : Late) (post : α → Late → Prop) : Prop :=
  Safe (lateService P customer) (Cancelling customer plan w) (fun _ _ => True)
    (fun r u => ∀ a, r = .ok a → post a u) p v

lemma Cancels.refuse (hlaw : Lawful P customer) (hplan : WellFormed P customer plan) {α : Type}
    {post : α → Late → Prop} (h : Cancelling customer plan w v) (e : CommandError) :
    Cancels P customer plan w (.raise e) v post :=
  Safe.raise (stable_cancelling hlaw hplan) h (fun _ hv => ⟨hv,by simp⟩)

/-- The state of a cancel between two turns. -/
def Between (customer : Digest) (plan : RunManifest) (w : Late) (m : RunManifest) (v : Late) :
    Prop :=
  Cancelling customer plan w v ∧ SameStatus m v.toWorld

lemma stable_between (hlaw : Lawful P customer) (hplan : WellFormed P customer plan)
    (m : RunManifest) : Stable (lateService P customer) (Between customer plan w m) := by
  intro v u hd h
  exact ⟨stable_cancelling hlaw hplan v u hd h.1,stable_sameStatus m v u hd h.2⟩

/-- A save that may fail, once something landed. -/
lemma saveRunManifest_cancels (hlaw : Lawful P customer) (hplan : WellFormed P customer plan)
    {m m' : RunManifest} (h : Landed w m v) (hs : m'.runStatus = m.runStatus) :
    Cancels P customer plan w (saveRunManifest m') v
      (fun _ u => Between customer plan w m' u) := by
  apply Safe.query (stable_landed m) h
  intro v hv
  refine ⟨hv.cancelling,trivial,?_⟩
  intro answer u hserve
  have hstored := hv.store hs
  rcases late_save hserve with ⟨rfl,rfl⟩ | ⟨text,rfl,rfl | rfl⟩
  · apply Safe.done (stable_landed m') hstored
    intro u hu
    exact ⟨hu.cancelling,fun _ _ => ⟨hu.cancelling,hu.status⟩⟩
  · exact Cancels.refuse hlaw hplan hv.cancelling _
  · exact Cancels.refuse hlaw hplan hstored.cancelling _

lemma sendAndSave_cancels (hlaw : Lawful P customer) (hplan : WellFormed P customer plan)
    {put : Put} {e : JobEntry} {record : String → JobEntry} {who key : Digest} (hslot : Slot put)
    (h : Between customer plan w (put e) v) :
    Cancels P customer plan w (sendAndSave put record (.cancelOpenJob who key)) v
      (fun e' u => Between customer plan w (put e') u) := by
  apply Safe.query (stable_between hlaw hplan _) h
  intro v hv
  refine ⟨hv.1,trivial,?_⟩
  intro answer u hserve
  rcases late_send hserve with ⟨signature,rfl,c,-,rfl⟩ | ⟨error,rfl,hsent⟩
  · have hlanded : Landed w (put e) ⟨v.land (.cancelOpenJob who key) c,v.underway⟩ :=
      hv.1.lands hv.2
    refine (saveRunManifest_cancels hlaw hplan hlanded
      (hslot.runStatus (e := e))).andThen ?_ (by simp)
    intro _ v' _ hv'
    apply Safe.done (stable_between hlaw hplan _) (hv' () rfl)
    intro v'' hv''
    refine ⟨hv''.1,?_⟩
    intro e' he'
    obtain rfl := Except.ok.inj he'
    exact hv''
  · exact Cancels.refuse hlaw hplan (hv.1.sent hv.2 hsent) _

/-- One turn of `predict cancel`. -/
lemma cancelEntry_cancels (hlaw : Lawful P customer) (hplan : WellFormed P customer plan)
    {put : Put} {e : JobEntry} (signer : Digest) (hslot : Slot put)
    (h : Between customer plan w (put e) v) :
    Cancels P customer plan w (cancelEntry signer put e) v
      (fun e' u => Between customer plan w (put e') u) := by
  have hpass : ∀ e' u, Between customer plan w (put e) u → Cancels P customer plan w (.done e') u
      (fun e' u => Between customer plan w (put e') u) := by
    intro e' u hu
    apply Safe.done (stable_between hlaw hplan _) hu
    intro u' hu'
    refine ⟨hu'.1,?_⟩
    intro e'' he''
    obtain rfl := Except.ok.inj he''
    obtain ⟨m',hfile,hsame⟩ := hu'.2
    exact ⟨hu'.1,m',hfile,hsame.trans hslot.runStatus⟩
  apply Safe.query (stable_between hlaw hplan _) h
  intro v hv
  refine ⟨hv.1,trivial,?_⟩
  intro answer u hserve
  obtain ⟨rfl,-⟩ := late_fetchJob hserve
  refine Safe.lift ?_ (fun error _ => Cancels.refuse hlaw hplan hv.1 error)
  intro found _
  split
  · split
    · exact hpass _ u hv
    · exact hpass _ u hv
  · split
    · exact sendAndSave_cancels hlaw hplan hslot hv
    · exact hpass _ u hv

/-- `predict cancel` marks the run if it returns; stopped before that it left everything as it was,
but for transactions that are underway, or one of them landed. -/
theorem predictCancel_cancels (hlaw : Lawful P customer) (hplan : WellFormed P customer plan)
    (s : Session) (wallet : String) (hstart : Cancelling customer plan w w) :
    Cancels P customer plan w (predictCancel s wallet) w
      (fun _ u => FileCancelled u.toWorld) := by
  have hstable := stable_cancelling (w := w) hlaw hplan
  refine Safe.lift ?_ (fun error _ => Cancels.refuse hlaw hplan hstart error)
  intro signer _
  refine Safe.bind (Safe.query hstable hstart ?_)
  intro v hv
  refine ⟨hv,trivial,?_⟩
  intro answer u hserve
  obtain ⟨rfl,rfl⟩ := late_load hserve
  cases hfile : u.file with
  | none => exact Cancels.refuse hlaw hplan hv _
  | some m =>
    apply Safe.done (stable_between hlaw hplan m) ⟨hv,m,hfile,rfl⟩
    intro v₁ hv₁
    refine ⟨hv₁.1,?_⟩
    have hturn : Turns (lateService P customer) (Cancelling customer plan w) (fun _ _ => True)
        (cancelEntry signer) (Between customer plan w) (fun _ _ => True) := by
      intro put e v hslot hv
      refine (cancelEntry_cancels hlaw hplan signer hslot hv).weaken ?_
      intro r u _ hr e' he'
      exact ⟨hr e' he',trivial,fun _ h => h⟩
    have hI : Invariants (lateService P customer) (Cancelling customer plan w)
        (Between customer plan w) (fun _ _ => True) :=
      ⟨stable_between hlaw hplan,fun _ _ _ _ h => h,fun _ _ h => h.1⟩
    refine (walkEntries_safe hturn hI hv₁).andThen ?_ (by simp)
    intro walked v₂ _ hr
    have hv₂ := (hr walked rfl).1
    -- The last save marks the run, or leaves what the turns left.
    have hmarked : ∀ v : Late, FileCancelled
        (v.store {walked with status := some .runCancelled}) := fun v => ⟨_,rfl,rfl⟩
    have hend : ∀ v : Late, Cancelling customer plan w
        ⟨v.store {walked with status := some .runCancelled},v.underway⟩ :=
      fun v => ⟨fun _ => hmarked v,.inl (hmarked v)⟩
    refine Safe.bind (Safe.query hstable hv₂.1 ?_)
    intro v₃ hv₃
    refine ⟨hv₃,trivial,?_⟩
    intro answer u hserve
    rcases late_save hserve with ⟨rfl,rfl⟩ | ⟨text,rfl,rfl | rfl⟩
    · have hboth : Stable (lateService P customer)
          (fun v => Cancelling customer plan w v ∧ FileCancelled v.toWorld) := by
        intro a b hd h
        exact ⟨hstable a b hd h.1,stable_fileCancelled a b hd h.2⟩
      apply Safe.done hboth ⟨hend v₃,hmarked v₃⟩
      intro v₄ hv₄
      refine ⟨hv₄.1,?_⟩
      apply Safe.done hboth hv₄
      intro v₅ hv₅
      exact ⟨hv₅.1,fun _ _ => hv₅.2⟩
    · exact Cancels.refuse hlaw hplan hv₃ _
    · exact Cancels.refuse hlaw hplan (hend v₃) _

end Turn

section History
variable {P : Program} {customer : Digest} {s : Session} {w v : Late}

/-- A cancel stopped in `v` with `rest` to run was not torn: no cancel landed or can still land, or
it ran to its end, or the run was marked before. -/
def Clean (w v : Late) (rest : Command RunManifest) : Prop :=
  (∀ who key, Transaction.cancelOpenJob who key ∉ v.landed ++ v.underway) ∨
    (∃ m, rest = .done m) ∨ FileCancelled w.toWorld

/-- One command, stopped anywhere: an open of the plan, a resume, or a cancel that is not torn. -/
def OpensResumesOrCancels [CharData] (P : Program) (customer : Digest) (h : OpenHost)
    (o : OpenOptions) (t : OpenTerms) (w v : Late) : Prop :=
  ∃ s : Session, Stops (lateService P customer) (predictOpenRun s h o t) w v ∨
    (∃ wallet, Stops (lateService P customer) (predictResume s wallet) w v) ∨
    ∃ wallet rest, Reaches (lateService P customer) w (predictCancel s wallet) v rest ∧
      Clean w v rest

/-- What the saved manifest tells: the run was marked cancelled, or it claims no more than the
accounts show and nothing was cancelled. -/
def Told (customer : Digest) (plan : RunManifest) (w : Late) : Prop :=
  FileCancelled w.toWorld ∨ Honest (Harmless customer plan) plan w

lemma refusal_safe (e : CommandError) (hw : FileCancelled w.toWorld) :
    Safe (lateService P customer) (fun v => FileCancelled v.toWorld) (fun _ _ => True)
      (fun _ _ => True) (.raise e : Command RunManifest) w :=
  Safe.raise stable_fileCancelled hw (fun _ hv => ⟨hv,trivial⟩)

/-- A marked run is left alone by `predict open`. -/
lemma predictOpenRun_refused [CharData] {h : OpenHost} {o : OpenOptions} {t : OpenTerms}
    (hw : FileCancelled w.toWorld) :
    Safe (lateService P customer) (fun v => FileCancelled v.toWorld) (fun _ _ => True)
      (fun _ _ => True) (predictOpenRun s h o t) w := by
  refine Safe.lift ?_ (fun e _ => refusal_safe e hw)
  intro plan _
  apply Safe.query stable_fileCancelled hw
  intro v hv
  refine ⟨hv,trivial,?_⟩
  intro answer u hserve
  obtain ⟨rfl,rfl⟩ := late_load hserve
  obtain ⟨m,hfile,hstatus⟩ := hv
  rw [if_pos (by simp [hfile])]
  exact refusal_safe _ ⟨m,hfile,hstatus⟩

/-- A marked run is left alone by `predict resume`. -/
lemma predictResume_refused {wallet : Option String} (hw : FileCancelled w.toWorld) :
    Safe (lateService P customer) (fun v => FileCancelled v.toWorld) (fun _ _ => True)
      (fun _ _ => True) (predictResume s wallet) w := by
  apply Safe.query stable_fileCancelled hw
  intro v hv
  refine ⟨hv,trivial,?_⟩
  intro answer u hserve
  obtain ⟨rfl,rfl⟩ := late_load hserve
  obtain ⟨m,hfile,hstatus⟩ := hv
  rw [hfile]
  change Safe _ _ _ _ (resumeLoaded s wallet m) u
  unfold resumeLoaded
  split
  · rename_i hopen
    rw [runIsResumable_alreadyOpen hopen] at hstatus
    cases hstatus
  · exact refusal_safe _ ⟨m,hfile,hstatus⟩
  · rename_i hok
    rw [runIsResumable_ok hok] at hstatus
    cases hstatus

/-- Without cancels underway, what is underway are steps of the plan. -/
lemma Honest.steps {plan : RunManifest} (h : Honest (StepOrCancel customer plan) plan w)
    (hnone : ∀ who key, Transaction.cancelOpenJob who key ∉ w.underway) :
    Honest (Harmless customer plan) plan w := by
  refine ⟨h.follows,h.started,fun tx htx => ?_,h.uncancelled⟩
  refine (h.underway tx htx).resolve_right ?_
  rintro ⟨who,key,rfl⟩
  exact hnone who key htx

lemma Told.cancelling {plan : RunManifest} (hw : Told customer plan w) :
    Cancelling customer plan w w := by
  refine ⟨fun h => h,hw.imp_right (fun h => .inr ?_)⟩
  exact ⟨h.follows,h.started,fun tx htx => .inl (h.underway tx htx),h.uncancelled⟩

/-- One command keeps what the manifest tells true. -/
lemma Told.step [CharData] {h : OpenHost} {o : OpenOptions} {t : OpenTerms} {run : Run}
    {r : RunShape} (hlaw : Lawful P customer) (hpda : h.jobPda = P.jobPda)
    (hcustomer : h.customer = customer) (hopen : predictOpen h o = .ok (run,r))
    (hw : Told customer (openedManifest h o t run) w)
    (hstep : OpensResumesOrCancels P customer h o t w v) :
    Told customer (openedManifest h o t run) v := by
  have hplan := openedManifest_wellFormed (t := t) hlaw hpda hcustomer hopen
  obtain ⟨s,hstop | ⟨wallet,hstop⟩ | ⟨wallet,rest,hreach,hclean⟩⟩ := hstep
  · rcases hw with hmarked | hhonest
    · exact .inl ((predictOpenRun_refused hmarked).stops hstop)
    · exact .inr ((predictOpenRun_keeping hlaw hpda hcustomer hopen hhonest).stops hstop)
  · rcases hw with hmarked | hhonest
    · exact .inl ((predictResume_refused hmarked).stops hstop)
    · exact .inr ((predictResume_keeping hlaw hplan wallet hhonest).stops hstop)
  · have hsafe := (predictCancel_cancels hlaw hplan s wallet hw.cancelling).reaches hreach
    have hprogress := hsafe.invariant
    rcases hclean with hquiet | ⟨m,rfl⟩ | hmarked
    · simp only [List.mem_append,not_or] at hquiet
      rcases hprogress.moved with hmarked | ⟨who,key,hlanded⟩ | hhonest
      · exact .inl hmarked
      · exact absurd hlanded (hquiet who key).1
      · exact .inr (hhonest.steps (fun who key => (hquiet who key).2))
    · exact .inl (hsafe.outcome m rfl)
    · exact .inl (hprogress.kept hmarked)

lemma told_of_history [CharData] {h : OpenHost} {o : OpenOptions} {t : OpenTerms} {run : Run}
    {r : RunShape} (hlaw : Lawful P customer) (hpda : h.jobPda = P.jobPda)
    (hcustomer : h.customer = customer) (hopen : predictOpen h o = .ok (run,r)) {w₀ : Late}
    (hstart : w₀.file = none) (hlanded : w₀.landed = []) (hunderway : w₀.underway = [])
    (hhistory : Relation.ReflTransGen (OpensResumesOrCancels P customer h o t) w₀ w) :
    Told customer (openedManifest h o t run) w := by
  induction hhistory with
  | refl =>
    refine .inr ⟨?_,fun _ => hunderway,?_,?_⟩
    · intro m hm
      simp [hstart] at hm
    · simp [hunderway]
    · intro who key
      simp [hlanded]
  | tail _ hstep ih => exact ih.step hlaw hpda hcustomer hopen hstep

/-- A manifest that says `open` describes an open run, over every history of opens, resumes and
cancels, each stopped anywhere and with its transactions landing whenever they do, in which no
cancel is torn: every branch job is on chain with its input committed, and none was cancelled by
these commands. -/
theorem open_manifest_describes_run [CharData] {h : OpenHost} {o : OpenOptions} (t : OpenTerms)
    {run : Run} {r : RunShape} (hlaw : Lawful P customer) (hpda : h.jobPda = P.jobPda)
    (hcustomer : h.customer = customer) (hopen : predictOpen h o = .ok (run,r)) {w₀ : Late}
    (hstart : w₀.file = none) (hlanded : w₀.landed = []) (hunderway : w₀.underway = [])
    (hhistory : Relation.ReflTransGen (OpensResumesOrCancels P customer h o t) w₀ w)
    {m : RunManifest} (hfile : w.file = some m) (hstatus : m.runStatus = .runOpen) :
    BranchesCommitted (openedManifest h o t run) w.chain ∧
      ∀ who, ∀ e ∈ (openedManifest h o t run).branchJobs,
        Transaction.cancelOpenJob who e.job ∉ w.landed := by
  rcases told_of_history hlaw hpda hcustomer hopen hstart hlanded hunderway hhistory with
    ⟨m',hfile',hmarked⟩ | hhonest
  · obtain rfl := Option.some.inj (hfile.symm.trans hfile')
    rw [hstatus] at hmarked
    cases hmarked
  · exact ⟨(hhonest.follows m hfile).branchesCommitted hstatus,
      fun who e _ => hhonest.uncancelled who e.job⟩

end History

section Sample
open Prediction

/-- A cancel that is still underway when its call raises. -/
lemma cancelEntry_raises {P : Program} {who signer : Digest} {put : Put} {e : JobEntry} {job : Job}
    {w : Late} (hjob : w.chain e.job = some job)
    (hopen : job.status = jobStatusAwaitingArtifact ∨ job.status = jobStatusOpen) :
    Reaches (lateService P who) w (cancelEntry signer put e)
      ⟨w.toWorld,w.underway ++ [.cancelOpenJob signer e.job]⟩ (.raise (.rpc timeout)) := by
  refine .step (a := .ok (some job)) ⟨⟨rfl,.inl (by rw [hjob])⟩,rfl⟩ ?_
  change Reaches _ _ (if _ then _ else _) _ _
  rw [if_pos hopen]
  exact .step (a := .error timeout) (.inr ⟨timeout,rfl,rfl⟩) .start

/-- The sample run, opened, and a cancel of it stopped before it sent anything. -/
theorem open_manifest_describes_run_sample : let _ := CharData.ascii
    ∃ run r, ∃ w v : Late, ∃ m,
      Stops (lateService sampleProgram (natKey 1))
        (predictOpenRun sampleSession sampleHost meanOptions sampleTerms) ⟨emptyWorld,[]⟩ w ∧
      Stops (lateService sampleProgram (natKey 1)) (predictCancel sampleSession "customer") w v ∧
      predictOpen sampleHost meanOptions = .ok (run,r) ∧
      v.file = some m ∧ m.runStatus = .runOpen ∧ BranchesCommitted (sampleRun run) v.chain := by
  let _ := CharData.ascii
  obtain ⟨run,r,-,-,hopen,-⟩ := mean_settles
  obtain ⟨b,hb,-⟩ := single_branch hopen
  obtain ⟨c,-,-,⟨_,hdone⟩,-⟩ := sample_committed hopen hb
  have hopened := reaches_late hdone []
  have hstop : Reaches (lateService sampleProgram (natKey 1)) ⟨sampleWorld (doneRun run b) b c,[]⟩
      (predictCancel sampleSession "customer") ⟨sampleWorld (doneRun run b) b c,[]⟩ _ := .start
  refine ⟨run,r,_,_,doneRun run b,⟨_,hopened⟩,⟨_,hstop⟩,hopen,rfl,rfl,?_⟩
  refine (open_manifest_describes_run sampleTerms (sampleProgram_lawful (natKey 1)) rfl rfl hopen
    rfl rfl rfl (.tail (.single ⟨sampleSession,.inl ⟨_,hopened⟩⟩)
      ⟨sampleSession,.inr (.inr ⟨_,_,hstop,.inl ?_⟩)⟩) rfl rfl).1
  simp

/-- A cancel whose first transaction lands after its call raised leaves a manifest that says `open`
over a job this run cancelled. -/
theorem open_manifest_after_torn_cancel : let _ := CharData.ascii
    ∃ w v : Late, ∃ m e job,
      Stops (lateService sampleProgram (natKey 1))
        (predictOpenRun sampleSession sampleHost meanOptions sampleTerms) ⟨emptyWorld,[]⟩ w ∧
      Stops (lateService sampleProgram (natKey 1)) (predictCancel sampleSession "customer") w v ∧
      v.file = some m ∧ m.runStatus = .runOpen ∧ e ∈ m.branchJobs ∧
      v.chain e.job = some job ∧ job.status = jobStatusCancelled ∧
      Transaction.cancelOpenJob (natKey 1) e.job ∈ v.landed := by
  let _ := CharData.ascii
  obtain ⟨run,r,-,-,hopen,-⟩ := mean_settles
  obtain ⟨b,hb,-⟩ := single_branch hopen
  obtain ⟨c,hjob,-,⟨_,hdone⟩,-⟩ := sample_committed hopen hb
  obtain ⟨c',hcancels,hjob'⟩ : ∃ c', sampleProgram.executes c
      (.cancelOpenJob (natKey 1) (natKey b.nonce)) c' ∧
      c' (natKey b.nonce) = some {committedJob b with status := jobStatusCancelled} :=
    ⟨_,moveJob_eq_some.mpr ⟨_,hjob,by simp [committedJob,openedJob],rfl⟩,Function.update_self _ _ _⟩
  have hraises : Reaches (lateService sampleProgram (natKey 1))
      ⟨sampleWorld (doneRun run b) b c,[]⟩ (predictCancel sampleSession "customer")
      ⟨sampleWorld (doneRun run b) b c,[.cancelOpenJob (natKey 1) (natKey b.nonce)]⟩
      (.raise (.rpc timeout)) := by
    refine .step (a := some (doneRun run b)) ⟨⟨rfl,rfl⟩,rfl⟩ ?_
    exact (Reaches.bind (walkEntries_raise rfl (cancelEntry_raises hjob (.inr rfl)))).trans .start
  -- The command has stopped; its transaction lands now.
  have hlate := Reaches.drift hraises (.single (.only hcancels))
  exact ⟨_,_,doneRun run b,_,_,⟨_,reaches_late hdone []⟩,⟨_,hlate⟩,rfl,rfl,
    List.mem_singleton_self _,hjob',rfl,List.mem_concat_self⟩

end Sample

end Kswarm.Lifecycle
