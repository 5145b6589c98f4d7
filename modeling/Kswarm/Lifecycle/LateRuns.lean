import Kswarm.Lifecycle.InFlight

/-! `predict open` and `predict resume` with transactions that land late: wherever they stop, the
saved manifest claims no more than the accounts show. -/
namespace Kswarm.Lifecycle
open Cli Worker

section Drive
variable {P : Program} {customer : Digest} {plan : RunManifest} {s : Session} {w : Late}

/-- The guarantee of a command: what is saved stays honest wherever it stops. -/
abbrev Keeping (P : Program) (customer : Digest) (plan : RunManifest) {α : Type} (p : Command α)
    (w : Late) (post : α → Late → Prop) : Prop :=
  Safe (lateService P customer) (Honest (Harmless customer plan) plan) (fun _ _ => True)
    (fun r v => ∀ a, r = .ok a → post a v) p w

lemma Keeping.refuse (hlaw : Lawful P customer) (hplan : WellFormed P customer plan) {α : Type}
    {post : α → Late → Prop} (h : Honest (Harmless customer plan) plan w) (e : CommandError) :
    Keeping P customer plan (.raise e) w post :=
  Safe.raise (stable_honest hlaw hplan) h (fun _ hv => ⟨hv,by simp⟩)

/-- An entry that is left as it is, or changed in memory only. -/
lemma Keeping.carried (hlaw : Lawful P customer) (hplan : WellFormed P customer plan) {put : Put}
    {e : JobEntry} {Q : JobEntry → Prop} (h : Carried customer plan (put e) w) (hQ : Q e) :
    Keeping P customer plan (.done e) w (fun e' v => Carried customer plan (put e') v ∧ Q e') := by
  apply Safe.done (stable_carried hlaw hplan _) h
  intro v hv
  refine ⟨hv.honest,?_⟩
  intro e' he'
  obtain rfl := Except.ok.inj he'
  exact ⟨hv,hQ⟩

lemma saveRunManifest_keeping (hlaw : Lawful P customer) (hplan : WellFormed P customer plan)
    {m : RunManifest} (h : Carried customer plan m w) :
    Keeping P customer plan (saveRunManifest m) w (fun _ v => Carried customer plan m v) := by
  apply Safe.query (stable_carried hlaw hplan m) h
  intro v hv
  refine ⟨hv.honest,trivial,?_⟩
  intro answer u hserve
  have hu : Carried customer plan m u := by
    rcases late_save hserve with ⟨-,rfl⟩ | ⟨text,-,rfl | rfl⟩
    · exact hv.store hv.follows hv.opening
    · exact hv
    · exact hv.store hv.follows hv.opening
  apply Safe.liftEnd (stable_carried hlaw hplan m) hu
  exact fun v' hv' => ⟨hv'.honest,fun _ _ => hv'⟩

/-- Replacing an entry leaves the other branches. -/
lemma Slot.branchJobs {put : Put} {e e' x : JobEntry} (hslot : Slot put)
    (hx : x ∈ (put e').branchJobs) : x = e' ∨ x ∈ (put e).branchJobs := by
  cases hslot with
  | branch run before rest =>
    rcases List.mem_append.mp hx with hb | hr
    · exact .inr (List.mem_append_left _ hb)
    · rcases List.mem_cons.mp hr with rfl | hr
      · exact .inl rfl
      · exact .inr (List.mem_append_right _ (List.mem_cons_of_mem _ hr))
  | aggregate run => exact .inr hx

/-- An entry moves on, and the manifest in memory with it. -/
lemma Carried.put {put : Put} {e e' : JobEntry} (hslot : Slot put)
    (h : Carried customer plan (put e) w) (hterms : terms e' = terms e)
    (hmodest : Modest w.chain e') :
    Carried customer plan (put e') w := by
  have hopening : (put e').runStatus ≠ .runOpen := by
    rw [hslot.runStatus (e := e)]
    exact h.opening
  refine ⟨h.honest,⟨hslot.plans h.follows.plans hterms,h.follows.inputs,?_,
    fun hopen => absurd hopen hopening⟩,hopening,h.saved⟩
  intro x hx
  rcases hslot.branchJobs hx with rfl | hmem
  · exact hmodest
  · exact h.follows.modest x hmem

/-- What a step of the plan leaves when its call raises. -/
lemma Carried.sent (hlaw : Lawful P customer) {m : RunManifest} {v : Late}
    {transaction : Transaction} (h : Carried customer plan m w)
    (hharm : Harmless customer plan transaction)
    (hsent : Sent P transaction w v) : Honest (Harmless customer plan) plan v := by
  cases hsent with
  | landed hex => exact h.honest.land hlaw h.saved hharm hex h.honest.underway
  | lost => exact h.honest
  | underway =>
    refine ⟨h.honest.follows,fun hnone => absurd hnone h.saved,?_,h.honest.uncancelled⟩
    intro tx htx
    rcases List.mem_append.mp htx with hold | hnew
    · exact h.honest.underway tx hold
    · obtain rfl := List.mem_singleton.mp hnew
      exact hharm

/-- Sending a step of the plan and recording it. -/
lemma sendAndSave_keeping (hlaw : Lawful P customer) (hplan : WellFormed P customer plan)
    {put : Put} {e : JobEntry} (record : String → JobEntry) {transaction : Transaction}
    (hslot : Slot put) (h : Carried customer plan (put e) w)
    (hharm : Harmless customer plan transaction)
    (hterms : ∀ signature, terms (record signature) = terms e)
    (hmodest : ∀ c c' signature, P.executes c transaction c' → Modest c' (record signature)) :
    Keeping P customer plan (sendAndSave put record transaction) w
      (fun e' v => Carried customer plan (put e') v ∧ ∃ signature, e' = record signature) := by
  apply Safe.query (stable_carried hlaw hplan _) h
  intro v hv
  refine ⟨hv.honest,trivial,?_⟩
  intro answer u hserve
  rcases late_send hserve with ⟨signature,rfl,c,hex,rfl⟩ | ⟨error,rfl,hsent⟩
  · have hon := onward_executes hlaw hharm hex
    have hlanded : Carried customer plan (put e) ⟨v.land transaction c,v.underway⟩ :=
      ⟨hv.honest.land hlaw hv.saved hharm hex hv.honest.underway,hv.follows.onward hon,hv.opening,
        hv.saved⟩
    have hrecorded := hlanded.put hslot (hterms signature) (hmodest _ _ signature hex)
    refine (saveRunManifest_keeping hlaw hplan hrecorded).andThen ?_ (by simp)
    intro _ v' _ hv'
    exact Keeping.carried hlaw hplan (hv' () rfl) ⟨signature,rfl⟩
  · exact Keeping.refuse hlaw hplan (hv.sent hlaw hharm hsent) _

/-- Opening a planned entry. -/
lemma openPlannedJob_keeping (hlaw : Lawful P customer) (hplan : WellFormed P customer plan)
    {put : Put} {e : JobEntry} (hslot : Slot put) (h : Carried customer plan (put e) w) :
    Keeping P customer plan (openPlannedJob s customer put e) w
      (fun e' v => Carried customer plan (put e') v ∧ e'.entryStatus = .jobOpened) := by
  unfold openPlannedJob
  split
  · exact Keeping.refuse hlaw hplan h.honest _
  · refine Safe.lift ?_ (fun e _ => Keeping.refuse hlaw hplan h.honest e)
    intro args _
    refine (sendAndSave_keeping hlaw hplan (recordOpened e) hslot h ?_ (fun _ => rfl) ?_).weaken ?_
    · exact rfl
    · exact fun c c' signature _ => .inl rfl
    · intro r v _ hr e' he'
      obtain ⟨hv,signature,rfl⟩ := hr e' he'
      exact ⟨hv,rfl⟩

/-- An entry of the plan has the input of the planned branch for its job. -/
lemma planned_input (hplan : WellFormed P customer plan) {m : RunManifest} (h : Plans plan m)
    {e e₀ : JobEntry} (he : e ∈ m.runJobEntries) (he₀ : e₀ ∈ plan.branchJobs)
    (hjob : e₀.job = e.job) : e₀.inputCid = e.inputCid := by
  obtain ⟨e₁,he₁,hterms⟩ := h.branch he₀
  have hsame : e₁ = e := List.inj_on_of_nodup_map (hplan.plans h).distinct
    (List.mem_append_left _ he₁) he ((sameTerms hterms).job.trans hjob)
  rw [← (sameTerms hterms).inputCid,hsame]

/-- Committing the artifact of an opened entry. -/
lemma commitOpenedJob_keeping (hlaw : Lawful P customer) (hplan : WellFormed P customer plan)
    {put : Put} {e : JobEntry} (hslot : Slot put) (h : Carried customer plan (put e) w) :
    Keeping P customer plan (commitOpenedJob customer put e) w
      (fun e' v => Carried customer plan (put e') v ∧ e'.entryStatus = .jobCommitted) := by
  refine Safe.lift ?_ (fun e _ => Keeping.refuse hlaw hplan h.honest e)
  intro inputCid hcid
  rw [require_eq_ok] at hcid
  have hharm : Harmless customer plan (.commitInputArtifact customer e.job inputCid) := by
    refine ⟨rfl,fun e₀ he₀ hjob => ?_⟩
    rw [planned_input hplan h.follows.plans (hslot.mem e) he₀ hjob,hcid]
  refine (sendAndSave_keeping hlaw hplan (recordCommitted e) hslot h hharm
    (fun _ => rfl) ?_).weaken ?_
  · intro c c' signature hex
    obtain ⟨_,job,-,-,rfl,hpast,-⟩ := hlaw.commits _ _ _ _ hex
    exact .inr ⟨rfl,job,Function.update_self _ _ _,hpast⟩
  · intro r v _ hr e' he'
    obtain ⟨hv,signature,rfl⟩ := hr e' he'
    exact ⟨hv,rfl⟩

/-- One turn of `_drive_run_open`. -/
lemma driveEntry_keeping (hlaw : Lawful P customer) (hplan : WellFormed P customer plan)
    {put : Put} {e : JobEntry} (hslot : Slot put) (h : Carried customer plan (put e) w) :
    Keeping P customer plan (driveEntry s customer put e) w
      (fun e' v => Carried customer plan (put e') v ∧ e'.pending = false) := by
  have hopen : Keeping P customer plan (openIfPlanned s customer put e) w
      (fun e' v => Carried customer plan (put e') v ∧ e'.entryStatus ≠ .jobPlanned) := by
    unfold openIfPlanned
    split
    · refine (openPlannedJob_keeping hlaw hplan hslot h).weaken ?_
      intro r v _ hr e' he'
      exact ⟨(hr e' he').1,by simp [(hr e' he').2]⟩
    · rename_i hstatus
      exact Keeping.carried hlaw hplan h hstatus
  refine hopen.andThen ?_ (by simp)
  intro opened v _ hr
  obtain ⟨hv,hplanned⟩ := hr opened rfl
  split
  · refine (commitOpenedJob_keeping hlaw hplan hslot hv).weaken ?_
    intro r u _ hr e' he'
    exact ⟨(hr e' he').1,by simp [JobEntry.pending,(hr e' he').2]⟩
  · rename_i hstatus
    exact Keeping.carried hlaw hplan hv (by simp [JobEntry.pending,hplanned,hstatus])

/-- `_drive_run_open`. The last save says `open`, over entries that are all committed by then. -/
theorem driveRunOpen_keeping (hlaw : Lawful P customer) (hplan : WellFormed P customer plan)
    {m : RunManifest} (h : Carried customer plan m w) :
    Keeping P customer plan (driveRunOpen s customer m) w (fun _ _ => True) := by
  have hturn : Turns (lateService P customer) (Honest (Harmless customer plan) plan)
      (fun _ _ => True) (driveEntry s customer) (Carried customer plan)
      (fun e _ => e.pending = false) := by
    intro put e w hslot hw
    refine (driveEntry_keeping hlaw hplan hslot hw).weaken ?_
    intro r v _ hr e' he'
    exact ⟨(hr e' he').1,(hr e' he').2,fun _ hx => hx⟩
  have hI : Invariants (lateService P customer) (Honest (Harmless customer plan) plan)
      (Carried customer plan) (fun e _ => e.pending = false) :=
    ⟨stable_carried hlaw hplan,fun _ _ _ _ hx => hx,fun _ _ hw => hw.honest⟩
  refine (walkEntries_safe hturn hI h).andThen ?_ (by simp)
  intro driven v _ hr
  obtain ⟨hv,hsettled⟩ := hr driven rfl
  have hstore : ∀ v, Carried customer plan driven v → Honest (Harmless customer plan) plan
      ⟨v.store {driven with status := some .runOpen},v.underway⟩ := by
    intro v hv
    refine hv.honest.store ⟨⟨hv.follows.plans.customer,hv.follows.plans.branches,
      hv.follows.plans.aggregate⟩,hv.follows.inputs,hv.follows.modest,fun _ e he => ?_⟩
    rcases hv.follows.modest e he with hpending | hcommitted
    · rw [hsettled e (List.mem_append_left _ he)] at hpending
      cases hpending
    · exact hcommitted.1
  refine Safe.bind (Safe.query (stable_carried hlaw hplan driven) hv ?_)
  intro v hv
  refine ⟨hv.honest,trivial,?_⟩
  intro answer u hserve
  have hend : ∀ u, Honest (Harmless customer plan) plan u →
      Keeping P customer plan (.done {driven with status := some .runOpen}) u
        (fun _ _ => True) :=
    fun u hu => Safe.done (stable_honest hlaw hplan) hu (fun _ hv => ⟨hv,by simp⟩)
  rcases late_save hserve with ⟨rfl,rfl⟩ | ⟨text,rfl,rfl | rfl⟩
  · apply Safe.done (stable_honest hlaw hplan) (hstore v hv)
    exact fun v' hv' => ⟨hv',hend v' hv'⟩
  · exact Keeping.refuse hlaw hplan hv.honest _
  · exact Keeping.refuse hlaw hplan (hstore v hv) _

end Drive

section Reconcile
variable {P : Program} {customer : Digest} {plan : RunManifest} {w : Late}

/-- One turn of `_reconcile_run_with_chain`. -/
lemma reconcileEntry_keeping (hlaw : Lawful P customer) (hplan : WellFormed P customer plan)
    {put : Put} {e : JobEntry} (hslot : Slot put) (h : Carried customer plan (put e) w) :
    Keeping P customer plan (reconcileEntry put e) w
      (fun e' v => Carried customer plan (put e') v ∧ True) := by
  unfold reconcileEntry
  split
  · exact Keeping.carried hlaw hplan h trivial
  · apply Safe.query (stable_carried hlaw hplan _) h
    intro v hv
    refine ⟨hv.honest,trivial,?_⟩
    intro answer u hserve
    obtain ⟨rfl,hanswer⟩ := late_fetchJob hserve
    refine Safe.lift ?_ (fun error _ => Keeping.refuse hlaw hplan hv.honest error)
    intro found hfound
    have hseen : u.chain e.job = found := by
      rcases hanswer with rfl | ⟨error,rfl⟩
      · exact Except.ok.inj ((ok_of_mapError _ _ _).mp hfound)
      · simp [Except.mapError] at hfound
    split
    · exact Keeping.carried hlaw hplan (hv.put hslot rfl (.inl rfl)) trivial
    · rename_i job
      split
      · exact Keeping.refuse hlaw hplan hv.honest _
      · split
        · exact Keeping.carried hlaw hplan (hv.put hslot rfl (.inl rfl)) trivial
        · rename_i hpast
          exact Keeping.carried hlaw hplan (hv.put hslot rfl (.inr ⟨rfl,job,hseen,hpast⟩)) trivial

lemma reconcileRunWithChain_keeping (hlaw : Lawful P customer)
    (hplan : WellFormed P customer plan) {m : RunManifest} (h : Carried customer plan m w) :
    Keeping P customer plan (reconcileRunWithChain m) w
      (fun m' v => Carried customer plan m' v) := by
  have hturn : Turns (lateService P customer) (Honest (Harmless customer plan) plan)
      (fun _ _ => True) reconcileEntry (Carried customer plan) (fun _ _ => True) := by
    intro put e w hslot hw
    refine (reconcileEntry_keeping hlaw hplan hslot hw).weaken ?_
    intro r v _ hr e' he'
    exact ⟨(hr e' he').1,trivial,fun _ hx => hx⟩
  have hI : Invariants (lateService P customer) (Honest (Harmless customer plan) plan)
      (Carried customer plan) (fun _ _ => True) :=
    ⟨stable_carried hlaw hplan,fun _ _ _ _ hx => hx,fun _ _ hw => hw.honest⟩
  refine (walkEntries_safe hturn hI h).weaken ?_
  exact fun r v _ hr m' hm' => (hr m' hm').1

end Reconcile

section Commands
variable {P : Program} {customer : Digest} {s : Session} {w : Late}

/-- What `predict open` saves first claims nothing. -/
lemma openedManifest_follows {h : OpenHost} {t : OpenTerms} {run : Run} {c : Chain}
    {o : OpenOptions}
    (habsent : ∀ job ∈ (openedManifest h o t run).runJobEntries.map JobEntry.job, c job = none) :
    Follows (openedManifest h o t run) (openedManifest h o t run) c := by
  refine ⟨.refl _,?_,?_,by simp [RunManifest.runStatus,openedManifest]⟩
  · intro e he job hjob
    have hnone := habsent e.job (List.mem_map_of_mem (List.mem_append_left _ he))
    rw [hnone] at hjob
    cases hjob
  · intro e he
    obtain ⟨b,-,rfl⟩ := List.mem_map.mp he
    exact .inl rfl

lemma stable_file (file : Option RunManifest) :
    Stable (lateService P customer) (fun v => v.file = file) := by
  apply stable_of_moves
  rintro w v (_ | _ | _) hw
  · exact hw
  · exact hw
  · exact hw

variable {plan : RunManifest}

/-- The manifest that was read is the one saved, and it follows the plan. -/
lemma stable_loaded_late (hlaw : Lawful P customer) (hplan : WellFormed P customer plan)
    (file : Option RunManifest) : Stable (lateService P customer)
      (fun v => Honest (Harmless customer plan) plan v ∧ v.file = file) := by
  intro w v hd h
  exact ⟨stable_honest hlaw hplan w v hd h.1,stable_file file w v hd h.2⟩

lemma loadPredictRun_keeping (hlaw : Lawful P customer) (hplan : WellFormed P customer plan)
    (hw : Honest (Harmless customer plan) plan w) :
    Keeping P customer plan loadPredictRun w
      (fun m v => Honest (Harmless customer plan) plan v ∧ v.file = some m) := by
  apply Safe.query (stable_honest hlaw hplan) hw
  intro v hv
  refine ⟨hv,trivial,?_⟩
  intro answer u hserve
  obtain ⟨rfl,rfl⟩ := late_load hserve
  apply Safe.liftEnd (stable_loaded_late hlaw hplan u.file) ⟨hv,rfl⟩
  intro v' hv'
  refine ⟨hv'.1,?_⟩
  intro m hm
  exact ⟨hv'.1,hv'.2.trans (require_eq_ok.mp hm)⟩

lemma runSigner_keeping (hlaw : Lawful P customer) (hplan : WellFormed P customer plan)
    {file : Option RunManifest} (wallet : Option String) (m : RunManifest)
    (hw : Honest (Harmless customer plan) plan w ∧ w.file = file) :
    Keeping P customer plan (runSigner s wallet m) w (fun signer v =>
      (Honest (Harmless customer plan) plan v ∧ v.file = file) ∧ signer = m.customer) := by
  refine Safe.lift ?_ (fun e _ => Keeping.refuse hlaw hplan hw.1 e)
  intro signer _
  split
  · exact Keeping.refuse hlaw hplan hw.1 _
  · rename_i hsame
    apply Safe.done (stable_loaded_late hlaw hplan file) hw
    intro v hv
    refine ⟨hv.1,?_⟩
    intro signer' hs'
    obtain rfl := Except.ok.inj hs'
    exact ⟨hv,not_not.mp hsame⟩

/-- `predict resume`, whatever is still underway. -/
theorem predictResume_keeping (hlaw : Lawful P customer) (hplan : WellFormed P customer plan)
    (wallet : Option String) (hw : Honest (Harmless customer plan) plan w) :
    Keeping P customer plan (predictResume s wallet) w (fun _ _ => True) := by
  refine (loadPredictRun_keeping hlaw hplan hw).andThen ?_ (by simp)
  intro m v _ hr
  obtain ⟨hv,hfile⟩ := hr m rfl
  split
  · exact Safe.done (stable_honest hlaw hplan) hv (fun _ hv => ⟨hv,by simp⟩)
  · exact Keeping.refuse hlaw hplan hv _
  · rename_i hresumable
    split
    · exact Keeping.refuse hlaw hplan hv _
    · refine (runSigner_keeping hlaw hplan wallet m ⟨hv,hfile⟩).andThen ?_ (by simp)
      intro signer v₁ _ hr
      obtain ⟨⟨hhonest,hfile₁⟩,rfl⟩ := hr signer rfl
      have hm := hhonest.follows m hfile₁
      have howner : m.customer = customer := (hplan.plans hm.plans).owner
      have hcarried : Carried customer plan m v₁ :=
        ⟨hhonest,hm,by simp [runIsResumable_ok hresumable],by simp [hfile₁]⟩
      refine (reconcileRunWithChain_keeping hlaw hplan hcarried).andThen ?_ (by simp)
      intro reconciled v₂ _ hr
      refine (saveRunManifest_keeping hlaw hplan (hr reconciled rfl)).andThen ?_ (by simp)
      intro _ v₃ _ hr
      rw [howner]
      exact driveRunOpen_keeping hlaw hplan (hr () rfl)

/-- Before the first save nothing is underway, so a planned account that is not there stays away. -/
lemma looks_late (hlaw : Lawful P customer) (hplan : WellFormed P customer plan) :
    Looks (lateService P customer) (fun v => v.chain) (fun job => ∃ n, job = P.jobPda customer n)
      (fun v => Honest (Harmless customer plan) plan v ∧ v.file = none)
      (Honest (Harmless customer plan) plan) (fun _ _ => True) := by
  refine ⟨stable_loaded_late hlaw hplan none,fun _ hv => hv.1,fun _ _ _ => trivial,?_,?_⟩
  · intro jobs v answer u hv hserve
    obtain ⟨rfl,hanswer⟩ := late_accountInfos hserve
    exact ⟨hv,rfl,hanswer⟩
  · rintro w v _ hw hd ⟨n,rfl⟩ hnone
    have hstable : Stable (lateService P customer) (fun v =>
        (v.underway = [] ∧ v.file = none) ∧ v.chain (P.jobPda customer n) = none) := by
      apply stable_of_moves
      intro a b hm ha
      cases hm with
      | others hothers => exact ⟨ha.1,(hlaw.others _ _ hothers n).none_iff.mpr ha.2⟩
      | lands hsent _ => simp [hsent] at ha
      | expires hsent => simp [hsent] at ha
    exact (hstable w v hd ⟨⟨hw.1.started hw.2,hw.2⟩,hnone⟩).2

/-- `predict open`, whatever is still underway. -/
theorem predictOpenRun_keeping [CharData] {h : OpenHost} {o : OpenOptions} {t : OpenTerms}
    {run : Run} {r : RunShape} (hlaw : Lawful P customer) (hpda : h.jobPda = P.jobPda)
    (hcustomer : h.customer = customer) (hopen : predictOpen h o = .ok (run,r))
    (hw : Honest (Harmless customer (openedManifest h o t run)) (openedManifest h o t run) w) :
    Keeping P customer (openedManifest h o t run) (predictOpenRun s h o t) w
      (fun _ _ => True) := by
  have hplan := openedManifest_wellFormed (t := t) hlaw hpda hcustomer hopen
  refine Safe.lift ?_ (fun e _ => Keeping.refuse hlaw hplan hw e)
  intro plan hp
  obtain rfl : (run,r) = plan := Except.ok.inj (hopen.symm.trans ((ok_of_mapError _ _ _).mp hp))
  apply Safe.query (stable_honest hlaw hplan) hw
  intro v hv
  refine ⟨hv,trivial,?_⟩
  intro answer u hserve
  obtain ⟨rfl,rfl⟩ := late_load hserve
  split
  · exact Keeping.refuse hlaw hplan hv _
  · rename_i hnone
    have hfile : u.file = none := by simpa using hnone
    have hlooks := looks_late hlaw hplan
    have hjobs : ∀ job ∈ (openedManifest h o t run).runJobEntries.map JobEntry.job,
        ∃ n, job = P.jobPda customer n := by
      intro job hmem
      obtain ⟨e,he,rfl⟩ := List.mem_map.mp hmem
      exact ⟨e.nonce,hplan.derived e he⟩
    refine (hlooks.assertJobsAbsent hjobs ⟨hv,hfile⟩).andThen ?_ (by simp)
    intro _ v₁ _ hr
    have habsent : Stable (lateService P customer) (fun v =>
        (Honest (Harmless customer (openedManifest h o t run)) (openedManifest h o t run) v ∧
          v.file = none) ∧
        ∀ job ∈ (openedManifest h o t run).runJobEntries.map JobEntry.job, v.chain job = none) := by
      intro a b hd ha
      exact ⟨hlooks.stable a b hd ha.1,
        fun job hmem => hlooks.keeps a b job ha.1 hd (hjobs job hmem) (ha.2 job hmem)⟩
    refine Safe.bind (Safe.query habsent (hr () rfl) ?_)
    intro v₂ hv₂
    refine ⟨hv₂.1.1,trivial,?_⟩
    intro answer u₂ hserve
    have hfollows := openedManifest_follows (t := t) (o := o) hv₂.2
    have hstored := hv₂.1.1.store hfollows
    have hcarried : Carried customer (openedManifest h o t run) (openedManifest h o t run)
        ⟨v₂.store (openedManifest h o t run),v₂.underway⟩ :=
      ⟨hstored,hfollows,by simp [RunManifest.runStatus,openedManifest],Option.some_ne_none _⟩
    rcases late_save hserve with ⟨rfl,rfl⟩ | ⟨text,rfl,rfl | rfl⟩
    · apply Safe.done (stable_carried hlaw hplan _) hcarried
      intro v₃ hv₃
      subst hcustomer
      exact ⟨hv₃.honest,driveRunOpen_keeping hlaw hplan hv₃⟩
    · exact Keeping.refuse hlaw hplan hv₂.1.1 _
    · exact Keeping.refuse hlaw hplan hstored _

end Commands
end Kswarm.Lifecycle
