import Kswarm.Lifecycle.Resume

/-! The commands when a transaction whose call raised can still land: after the command that sent it
has stopped, and while later ones run. A step may then be sent twice, but what lands is always a
step of the plan, so an entry never claims more than its account shows. -/
namespace Kswarm.Lifecycle
open Cli Worker

/-- The world, and the transactions that were sent and can still land. -/
structure Late extends World where
  underway : List Transaction

section Moves
variable {P : Program} {who : Digest}

/-- What happens while the holder of a wallet waits: others act, or a transaction of its own lands
late or expires. -/
inductive Moves (P : Program) (who : Digest) : Late → Late → Prop where
  | others {w : Late} {c : Chain} (h : P.others who w.chain c) :
      Moves P who w ⟨{w.toWorld with chain := c},w.underway⟩
  | lands {w : Late} {c : Chain} {before after : List Transaction} {transaction : Transaction}
      (hsent : w.underway = before ++ transaction::after) (h : P.executes w.chain transaction c) :
      Moves P who w ⟨w.land transaction c,before ++ after⟩
  | expires {w : Late} {before after : List Transaction} {transaction : Transaction}
      (hsent : w.underway = before ++ transaction::after) :
      Moves P who w ⟨w.toWorld,before ++ after⟩

/-- Calls are answered as before, except that a transaction whose call raises may stay underway. -/
def lateAnswers (P : Program) : (o : Op) → Late → Ans o → Late → Prop
  | .send transaction,w,answer,v =>
      (answers P (.send transaction) w.toWorld answer v.toWorld ∧ v.underway = w.underway) ∨
      ∃ e : RpcError, answer = .error e ∧ v = ⟨w.toWorld,w.underway ++ [transaction]⟩
  | o,w,answer,v => answers P o w.toWorld answer v.toWorld ∧ v.underway = w.underway

/-- The world as the holder of a wallet meets it, late transactions included. -/
def lateService (P : Program) (who : Digest) : Service Op Ans Late where
  serves := lateAnswers P
  drifts := Relation.ReflTransGen (Moves P who)
  drifts_refl _ := .refl
  drifts_trans _ _ _ := .trans

/-- The one transaction underway lands. -/
lemma Moves.only {w : World} {c : Chain} {transaction : Transaction}
    (h : P.executes w.chain transaction c) :
    Moves P who ⟨w,[transaction]⟩ ⟨w.land transaction c,[]⟩ :=
  @Moves.lands P who ⟨w,[transaction]⟩ c [] [] transaction rfl h

/-- What no move falsifies, no wait falsifies. -/
lemma stable_of_moves {J : Late → Prop} (h : ∀ w v, Moves P who w v → J w → J v) :
    Stable (lateService P who) J := by
  intro w v hd hw
  induction hd with
  | refl => exact hw
  | tail _ hmove ih => exact h _ _ hmove ih

/-- Where nothing is sent late, the world is the one from before. -/
lemma reaches_late {ε α : Type} {w v : World} {p q : Process Op Ans ε α}
    (h : Reaches (service P who) w p v q) (underway : List Transaction) :
    Reaches (lateService P who) ⟨w,underway⟩ p ⟨v,underway⟩ q := by
  induction h with
  | start => exact .start
  | @drift v u q _ hd ih =>
    obtain ⟨hothers,hfile,hlanded,hhooked⟩ := hd
    have hsame : u = {v with chain := u.chain} := by
      cases u
      simp_all
    rw [hsame]
    exact .drift ih (.single (.others hothers))
  | @answer v u o next a _ hs ih =>
    refine .answer ih ?_
    cases o with
    | send transaction => exact .inl ⟨hs,rfl⟩
    | _ => exact ⟨hs,rfl⟩

end Moves

section Answers
variable {P : Program} {w v : Late}

lemma late_eq {w₀ : World} (hworld : v.toWorld = w₀) (hunderway : v.underway = w.underway) :
    v = ⟨w₀,w.underway⟩ := by
  cases v
  cases hworld
  cases hunderway
  rfl

lemma late_load {answer : Ans .load} (h : lateAnswers P .load w answer v) :
    answer = w.file ∧ v = w := by
  obtain ⟨⟨hanswer,hworld⟩,hunderway⟩ := h
  exact ⟨hanswer,late_eq hworld hunderway⟩

lemma late_fetchJob {job : Digest} {answer : Ans (.fetchJob job)}
    (h : lateAnswers P (.fetchJob job) w answer v) :
    v = w ∧ (answer = .ok (w.chain job) ∨ ∃ e : RpcError, answer = .error e) := by
  obtain ⟨⟨hworld,hanswer⟩,hunderway⟩ := h
  exact ⟨late_eq hworld hunderway,hanswer⟩

lemma late_accountInfos {jobs : List Digest} {answer : Ans (.accountInfos jobs)}
    (h : lateAnswers P (.accountInfos jobs) w answer v) :
    v = w ∧ (answer = .ok (jobs.map (fun job => (w.chain job).isSome)) ∨
      ∃ e : RpcError, answer = .error e) := by
  obtain ⟨⟨hworld,hanswer⟩,hunderway⟩ := h
  exact ⟨late_eq hworld hunderway,hanswer⟩

lemma late_save {m : RunManifest} {answer : Ans (.save m)}
    (h : lateAnswers P (.save m) w answer v) :
    (answer = .ok () ∧ v = ⟨w.store m,w.underway⟩) ∨
      ∃ text : String, answer = .error text ∧ (v = w ∨ v = ⟨w.store m,w.underway⟩) := by
  obtain ⟨⟨hanswer,hworld⟩ | ⟨text,hanswer,hworld | hworld⟩,hunderway⟩ := h
  · exact .inl ⟨hanswer,late_eq hworld hunderway⟩
  · exact .inr ⟨text,hanswer,.inl (late_eq hworld hunderway)⟩
  · exact .inr ⟨text,hanswer,.inr (late_eq hworld hunderway)⟩

/-- What a call leaves that sends a transaction: it landed, or nothing did, or it is underway. -/
inductive Sent (P : Program) (transaction : Transaction) (w : Late) : Late → Prop where
  | landed {c : Chain} (h : P.executes w.chain transaction c) :
      Sent P transaction w ⟨w.land transaction c,w.underway⟩
  | lost : Sent P transaction w w
  | underway : Sent P transaction w ⟨w.toWorld,w.underway ++ [transaction]⟩

lemma late_send {transaction : Transaction} {answer : Ans (.send transaction)}
    (h : lateAnswers P (.send transaction) w answer v) :
    (∃ signature : String, answer = .ok signature ∧ ∃ c, P.executes w.chain transaction c ∧
      v = ⟨w.land transaction c,w.underway⟩) ∨
    ∃ e : RpcError, answer = .error e ∧ Sent P transaction w v := by
  rcases h with ⟨⟨signature,hanswer,c,hex,hworld⟩ | ⟨e,hanswer,hworld | ⟨c,hex,hworld⟩⟩,hunderway⟩ |
    ⟨e,hanswer,rfl⟩
  · exact .inl ⟨signature,hanswer,c,hex,late_eq hworld hunderway⟩
  · obtain rfl : v = w := late_eq hworld hunderway
    exact .inr ⟨e,hanswer,.lost⟩
  · obtain rfl : v = ⟨w.land transaction c,w.underway⟩ := late_eq hworld hunderway
    exact .inr ⟨e,hanswer,.landed hex⟩
  · exact .inr ⟨e,hanswer,.underway⟩

end Answers

section Plans

/-- Wherever a planned branch is past awaiting its artifact, its planned input was committed. -/
def Committing (plan : RunManifest) (c : Chain) : Prop :=
  ∀ e ∈ plan.branchJobs, ∀ job, c e.job = some job → ¬Awaiting job → e.inputCid = some job.inputCid

/-- The entry claims no more than its account shows. -/
def Modest (c : Chain) (e : JobEntry) : Prop :=
  e.pending = true ∨
    (e.entryStatus = .jobCommitted ∧ ∃ job, c e.job = some job ∧ ¬Awaiting job)

/-- A manifest of the plan that claims no more than the accounts show. -/
structure Follows (plan m : RunManifest) (c : Chain) : Prop where
  plans : Plans plan m
  inputs : Committing plan c
  modest : ∀ e ∈ m.branchJobs, Modest c e
  opened : m.runStatus = .runOpen → ∀ e ∈ m.branchJobs, e.entryStatus = .jobCommitted

/-- No planned branch falls back, or gets another input. -/
structure Onward (plan : RunManifest) (c c' : Chain) : Prop where
  past : ∀ e ∈ plan.branchJobs, ∀ job, c e.job = some job → ¬Awaiting job →
    ∃ job', c' e.job = some job' ∧ ¬Awaiting job'
  inputs : Committing plan c → Committing plan c'

/-- A transaction of the customer that takes the plan onward. -/
def Harmless (customer : Digest) (plan : RunManifest) : Transaction → Prop
  | .openJob who _ => who = customer
  | .commitInputArtifact who key cid => who = customer ∧
      ∀ e ∈ plan.branchJobs, e.job = key → e.inputCid = some cid
  | _ => False

variable {P : Program} {customer : Digest} {plan m : RunManifest} {c c' : Chain}

/-- A manifest that says `open` is over branches that are on chain with their inputs. -/
lemma Follows.branchesCommitted (h : Follows plan m c) (hs : m.runStatus = .runOpen) :
    BranchesCommitted plan c := by
  intro e₀ he₀
  obtain ⟨e,he,hterms⟩ := h.plans.branch he₀
  have hstatus := h.opened hs e he
  rcases h.modest e he with hpending | ⟨-,job,hjob,hpast⟩
  · simp [JobEntry.pending,hstatus] at hpending
  · rw [(sameTerms hterms).job] at hjob
    exact ⟨job,hjob,hpast,h.inputs e₀ he₀ job hjob hpast⟩

lemma Onward.refl : Onward plan c c := ⟨fun _ _ job hjob hpast => ⟨job,hjob,hpast⟩,fun h => h⟩

/-- A planned branch of the entries of a manifest. -/
lemma Plans.planned (h : Plans plan m) {e : JobEntry} (he : e ∈ m.branchJobs) :
    ∃ e₀ ∈ plan.branchJobs, terms e = terms e₀ := by
  have hmem : terms e ∈ plan.branchJobs.map terms := h.branches ▸ List.mem_map_of_mem he
  obtain ⟨e₀,he₀,hterms⟩ := List.mem_map.mp hmem
  exact ⟨e₀,he₀,hterms.symm⟩

lemma Modest.onward (hon : Onward plan c c') (h : Plans plan m) {e : JobEntry}
    (he : e ∈ m.branchJobs) (hmodest : Modest c e) : Modest c' e := by
  refine hmodest.imp_right ?_
  rintro ⟨hstatus,job,hjob,hpast⟩
  obtain ⟨e₀,he₀,hterms⟩ := h.planned he
  rw [(sameTerms hterms).job] at hjob ⊢
  exact ⟨hstatus,hon.past e₀ he₀ job hjob hpast⟩

lemma Follows.onward (h : Follows plan m c) (hon : Onward plan c c') : Follows plan m c' :=
  ⟨h.plans,hon.inputs h.inputs,fun e he => (h.modest e he).onward hon h.plans he,h.opened⟩

/-- Others take no branch back. -/
lemma onward_others (hlaw : Lawful P customer) (hplan : WellFormed P customer plan)
    (h : P.others customer c c') : Onward plan c c' := by
  have hkeeps : ∀ e ∈ plan.branchJobs, Keeps (c e.job) (c' e.job) := by
    intro e he
    rw [hplan.derived e (List.mem_append_left _ he)]
    exact hlaw.others _ _ h e.nonce
  constructor
  · intro e he job hjob hpast
    have hk := hkeeps e he
    rw [hjob] at hk
    obtain ⟨job',hjob',hpast',-⟩ := hk.past hpast
    exact ⟨job',hjob',hpast'⟩
  · intro hinputs e he job' hjob' hpast
    have hk := hkeeps e he
    cases hjob : c e.job with
    | none => simp [hk.none_iff.mpr hjob] at hjob'
    | some job =>
      rw [hjob] at hk
      by_cases hawait : Awaiting job
      · rw [hk.awaiting hawait] at hjob'
        exact absurd (Option.some.inj hjob' ▸ hawait) hpast
      · obtain ⟨job₁,hjob₁,-,hsame⟩ := hk.past hawait
        obtain rfl := Option.some.inj (hjob₁.symm.trans hjob')
        rw [hsame]
        exact hinputs e he job hjob hawait

/-- A harmless transaction that lands takes no branch back either. -/
lemma onward_executes (hlaw : Lawful P customer) {transaction : Transaction}
    (h : Harmless customer plan transaction) (hex : P.executes c transaction c') :
    Onward plan c c' := by
  cases transaction with
  | openJob who args =>
    obtain rfl : who = customer := h
    obtain ⟨hnone,job₁,rfl,hawait,-⟩ := hlaw.opens _ _ _ hex
    have hcase : ∀ e : JobEntry, ∀ job, Function.update c (P.jobPda who args.nonce) (some job₁)
        e.job = some job → ¬Awaiting job → c e.job = some job := by
      intro e job hjob hpast
      by_cases hkey : e.job = P.jobPda who args.nonce
      · rw [hkey,Function.update_self] at hjob
        exact absurd (Option.some.inj hjob ▸ hawait) hpast
      · rwa [Function.update_of_ne hkey] at hjob
    constructor
    · intro e _ job hjob hpast
      have hkey : e.job ≠ P.jobPda who args.nonce := by
        intro hkey
        rw [hkey,hnone] at hjob
        cases hjob
      exact ⟨job,by rwa [Function.update_of_ne hkey],hpast⟩
    · exact fun hinputs e he job hjob hpast => hinputs e he job (hcase e job hjob hpast) hpast
  | commitInputArtifact who key cid =>
    obtain ⟨rfl,hcid⟩ := h
    obtain ⟨job₀,job₁,-,-,rfl,hpast₁,hcid₁,-⟩ := hlaw.commits _ _ _ _ hex
    constructor
    · intro e _ job hjob hpast
      by_cases hkey : e.job = key
      · exact ⟨job₁,by rw [hkey,Function.update_self],hpast₁⟩
      · exact ⟨job,by rwa [Function.update_of_ne hkey],hpast⟩
    · intro hinputs e he job hjob hpast
      by_cases hkey : e.job = key
      · rw [hkey,Function.update_self] at hjob
        rw [← Option.some.inj hjob,hcid₁]
        exact hcid e he hkey
      · rw [Function.update_of_ne hkey] at hjob
        exact hinputs e he job hjob hpast
  | _ => exact absurd h id

end Plans

section Honest
variable {P : Program} {customer : Digest} {plan m : RunManifest} {w v : Late}

/-- No command of the run landed a cancel. -/
def NoCancels (w : World) : Prop := ∀ who key, Transaction.cancelOpenJob who key ∉ w.landed

/-- The saved manifest claims no more than the accounts show, nothing is underway but transactions
of a kind, and no cancel landed. -/
structure Honest (sent : Transaction → Prop) (plan : RunManifest) (w : Late) : Prop where
  follows : ∀ m, w.file = some m → Follows plan m w.chain
  started : w.file = none → w.underway = []
  underway : ∀ transaction ∈ w.underway, sent transaction
  uncancelled : NoCancels w.toWorld

variable {sent : Transaction → Prop}

/-- Fewer transactions underway. -/
lemma Honest.fewer {before after : List Transaction} {transaction : Transaction}
    (h : Honest sent plan w) (hsent : w.underway = before ++ transaction::after) :
    w.file ≠ none ∧ sent transaction ∧ ∀ tx ∈ before ++ after, sent tx := by
  have hall := h.underway
  rw [hsent] at hall
  refine ⟨?_,hall _ (by simp),?_⟩
  · intro hfile
    have hnil := h.started hfile
    simp [hsent] at hnil
  · intro tx htx
    refine hall tx ?_
    rw [List.mem_append] at htx ⊢
    rw [List.mem_cons]
    tauto

/-- A harmless transaction lands. -/
lemma Honest.land (hlaw : Lawful P customer) (h : Honest sent plan w) (hfile : w.file ≠ none)
    {transaction : Transaction} (hharm : Harmless customer plan transaction) {c : Chain}
    (hex : P.executes w.chain transaction c) {underway : List Transaction}
    (hunderway : ∀ tx ∈ underway, sent tx) : Honest sent plan ⟨w.land transaction c,underway⟩ := by
  refine ⟨?_,fun hnone => absurd hnone hfile,hunderway,?_⟩
  · exact fun m hm => (h.follows m hm).onward (onward_executes hlaw hharm hex)
  · intro who key hmem
    rcases List.mem_append.mp hmem with hold | hnew
    · exact h.uncancelled who key hold
    · obtain rfl := List.mem_singleton.mp hnew
      exact hharm

/-- While the holder waits everything stays honest, until a transaction lands that is not
harmless. -/
lemma Honest.moves (hlaw : Lawful P customer) (hplan : WellFormed P customer plan)
    (h : Honest sent plan w) (hm : Moves P customer w v) :
    Honest sent plan v ∨
      ∃ tx, sent tx ∧ ¬Harmless customer plan tx ∧ tx ∈ v.landed := by
  cases hm with
  | @others c hothers =>
    exact .inl ⟨fun m hm => (h.follows m hm).onward (onward_others hlaw hplan hothers),h.started,
      h.underway,h.uncancelled⟩
  | @lands c before after transaction hsent hex =>
    obtain ⟨hfile,htx,hrest⟩ := h.fewer hsent
    by_cases hharm : Harmless customer plan transaction
    · exact .inl (h.land hlaw hfile hharm hex hrest)
    · exact .inr ⟨transaction,htx,hharm,List.mem_concat_self⟩
  | @expires before after transaction hsent =>
    obtain ⟨hfile,-,hrest⟩ := h.fewer hsent
    exact .inl ⟨h.follows,fun hnone => absurd hnone hfile,hrest,h.uncancelled⟩

lemma stable_honest (hlaw : Lawful P customer) (hplan : WellFormed P customer plan) :
    Stable (lateService P customer) (Honest (Harmless customer plan) plan) := by
  apply stable_of_moves
  intro w v hm h
  refine (h.moves hlaw hplan hm).resolve_right ?_
  rintro ⟨tx,hsent,hnot,-⟩
  exact hnot hsent

/-- A manifest in memory that claims no more than the accounts show, once one was saved. -/
structure Carried (customer : Digest) (plan m : RunManifest) (w : Late) : Prop where
  honest : Honest (Harmless customer plan) plan w
  follows : Follows plan m w.chain
  opening : m.runStatus ≠ .runOpen
  saved : w.file ≠ none

lemma stable_carried (hlaw : Lawful P customer) (hplan : WellFormed P customer plan)
    (m : RunManifest) : Stable (lateService P customer) (Carried customer plan m) := by
  apply stable_of_moves
  intro w v hm h
  have hhonest := stable_honest hlaw hplan w v (.single hm) h.honest
  cases hm with
  | others hothers =>
    exact ⟨hhonest,h.follows.onward (onward_others hlaw hplan hothers),h.opening,h.saved⟩
  | lands hsent hex =>
    have hharm := (h.honest.fewer hsent).2.1
    exact ⟨hhonest,h.follows.onward (onward_executes hlaw hharm hex),h.opening,h.saved⟩
  | expires hsent => exact ⟨hhonest,h.follows,h.opening,h.saved⟩

/-- Any manifest that follows the plan can be saved. -/
lemma Honest.store (h : Honest sent plan w) (hm : Follows plan m w.chain) :
    Honest sent plan ⟨w.store m,w.underway⟩ := by
  refine ⟨?_,fun hnone => absurd hnone (Option.some_ne_none m),h.underway,h.uncancelled⟩
  intro m' hm'
  obtain rfl : m = m' := Option.some.inj hm'
  exact hm

lemma Carried.store {m₀ : RunManifest} (h : Carried customer plan m₀ w)
    (hm : Follows plan m w.chain) (hopening : m.runStatus ≠ .runOpen) :
    Carried customer plan m ⟨w.store m,w.underway⟩ :=
  ⟨h.honest.store hm,hm,hopening,Option.some_ne_none m⟩

end Honest

end Kswarm.Lifecycle
