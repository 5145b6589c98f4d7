import Kswarm.Lifecycle.Chain
import Mathlib.Data.List.Nodup

/-! How far an entry of the manifest can be behind its job account, and what driving and reconciling
the entries do about it. -/
namespace Kswarm.Lifecycle
open Cli Worker

section Entry

/-- What an entry plans, without how far it has come. -/
def terms (e : JobEntry) : JobEntry :=
  {e with status := none, openSignature := none, commitSignature := none}

/-- Entries with the same terms are the same job with the same input. -/
structure SameTerms (e e' : JobEntry) : Prop where
  job : e'.job = e.job
  nonce : e'.nonce = e.nonce
  inputCid : e'.inputCid = e.inputCid
  branchIndex : e'.branchIndex = e.branchIndex

lemma sameTerms {e e' : JobEntry} (h : terms e' = terms e) : SameTerms e e' := by
  have hj : (terms e').job = (terms e).job := congrArg JobEntry.job h
  have hn : (terms e').nonce = (terms e).nonce := congrArg JobEntry.nonce h
  have hc : (terms e').inputCid = (terms e).inputCid := congrArg JobEntry.inputCid h
  have hb : (terms e').branchIndex = (terms e).branchIndex := congrArg JobEntry.branchIndex h
  exact ⟨hj,hn,hc,hb⟩

/-- The entry says where its job is. -/
def Exact (account : Option Job) (e : JobEntry) : Prop :=
  match e.entryStatus with
  | .jobPlanned => account = none
  | .jobDeferred => e.branchIndex = none ∧ account = none
  | .jobOpened => ∃ job, account = some job ∧ Awaiting job
  | .jobCommitted => ∃ job, account = some job ∧ ¬Awaiting job ∧ e.inputCid = some job.inputCid
  | _ => False

/-- The entry is exact, or pending with its job possibly further on. -/
def Lags (account : Option Job) (e : JobEntry) : Prop :=
  Exact account e ∨ (e.pending = true ∧
    ∀ job, account = some job → ¬Awaiting job → e.inputCid = some job.inputCid)

variable {account account' : Option Job} {e : JobEntry}

lemma pending_iff : e.pending = true ↔
    e.entryStatus = .jobPlanned ∨ e.entryStatus = .jobOpened := by
  simp [JobEntry.pending]

lemma Exact.planned (h : Exact account e) (hs : e.entryStatus = .jobPlanned) : account = none := by
  simpa [Exact,hs] using h

lemma Exact.opened (h : Exact account e) (hs : e.entryStatus = .jobOpened) :
    ∃ job, account = some job ∧ Awaiting job := by
  simpa [Exact,hs] using h

lemma Exact.committed (h : Exact account e) (hs : e.entryStatus = .jobCommitted) :
    ∃ job, account = some job ∧ ¬Awaiting job ∧ e.inputCid = some job.inputCid := by
  simpa [Exact,hs] using h

/-- An entry that is exact and not pending is committed, or a deferred aggregate. -/
lemma Exact.settled (h : Exact account e) (hp : e.pending = false) :
    e.entryStatus = .jobCommitted ∨ e.branchIndex = none := by
  have hpend : ¬(e.entryStatus = .jobPlanned ∨ e.entryStatus = .jobOpened) := by
    rw [← pending_iff]
    simp [hp]
  cases hs : e.entryStatus with
  | jobPlanned => exact absurd (.inl hs) hpend
  | jobOpened => exact absurd (.inr hs) hpend
  | jobCommitted => exact .inl rfl
  | jobDeferred =>
    rw [Exact,hs] at h
    exact .inr h.1
  | jobCancelled => simp [Exact,hs] at h
  | unknown text => simp [Exact,hs] at h

lemma Lags.exact (h : Lags account e) (hp : e.pending = false) : Exact account e := by
  cases h with
  | inl h => exact h
  | inr h => exact absurd (hp.symm.trans h.1) (by simp)

lemma Keeps.none_iff (h : Keeps account account') : account' = none ↔ account = none := by
  cases account with
  | none => simpa [Keeps] using h
  | some job =>
    by_cases ha : Awaiting job
    · simp_all [Keeps]
    · simp only [Keeps,ha,if_false] at h
      obtain ⟨job',rfl,-⟩ := h
      simp

lemma Keeps.awaiting {job : Job} (h : Keeps (some job) account') (ha : Awaiting job) :
    account' = some job := by
  simpa [Keeps,ha] using h

lemma Keeps.past {job : Job} (h : Keeps (some job) account') (ha : ¬Awaiting job) :
    ∃ job', account' = some job' ∧ ¬Awaiting job' ∧ job'.inputCid = job.inputCid := by
  simp only [Keeps,ha,if_false] at h
  obtain ⟨job',hjob',hpast,hcid,-⟩ := h
  exact ⟨job',hjob',hpast,hcid⟩

/-- Nobody else makes an exact entry wrong. -/
lemma Exact.keeps (h : Exact account e) (hk : Keeps account account') : Exact account' e := by
  unfold Exact at h ⊢
  split at h
  · exact hk.none_iff.mpr h
  · exact ⟨h.1,hk.none_iff.mpr h.2⟩
  · obtain ⟨job,rfl,ha⟩ := h
    exact ⟨job,hk.awaiting ha,ha⟩
  · obtain ⟨job,rfl,ha,hcid⟩ := h
    obtain ⟨job',hjob',hpast,hsame⟩ := hk.past ha
    exact ⟨job',hjob',hpast,by rw [hcid,hsame]⟩
  · exact h

lemma Lags.keeps (h : Lags account e) (hk : Keeps account account') : Lags account' e := by
  cases h with
  | inl h => exact .inl (h.keeps hk)
  | inr h =>
    refine .inr ⟨h.1,?_⟩
    intro job' hjob' hpast
    cases account with
    | none => simp [hk.none_iff.mpr rfl] at hjob'
    | some job =>
      by_cases ha : Awaiting job
      · rw [hk.awaiting ha] at hjob'
        exact absurd (Option.some.inj hjob' ▸ ha) hpast
      · obtain ⟨job₁,hjob₁,-,hsame⟩ := hk.past ha
        rw [h.2 job rfl ha,← hsame,Option.some.inj (hjob₁.symm.trans hjob')]

end Entry

section Manifest

/-- The manifest plans the same jobs: only how far they have come may differ, and what the
aggregate was bound to. -/
structure Plans (plan m : RunManifest) : Prop where
  customer : m.customer = plan.customer
  branches : m.branchJobs.map terms = plan.branchJobs.map terms
  aggregate : m.aggregate.map (fun e => (e.job,e.nonce)) =
    plan.aggregate.map (fun e => (e.job,e.nonce))

/-- Every job is the customer's, at the address of its nonce, and no two share one. -/
structure WellFormed (P : Program) (customer : Digest) (m : RunManifest) : Prop where
  owner : m.customer = customer
  derived : ∀ e ∈ m.runJobEntries, e.job = P.jobPda customer e.nonce
  distinct : (m.runJobEntries.map JobEntry.job).Nodup
  branches : ∀ e ∈ m.branchJobs, e.branchIndex ≠ none

lemma runJobEntries_map {β : Type} (f : JobEntry → β) (m : RunManifest) :
    m.runJobEntries.map f = m.branchJobs.map f ++ (m.aggregate.map f).toList := by
  cases h : m.aggregate <;> simp [RunManifest.runJobEntries,h]

lemma Plans.refl (m : RunManifest) : Plans m m := ⟨rfl,rfl,rfl⟩

/-- A planned branch is among the entries, with its terms. -/
lemma Plans.branch {plan m : RunManifest} (h : Plans plan m) {e₀ : JobEntry}
    (he₀ : e₀ ∈ plan.branchJobs) : ∃ e ∈ m.branchJobs, terms e = terms e₀ := by
  have hmem : terms e₀ ∈ m.branchJobs.map terms := h.branches ▸ List.mem_map_of_mem he₀
  exact List.mem_map.mp hmem

lemma Plans.slots {plan m : RunManifest} (h : Plans plan m) :
    m.runJobEntries.map (fun e => (e.job,e.nonce)) =
      plan.runJobEntries.map (fun e => (e.job,e.nonce)) := by
  have hb := congrArg (List.map (fun e : JobEntry => (e.job,e.nonce))) h.branches
  simp only [List.map_map] at hb
  rw [runJobEntries_map,runJobEntries_map,h.aggregate]
  exact congrArg (· ++ _) hb

/-- Planning the same jobs keeps a manifest well formed. -/
lemma WellFormed.plans {P : Program} {customer : Digest} {plan m : RunManifest}
    (hw : WellFormed P customer plan) (h : Plans plan m) : WellFormed P customer m := by
  refine ⟨h.customer.trans hw.owner,?_,?_,?_⟩
  · intro e he
    have hmem : (e.job,e.nonce) ∈ plan.runJobEntries.map (fun e => (e.job,e.nonce)) :=
      h.slots ▸ List.mem_map_of_mem (f := fun e : JobEntry => (e.job,e.nonce)) he
    obtain ⟨e₀,he₀,heq⟩ := List.mem_map.mp hmem
    obtain ⟨hj,hn⟩ := Prod.mk.inj heq
    rw [← hj,← hn]
    exact hw.derived e₀ he₀
  · have hjobs := congrArg (List.map Prod.fst) h.slots
    simp only [List.map_map] at hjobs
    exact (show m.runJobEntries.map JobEntry.job = plan.runJobEntries.map JobEntry.job from hjobs) ▸
      hw.distinct
  · intro e he
    have hmem : terms e ∈ plan.branchJobs.map terms := h.branches ▸ List.mem_map_of_mem he
    obtain ⟨e₀,he₀,heq⟩ := List.mem_map.mp hmem
    exact (sameTerms heq).branchIndex ▸ hw.branches e₀ he₀

/-- The places a walk over the entries stops at. -/
inductive Slot : Put → Prop
  | branch (run : RunManifest) (before rest : List JobEntry) :
      Slot (fun e => {run with branchJobs := before ++ e::rest})
  | aggregate (run : RunManifest) : Slot (fun e => {run with aggregate := some e})

namespace Slot
variable {put : Put} {e e' : JobEntry}

lemma entries (h : Slot put) : ∃ l r, ∀ e, (put e).runJobEntries = l ++ e::r := by
  cases h with
  | branch run before rest =>
    exact ⟨before,rest ++ run.aggregate.toList,fun e => by simp [RunManifest.runJobEntries]⟩
  | aggregate run =>
    exact ⟨run.branchJobs,[],fun e => by simp [RunManifest.runJobEntries]⟩

lemma mem (h : Slot put) (e : JobEntry) : e ∈ (put e).runJobEntries := by
  obtain ⟨l,r,hl⟩ := h.entries
  simp [hl]

/-- Replacing an entry leaves the others, which are other jobs. -/
lemma replaced (h : Slot put) {x : JobEntry} (hx : x ∈ (put e').runJobEntries)
    (hd : ((put e).runJobEntries.map JobEntry.job).Nodup) :
    x = e' ∨ (x ∈ (put e).runJobEntries ∧ x.job ≠ e.job) := by
  obtain ⟨l,r,hl⟩ := h.entries
  rw [hl,List.map_append,List.map_cons,List.nodup_middle,List.nodup_cons,← List.map_append] at hd
  rw [hl,List.mem_append,List.mem_cons] at hx
  by_cases hxe : x = e'
  · exact .inl hxe
  · have hmem : x ∈ l ++ r := by
      rw [List.mem_append]
      tauto
    refine .inr ⟨?_,?_⟩
    · rw [hl]
      rw [List.mem_append] at hmem ⊢
      rw [List.mem_cons]
      tauto
    · intro hjob
      exact hd.1 (hjob ▸ List.mem_map_of_mem hmem)

lemma plans (h : Slot put) {plan : RunManifest} (hp : Plans plan (put e))
    (ht : terms e' = terms e) : Plans plan (put e') := by
  cases h with
  | branch run before rest =>
    refine ⟨hp.customer,?_,hp.aggregate⟩
    rw [← hp.branches]
    simp [ht]
  | aggregate run =>
    refine ⟨hp.customer,hp.branches,?_⟩
    rw [← hp.aggregate]
    simp [(sameTerms ht).job,(sameTerms ht).nonce]

lemma runStatus (h : Slot put) : (put e').runStatus = (put e).runStatus := by
  cases h <;> rfl

end Slot

end Manifest

end Kswarm.Lifecycle
