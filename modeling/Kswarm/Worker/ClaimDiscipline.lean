import Kswarm.Worker.ClaimLedger

/-! One pass of the branch worker, step by step: its claims stay within the budget as long as none
lands behind its back, and a claim is followed by its receipt or by the trip of the breaker as long
as every failure has a handler and the attempts do not outlast their backoff. -/
namespace Kswarm.Worker.Branch
open Accounts Protocol

lemma initial_le_backoffSeconds {c : Config} {attempt : ℕ} {wait : ℚ}
    (h : backoffSeconds c attempt = some wait) : c.executeRetryInitialSeconds ≤ wait := by
  unfold backoffSeconds at h
  split at h
  · cases h
  obtain rfl := Option.some.inj h
  apply le_min c.initial_le_max
  apply le_mul_of_one_le_right c.initial_pos.le
  exact one_le_pow₀ one_le_two

lemma lt_retriesUntil (c : Config) (now latestStart : ℚ) :
    latestStart < now + retriesUntil c now latestStart * c.executeRetryInitialSeconds := by
  have hpos := c.initial_pos
  have hfloor := Nat.lt_floor_add_one ((latestStart - now) / c.executeRetryInitialSeconds)
  rw [div_lt_iff₀ hpos] at hfloor
  unfold retriesUntil
  rw [Nat.cast_succ]
  linarith

variable [CharData]

/-- The cap, or what was active when the pass began. -/
def Within (c : Config) (active : ℕ) (w : World) : Prop :=
  w.silent = [] → w.active ≤ max c.maxConcurrentClaims active

/-- A pass in order, with at most the claim on `key` open, `budget` more claims to make, and so many
failed attempts behind it. -/
structure Busy (c : Config) (start : ℚ) (budget : ℤ) (key : Option Digest) (failed : ℕ) (w : World) :
    Prop where
  handled : Handled w
  count : w.failed = failed
  time : start ≤ w.now
  nonneg : 0 ≤ budget
  fits : w.silent = [] → (w.active : ℤ) + budget ≤ c.maxConcurrentClaims
  settled : ∀ k ∈ w.claimed, k ∈ w.receipts ∨ some k = key

namespace Busy
variable {c : Config} {start : ℚ} {budget : ℤ} {key : Option Digest} {failed : ℕ} {w v : World}

lemma clean (h : Busy c start budget key failed w) (hf : failed ≤ lastBackoff) : Clean w :=
  ⟨h.handled,h.count.trans_le hf⟩

lemma within (h : Busy c start budget key failed w) (active : ℕ) : Within c active w := by
  intro hsilent
  have hfits := h.fits hsilent
  have hnonneg := h.nonneg
  apply le_max_of_le_left
  omega

lemma drift (h : Busy c start budget key failed w) (hd : Drifts w v) : Busy c start budget key failed v where
  handled := hd.handled h.handled
  count := hd.failed.trans h.count
  time := h.time.trans hd.now
  nonneg := h.nonneg
  fits hsilent := by
    rw [hd.silent] at hsilent
    have hfits := h.fits hsilent
    have hactive := hd.active
    omega
  settled := by
    rw [hd.claimed,hd.receipts]
    exact h.settled

lemma tell (h : Busy c start budget key failed w) {o : Op} {answer : Ans o} (ho : ¬Uncaught o answer) :
    Busy c start budget key (tally failed o answer) (w.tell o answer) where
  handled := handled_tell.mpr ⟨h.handled,ho⟩
  count := (failed_tell w o answer).trans (by rw [h.count])
  time := h.time
  nonneg := h.nonneg
  fits := h.fits
  settled := h.settled

lemma earlier (h : Busy c start budget key failed w) {time : ℚ} (ht : time ≤ start) :
    Busy c time budget key failed w := {h with time := ht.trans h.time}

lemma sleep (h : Busy c start budget key failed w) {least seconds : ℚ} (hs : least ≤ seconds) :
    Busy c (start + least) budget key failed {w with now := w.now + seconds} :=
  {h with time := add_le_add h.time hs}

lemma receipt (h : Busy c start budget key failed w) (job : Digest) :
    Busy c start budget key failed {w with receipts := w.receipts ++ [job]} where
  handled := h.handled
  count := h.count
  time := h.time
  nonneg := h.nonneg
  fits := h.fits
  settled k hk := by
    rcases h.settled k hk with hr | hr
    · exact .inl (List.mem_append_left _ hr)
    · exact .inr hr

/-- A claim that is confirmed takes one from the budget. -/
lemma claim (h : Busy c start budget none failed w) (hbudget : 0 < budget) (job : Digest) :
    Busy c start (budget-1) (some job) failed
      {w with active := w.active + 1, claimed := w.claimed ++ [job]} where
  handled := h.handled
  count := h.count
  time := h.time
  nonneg := by omega
  fits hsilent := by
    have hfits := h.fits hsilent
    change ((w.active + 1 : ℕ) : ℤ) + (budget-1) ≤ _
    omega
  settled k hk := by
    rcases List.mem_append.mp hk with hk | hk
    · rcases h.settled k hk with hr | hr
      · exact .inl hr
      · cases hr
    · exact .inr (congrArg some (List.mem_singleton.mp hk))

/-- A claim that landed behind the daemon's back: the pass goes on as if there were none. -/
lemma silently (h : Busy c start budget key failed w) (job : Digest) :
    Busy c start budget key failed {w with active := w.active + 1, silent := w.silent ++ [job]} where
  handled := h.handled
  count := h.count
  time := h.time
  nonneg := h.nonneg
  fits hsilent := absurd hsilent (List.append_ne_nil_of_right_ne_nil _ (List.cons_ne_nil _ _))
  settled := h.settled

/-- The open claim has its receipt. -/
lemma close {job : Digest} (h : Busy c start budget (some job) failed w) (hr : job ∈ w.receipts) :
    Busy c start budget none failed w where
  handled := h.handled
  count := h.count
  time := h.time
  nonneg := h.nonneg
  fits := h.fits
  settled k hk := by
    rcases h.settled k hk with hk | hk
    · exact .inl hk
    · rw [Option.some.inj hk]
      exact .inl hr

end Busy

/-- An exception that left the daemon after a claim. -/
def Lost : Escape → Prop
  | .afterClaim _ => True
  | .execution _ => True
  | .overflow => True
  | _ => False

section Rules
variable {c : Config} {start : ℚ} {budget : ℤ} {key : Option Digest} {failed : ℕ} {w : World}
  {active : ℕ}
  {α β : Type} {post : Except Escape β → World → Prop}

/-- A question asked while the pass is in order. -/
lemma Busy.query {o : Op} {f : Ans o → Run β} (hw : Busy c start budget key failed w)
    (h : ∀ v, Busy c start budget key failed v → w.now ≤ v.now → ∀ answer u, acts o v answer u →
      Safe ledger (Within c active) (fun _ _ => True) post (f answer) (u.tell o answer)) :
    Safe ledger (Within c active) (fun _ _ => True) post (Process.query o >>= f) w := by
  intro v hd
  have hv := hw.drift hd
  refine ⟨hv.within active,trivial,?_⟩
  rintro answer _ ⟨u,hacts,rfl⟩
  exact h v hv hd.now answer u hacts

lemma Busy.done {a : β} (hw : Busy c start budget key failed w)
    (h : ∀ v, Busy c start budget key failed v → Drifts w v → post (.ok a) v) :
    Safe ledger (Within c active) (fun _ _ => True) post (.done a) w := by
  intro v hd
  have hv := hw.drift hd
  exact ⟨hv.within active,h v hv hd⟩

/-- A program run while a claim is open: what it returns is described, and what it raises was not
handled. -/
def Holds (c : Config) (active : ℕ) (p : Run α) (w : World) (Q : α → World → Prop) : Prop :=
  Safe ledger (Within c active) (fun _ _ => True)
    (fun r v => match r with
      | .ok a => Q a v
      | .error e => Lost e ∧ ¬Clean v) p w

/-- An exception without a handler. -/
lemma Busy.lost {o : Op} {answer : Ans o} {e : Escape} {Q : α → World → Prop}
    (hw : Busy c start budget key failed w) (ho : Uncaught o answer) (he : Lost e) :
    Holds c active (.raise e) (w.tell o answer) Q := by
  intro v hd
  refine ⟨?_,he,?_⟩
  · intro hsilent
    rw [hd.silent] at hsilent
    exact hd.active.trans (hw.within active hsilent)
  · intro hclean
    have hhandled := hclean.handled
    unfold Handled at hhandled
    rw [hd.log] at hhandled
    exact (handled_tell.mp hhandled).2 ho

/-- A failed attempt that is past the last backoff. -/
lemma Busy.exhausted {e : Escape} {Q : α → World → Prop} (hw : Busy c start budget key failed w)
    (hf : lastBackoff < failed) (he : Lost e) : Holds c active (.raise e) w Q := by
  intro v hd
  have hv := hw.drift hd
  exact ⟨hv.within active,he,fun hclean => absurd hclean.failed_le (not_le.mpr (hv.count ▸ hf))⟩

lemma Holds.bind {p : Run α} {f : α → Run β} {R : α → World → Prop} {Q : β → World → Prop}
    (h : Holds c active p w R) (hf : ∀ a v, R a v → Holds c active (f a) v Q) :
    Holds c active (p >>= f) w Q :=
  Safe.andThen h (fun a v _ hr => hf a v hr) (fun _ _ _ he => he)

lemma Holds.imp {p : Run α} {R Q : α → World → Prop} (h : Holds c active p w R)
    (hRQ : ∀ a v, R a v → Q a v) : Holds c active p w Q := by
  apply Safe.weaken h
  intro r v _ hr
  cases r with
  | ok a => exact hRQ a v hr
  | error e => exact hr

end Rules

section Claimed
variable {c : Config} {readInput : Bytes → Option BranchInput} {start : ℚ} {budget : ℤ}
  {job : Digest} {failed : ℕ} {w : World} {active : ℕ}

/-- A caught failure after which the daemon tries again. -/
def Caught.passing : Caught → Bool
  | .endpoint _ retryable => retryable
  | .ipfs _ => true
  | _ => false

/-- The failed attempts after one that ended so. -/
def failedAfter (failed : ℕ) : Except Caught BranchExecution → ℕ
  | .error failure => failed + failure.passing.toNat
  | .ok _ => failed

/-- The claim on a job is still the only open one, its failed attempts are counted, and it has its
receipt if the attempt ended well. -/
structure Tried (c : Config) (start : ℚ) (budget : ℤ) (job : Digest) (failed : ℕ)
    (r : Except Caught BranchExecution) (w : World) : Prop where
  busy : Busy c start budget (some job) (failedAfter failed r) w
  receipt : ∀ execution, r = .ok execution → job ∈ w.receipts

/-- The claim on a job is still the only open one, after attempts that all had their backoff, and it
has its receipt if that was submitted. -/
def Executed (c : Config) (start : ℚ) (budget : ℤ) (job : Digest) (outcome : ExecutionOutcome)
    (w : World) : Prop :=
  (∃ failed ≤ lastBackoff, Busy c start budget (some job) failed w) ∧
    (outcome.submitted = true → job ∈ w.receipts)

lemma Busy.failure {failure : Caught}
    (hw : Busy c start budget (some job) (failed + failure.passing.toNat) w) :
    Holds c active (.done (.error failure)) w (Tried c start budget job failed) := by
  apply hw.done
  intro v hv _
  exact ⟨hv,fun _ he => nomatch he⟩

lemma Busy.unsubmitted {reason : Reason} {attempts : ℕ}
    (hw : Busy c start budget (some job) failed w) (hf : failed ≤ lastBackoff) :
    Holds c active (.done ⟨false,reason,attempts⟩) w (Executed c start budget job) := by
  apply hw.done
  intro v hv _
  exact ⟨⟨failed,hf,hv⟩,fun hs => nomatch hs⟩

omit [CharData] in
lemma passing_caught {error : CallError} {failure : Caught} (h : error.caught = some failure) :
    failure.passing = error.passing := by
  cases error with
  | other text => cases h
  | _ => cases h; rfl

/-- What a call of an attempt raises: it has no handler, or the daemon counts it. -/
lemma orCaught_holds {o : Op} {answer : Ans o} {error : CallError}
    (hw : Busy c start budget (some job) failed w) (ho : Uncaught o answer ↔ error.caught = none)
    (ht : tally failed o answer = failed + error.passing.toNat) :
    Holds c active (orCaught (α := BranchExecution) error) (w.tell o answer)
      (Tried c start budget job failed) := by
  unfold orCaught
  cases herror : error.caught with
  | none => exact hw.lost (ho.mpr herror) trivial
  | some failure =>
    have hcaught : ¬Uncaught o answer := by
      intro hun
      rw [ho.mp hun] at herror
      cases herror
    have htold := hw.tell hcaught
    rw [ht,← passing_caught herror] at htold
    exact htold.failure

omit [CharData] in
/-- What an execution raises passes exactly if the daemon tries again after it. -/
lemma passing_iff {error : ExecutionError} {failure : Caught} (h : caught error = some failure) :
    Passing error ↔ failure.passing = true := by
  unfold Passing
  cases error with
  | endpoint text retryable =>
    cases h
    simp [Caught.passing]
  | ipfs text =>
    cases h
    simp [Caught.passing]
  | modelOutputRejected text rejected =>
    cases h
    simp [Caught.passing]
  | validation =>
    cases h
    simp [Caught.passing]
  | _ => cases h

lemma submitExecution_holds {host : Host} {branchInput : BranchInput}
    (hw : Busy c start budget (some job) failed w) :
    Holds c active (submitExecution job host branchInput)
      (w.tell (.execute job branchInput) (.ok host)) (Tried c start budget job failed) := by
  have hbreaks : Fails Unhandled (execute host (keyText job) branchInput none) ↔
      Breaks host (keyText job) branchInput := breaks_iff
  have hpasses : Fails Passing (execute host (keyText job) branchInput none) ↔
      Passes host (keyText job) branchInput := passes_iff
  unfold submitExecution
  cases hexecute : execute host (keyText job) branchInput none with
  | error error =>
    rw [hexecute,Fails.error_iff] at hbreaks hpasses
    dsimp only
    cases hcaught : caught error with
    | none => exact hw.lost (hbreaks.mp hcaught) trivial
    | some failure =>
      have hhandled : ¬Uncaught (.execute job branchInput) (.ok host) := by
        intro hun
        have hnone : caught error = none := hbreaks.mpr hun
        rw [hnone] at hcaught
        cases hcaught
      have htold := hw.tell hhandled
      have htally : tally failed (.execute job branchInput) (.ok host) =
          failed + failure.passing.toNat := by
        rw [tally,← hpasses,passing_iff hcaught]
        cases failure.passing <;> simp
      rw [htally] at htold
      exact htold.failure
  | ok execution =>
    rw [hexecute] at hbreaks hpasses
    dsimp only
    have hdone : ¬Uncaught (.execute job branchInput) (.ok host) :=
      fun hun => Fails.ok_iff (hbreaks.mpr hun)
    have htold := hw.tell hdone
    have htally : tally failed (.execute job branchInput) (.ok host) = failed :=
      if_neg (fun hp => Fails.ok_iff (hpasses.mpr hp))
    rw [htally] at htold
    apply htold.query
    intro v hv _ answer u hu
    cases answer with
    | error error =>
      have hun : Uncaught (.submitReceipt job execution.outputCid execution.resultBytes)
          (.error error) ↔ error.caught = none := by
        cases error <;> simp [Uncaught,CallError.caught]
      obtain rfl | rfl : u = v ∨ u = {v with receipts := v.receipts ++ [job]} := hu
      · exact orCaught_holds hv hun rfl
      · exact orCaught_holds (hv.receipt job) hun rfl
    | ok _ =>
      obtain rfl : u = {v with receipts := v.receipts ++ [job]} := hu
      apply ((hv.receipt job).tell id).done
      intro v' hv' hd
      refine ⟨hv',fun _ _ => ?_⟩
      rw [hd.receipts]
      exact List.mem_append_right _ (List.mem_singleton_self job)

/-- One attempt: it submits the receipt, or fails in a way the daemon handles and counts, or else
leaves an unhandled failure in the log. -/
lemma attemptOnce_holds (claimed : JobAccount) (hw : Busy c start budget (some job) failed w) :
    Holds c active (attemptOnce readInput job claimed) w (Tried c start budget job failed) := by
  unfold attemptOnce
  apply hw.query
  intro v hv _ answer u hu
  obtain rfl : u = v := hu
  cases answer with
  | error error =>
    have hun : Uncaught (.catBytes claimed.inputCid) (.error error) ↔ error.caught = none := by
      cases error <;> simp [Uncaught,CallError.caught]
    exact orCaught_holds hv hun rfl
  | ok bytes =>
    dsimp only
    have hok : ¬Uncaught (.catBytes claimed.inputCid) (.ok bytes) := id
    have hread : Busy c start budget (some job) failed (u.tell (.catBytes claimed.inputCid)
        (.ok bytes)) := hv.tell hok
    split
    · have hinvalid : Busy c start budget (some job) (failed + Caught.invalid.passing.toNat)
          (u.tell (.catBytes claimed.inputCid) (.ok bytes)) := hread
      exact hinvalid.failure
    · rename_i branchInput _
      apply hread.query
      intro v hv _ answer u hu
      obtain rfl : u = v := hu
      cases answer with
      | error error =>
        have hun : Uncaught (.execute job branchInput) (.error error) ↔ error.caught = none := by
          cases error <;> simp [Uncaught,CallError.caught]
        exact orCaught_holds hv hun rfl
      | ok host => exact submitExecution_holds hv

/-- An attempt that ends the execution fails no more; its outcome is a submission only after it ended
well. -/
lemma handle_inl {attempt : ℕ} {result : Except Caught BranchExecution} {outcome : ExecutionOutcome}
    (failed : ℕ) (h : handle attempt result = .inl outcome) :
    failedAfter failed result = failed ∧ (outcome.submitted = true → ∃ e, result = .ok e) := by
  unfold handle at h
  split at h
  · exact ⟨rfl,fun _ => ⟨_,rfl⟩⟩
  all_goals
    cases h
    try exact ⟨rfl,fun hs => nomatch hs⟩

lemma handle_inr {attempt : ℕ} {result : Except Caught BranchExecution} {text : String}
    (failed : ℕ) (h : handle attempt result = .inr text) : failedAfter failed result = failed + 1 := by
  unfold handle at h
  split at h
  all_goals
    cases h
    try rfl

/-- One attempt and, where it fails in passing and time is left, `next`. -/
lemma retry_holds {next : ℚ → Run ExecutionOutcome} (claimed : JobAccount) (latestStart : ℚ)
    {attempt : ℕ} (hattempt : attempt = failed + 1) (hfailed : failed ≤ lastBackoff)
    (hw : Busy c start budget (some job) failed w)
    (hnext : ∀ wait v, backoffSeconds c attempt = some wait → attempt ≤ lastBackoff →
      Busy c start budget (some job) attempt v → v.now + wait ≤ latestStart →
      Holds c active (next wait) v (Executed c start budget job)) :
    Holds c active (do
      let result ← attemptOnce readInput job claimed
      match handle attempt result with
      | .inl outcome => pure outcome
      | .inr text =>
        match backoffSeconds c attempt with
        | none => .raise .overflow
        | some wait => do
          let now ← Process.query Op.clock
          if latestStart < now + wait then pure ⟨false,.deadlineMargin attempt text,attempt⟩
          else next wait) w (Executed c start budget job) := by
  subst hattempt
  apply (attemptOnce_holds claimed hw).bind
  intro result v hv
  cases hhandle : handle (failed+1) result with
  | inl outcome =>
    obtain ⟨hcount,hsubmitted⟩ := handle_inl failed hhandle
    apply hv.busy.done
    intro u hu hd
    rw [hcount] at hu
    refine ⟨⟨failed,hfailed,hu⟩,fun hs => ?_⟩
    obtain ⟨execution,hok⟩ := hsubmitted hs
    rw [hd.receipts]
    exact hv.receipt execution hok
  | inr text =>
    have hcount := hv.busy
    rw [handle_inr failed hhandle] at hcount
    cases hwait : backoffSeconds c (failed+1) with
    | none =>
      refine hcount.exhausted ?_ trivial
      unfold backoffSeconds at hwait
      split at hwait
      · assumption
      · cases hwait
    | some wait =>
      have hlast : failed + 1 ≤ lastBackoff := by
        unfold backoffSeconds at hwait
        split at hwait
        · cases hwait
        · exact not_lt.mp ‹_›
      apply hcount.query
      rintro v hv _ now u ⟨rfl,rfl⟩
      have hclock : ¬Uncaught .clock u.now := id
      have htold : Busy c start budget (some job) (failed+1) (u.tell .clock u.now) := hv.tell hclock
      split
      case isTrue => exact htold.unsubmitted hlast
      case isFalse hlatest => exact hnext wait _ hwait hlast htold (not_lt.mp hlatest)

/-- The attempts end before the retries do: each of them waits for the initial backoff at least. -/
lemma attempts_holds (claimed : JobAccount) (latestStart : ℚ) (retries : ℕ)
    (hfailed : failed ≤ lastBackoff) (hw : Busy c start budget (some job) failed w)
    (hretries : latestStart < start + retries * c.executeRetryInitialSeconds) :
    Holds c active (attempts c readInput job claimed latestStart retries (failed+1)) w
      (Executed c start budget job) := by
  induction retries generalizing start failed w with
  | zero =>
    unfold attempts
    apply retry_holds claimed latestStart rfl hfailed hw
    intro wait v hwait _ hv hlatest
    have hleast := initial_le_backoffSeconds hwait
    have hpos := c.initial_pos
    have htime := hv.time
    rw [Nat.cast_zero,zero_mul,add_zero] at hretries
    linarith
  | succ retries ih =>
    unfold attempts
    apply retry_holds claimed latestStart rfl hfailed hw
    intro wait v hwait hlast hv hlatest
    apply hv.query
    rintro u hu _ answer _ rfl
    have hplain : ¬Uncaught (.sleep wait) answer := id
    have hslept : Busy c (start + c.executeRetryInitialSeconds) budget (some job) (failed+1)
        (World.tell {u with now := u.now + wait} (.sleep wait) answer) :=
      (hu.sleep (initial_le_backoffSeconds hwait)).tell hplain
    have hleft : latestStart < start + c.executeRetryInitialSeconds +
        retries * c.executeRetryInitialSeconds := by
      rw [Nat.cast_succ] at hretries
      linarith
    apply (ih hlast hslept hleft).imp
    rintro outcome v ⟨⟨n,hn,hv⟩,hreceipt⟩
    exact ⟨⟨n,hn,hv.earlier (le_add_of_nonneg_right c.initial_pos.le)⟩,hreceipt⟩

/-- An execution of a claimed job ends with an outcome, unless a failure is not handled. -/
lemma executeClaimed_holds (hw : Busy c start budget (some job) 0 w) :
    Holds c active (executeClaimed c readInput start job) w (Executed c start budget job) := by
  have hzero : 0 ≤ lastBackoff := Nat.zero_le _
  unfold executeClaimed
  apply hw.query
  rintro v hv _ answer u rfl
  cases answer with
  | error error => exact hv.lost trivial trivial
  | ok found =>
    have hok : ¬Uncaught (.job job) (.ok found) := id
    have htold : Busy c start budget (some job) 0 (u.tell (.job job) (.ok found)) := hv.tell hok
    cases found with
    | none => exact htold.unsubmitted hzero
    | some claimed =>
      dsimp only
      split
      · exact htold.unsubmitted hzero
      · split
        · exact htold.unsubmitted hzero
        · exact attempts_holds claimed _ _ hzero htold (lt_retriesUntil c start _)

end Claimed

end Kswarm.Worker.Branch
