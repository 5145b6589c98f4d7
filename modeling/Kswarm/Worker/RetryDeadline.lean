import Kswarm.Worker.ClaimCap

/-! The retry loop of `execute_claimed` in time. The calls of an attempt take as long as they like
and answer what they like, a sleep takes exactly what was asked, and nothing passes between the
check of the deadline and the sleep. -/
namespace Kswarm.Worker.Branch
open Accounts Protocol

/-- The time, the deadline of the job as it was read, and when each attempt started. -/
structure Timeline where
  now : ℚ
  executeDeadline : Option Int64
  starts : List ℚ

namespace Timeline

def spend (w : Timeline) (seconds : ℚ) : Timeline := {w with now := w.now + seconds}

/-- An attempt starts with the read of its input. -/
def start (w : Timeline) : Timeline := {w with starts := w.starts ++ [w.now]}

/-- What the job account says about the deadline. -/
def learn (w : Timeline) (answer : Except CallError (Option JobAccount)) : Timeline :=
  match answer with
  | .ok (some claimed) => {w with executeDeadline := some claimed.executeDeadline}
  | _ => w

/-- Only time passed. -/
structure Later (w v : Timeline) : Prop where
  now : w.now ≤ v.now
  executeDeadline : v.executeDeadline = w.executeDeadline
  starts : v.starts = w.starts

/-- Every attempt after the first started at least the margin before the deadline. -/
def InTime (c : Config) (w : Timeline) : Prop :=
  ∀ deadline, w.executeDeadline = some deadline →
    ∀ s ∈ w.starts.tail, s ≤ deadline.toInt - c.executeDeadlineMarginSeconds

end Timeline

/-- The world of an execution: every answer is possible after every wait. -/
def timed : Service Op Ans Timeline where
  serves
    | .clock,w,now,v => now = w.now ∧ v = w
    | .sleep seconds,w,_,v => v = w.spend seconds
    | .job _,w,answer,v => ∃ seconds, 0 ≤ seconds ∧ v = (w.learn answer).spend seconds
    | .catBytes _,w,_,v => ∃ seconds, 0 ≤ seconds ∧ v = w.start.spend seconds
    | _,w,_,v => ∃ seconds, 0 ≤ seconds ∧ v = w.spend seconds
  drifts := Eq
  drifts_refl _ := rfl
  drifts_trans _ _ _ := Eq.trans

lemma timed_still : timed.Still := fun _ _ h => h

namespace Timeline
variable {c : Config} {u v w : Timeline}

lemma Later.refl (w : Timeline) : w.Later w := ⟨le_rfl,rfl,rfl⟩

lemma Later.trans (h : u.Later v) (h' : v.Later w) : u.Later w :=
  ⟨h.now.trans h'.now,h'.executeDeadline.trans h.executeDeadline,h'.starts.trans h.starts⟩

lemma later_spend {seconds : ℚ} (h : 0 ≤ seconds) : w.Later (w.spend seconds) :=
  ⟨le_add_of_nonneg_right h,rfl,rfl⟩

lemma Later.inTime (h : w.Later v) (hw : w.InTime c) : v.InTime c := by
  intro deadline hd s hs
  rw [h.executeDeadline] at hd
  rw [h.starts] at hs
  exact hw deadline hd s hs

/-- A first attempt may start at any time, another one by the latest start. -/
lemma InTime.start (hw : w.InTime c)
    (h : w.starts ≠ [] → ∀ deadline, w.executeDeadline = some deadline →
      w.now ≤ deadline.toInt - c.executeDeadlineMarginSeconds) : w.start.InTime c := by
  intro deadline hd s hs
  cases hstarts : w.starts with
  | nil =>
    rw [Timeline.start,hstarts] at hs
    exact absurd hs List.not_mem_nil
  | cons first rest =>
    rw [Timeline.start,hstarts] at hs
    rcases List.mem_append.mp hs with hs | hs
    · apply hw deadline hd s
      rw [hstarts]
      exact hs
    · rw [List.mem_singleton.mp hs]
      exact h (by rw [hstarts]; exact List.cons_ne_nil _ _) deadline hd

end Timeline

/-- Left at any point the attempts were in time; the program never runs out of turns, and what it
returns is described by `Q`. -/
def Goes {α : Type} (c : Config) (p : Run α) (w : Timeline) (Q : α → Timeline → Prop) : Prop :=
  Safe timed (Timeline.InTime c) (fun _ _ => True)
    (fun r v => r ≠ .error .clockStopped ∧ ∀ a, r = .ok a → Q a v) p w

namespace Goes
variable {α β : Type} {c : Config} {w : Timeline} {Q : α → Timeline → Prop}

lemma done {a : α} (hw : w.InTime c) (h : Q a w) : Goes c (.done a) w Q := by
  apply Safe.stillDone timed_still hw
  refine ⟨(fun he => nomatch he),fun b hb => ?_⟩
  cases hb
  exact h

lemma raise {e : Escape} (hw : w.InTime c) (h : e ≠ .clockStopped) : Goes c (.raise e) w Q := by
  apply Safe.stillRaise timed_still hw
  exact ⟨fun he => h (Except.error.inj he),fun _ hb => nomatch hb⟩

lemma imp {p : Run α} {R : α → Timeline → Prop} (h : Goes c p w Q)
    (hQR : ∀ a v, Q a v → R a v) : Goes c p w R :=
  Safe.weaken h (fun _ v _ hr => ⟨hr.1,fun a ha => hQR a v (hr.2 a ha)⟩)

lemma query {o : Op} {f : Ans o → Run α} (hw : w.InTime c)
    (h : ∀ answer v, timed.serves o w answer v → Goes c (f answer) v Q) :
    Goes c (Process.query o >>= f) w Q := Safe.stillQuery timed_still hw trivial h

lemma bind {p : Run α} {f : α → Run β} {R : β → Timeline → Prop} (h : Goes c p w Q)
    (hf : ∀ a v, v.InTime c → Q a v → Goes c (f a) v R) : Goes c (p >>= f) w R :=
  Safe.andThen h (fun a v hv hr => hf a v hv (hr.2 a rfl))
    (fun _ _ _ hr => ⟨fun he => hr.1 (congrArg Except.error (Except.error.inj he)),
      fun _ hb => nomatch hb⟩)

end Goes

section Attempts
variable {c : Config} {readInput : Bytes → Option BranchInput} {job : Digest} {w : Timeline}

lemma orCaught_goes {α : Type} {u : Timeline} (error : CallError) (h : w.Later u)
    (hu : u.InTime c) : Goes c (orCaught (α := α) error) u (fun _ v => w.Later v) := by
  unfold orCaught
  cases error.caught with
  | none => exact Goes.raise hu (fun he => nomatch he)
  | some failure => exact Goes.done hu h

variable [CharData]

lemma submitExecution_goes {u : Timeline} (host : Host) (branchInput : BranchInput)
    (h : w.Later u) (hu : u.InTime c) :
    Goes c (submitExecution job host branchInput) u (fun _ v => w.Later v) := by
  unfold submitExecution
  cases execute host (keyText job) branchInput none with
  | error error =>
    dsimp only
    cases caught error with
    | none =>
      apply Goes.raise hu
      rintro ⟨⟩
    | some failure => exact Goes.done hu h
  | ok execution =>
    apply Goes.query hu
    intro answer v hv
    obtain ⟨seconds,hpos,rfl⟩ := hv
    have hlater := Timeline.later_spend (w := u) hpos
    cases answer with
    | ok _ => exact Goes.done (hlater.inTime hu) (h.trans hlater)
    | error error => exact orCaught_goes error (h.trans hlater) (hlater.inTime hu)

/-- An attempt records its start and spends time. -/
lemma attemptOnce_goes (claimed : JobAccount) (hw : w.InTime c) (hstart : w.start.InTime c) :
    Goes c (attemptOnce readInput job claimed) w (fun _ v => w.start.Later v) := by
  unfold attemptOnce
  apply Goes.query hw
  intro answer u hu
  obtain ⟨seconds,hpos,rfl⟩ := hu
  have hread := Timeline.later_spend (w := w.start) hpos
  cases answer with
  | error error => exact orCaught_goes error hread (hread.inTime hstart)
  | ok bytes =>
    dsimp only
    cases readInput bytes with
    | none => exact Goes.done (hread.inTime hstart) hread
    | some branchInput =>
      apply Goes.query (hread.inTime hstart)
      intro answer v hv
      obtain ⟨seconds',hpos',rfl⟩ := hv
      have hrun := hread.trans (Timeline.later_spend hpos')
      cases answer with
      | error error => exact orCaught_goes error hrun (hrun.inTime hstart)
      | ok host => exact submitExecution_goes host branchInput hrun (hrun.inTime hstart)

/-- Every retry waits for the initial backoff at least, so the turns outlast the window. -/
lemma attempts_goes {w : Timeline} (claimed : JobAccount) (retries attempt : ℕ) (hw : w.InTime c)
    (hstart : w.start.InTime c) (hdeadline : w.executeDeadline = some claimed.executeDeadline)
    (hretries : claimed.executeDeadline.toInt - c.executeDeadlineMarginSeconds <
      w.now + retries * c.executeRetryInitialSeconds) :
    Goes c (attempts c readInput job claimed
      (claimed.executeDeadline.toInt - c.executeDeadlineMarginSeconds) retries attempt) w
      (fun _ _ => True) := by
  have hpos := c.initial_pos
  rw [attempts.eq_def]
  apply (attemptOnce_goes claimed hw hstart).bind
  intro result u hu hlater
  cases handle attempt result with
  | inl outcome => exact Goes.done hu trivial
  | inr text =>
    cases hbackoff : backoffSeconds c attempt with
    | none =>
      apply Goes.raise hu
      rintro ⟨⟩
    | some wait =>
      have hwait := initial_le_backoffSeconds hbackoff
      apply Goes.query hu
      intro now v hv
      obtain ⟨rfl,rfl⟩ := hv
      split
      case isTrue => exact Goes.done hu trivial
      case isFalse hlatest =>
        have hnow := hlater.now
        rw [Timeline.start] at hnow
        cases retries with
        | zero =>
          rw [Nat.cast_zero,zero_mul,add_zero] at hretries
          linarith
        | succ retries =>
          apply Goes.query hu
          intro answer z hz
          obtain rfl : z = v.spend wait := hz
          have hslept := Timeline.later_spend (w := v) (hpos.le.trans hwait)
          apply attempts_goes claimed retries (attempt+1) (hslept.inTime hu)
          · apply (hslept.inTime hu).start
            intro _ deadline hd
            rw [hslept.executeDeadline,hlater.executeDeadline] at hd
            obtain rfl : claimed.executeDeadline = deadline :=
              Option.some.inj (hdeadline.symm.trans hd)
            exact not_lt.mp hlatest
          · rw [hslept.executeDeadline,hlater.executeDeadline]
            exact hdeadline
          · rw [Nat.cast_succ] at hretries
            rw [Timeline.spend]
            dsimp only
            linarith

/-- `execute_claimed` with so many turns of its loop at most. -/
def executeWithin (c : Config) (readInput : Bytes → Option BranchInput) (turns : ℚ → ℕ)
    (job : Digest) : Run ExecutionOutcome := do
  let answer ← Process.query (Op.job job)
  match answer with
  | .error error => .raise (.afterClaim error)
  | .ok none => pure ⟨false,.notVisible,0⟩
  | .ok (some claimed) =>
    if claimed.status ≠ statusClaimed ∨ claimed.worker ≠ c.wallet then pure ⟨false,.notVisible,0⟩
    else if claimed.inputCid = "" then pure ⟨false,.noInputCid,0⟩
    else
      let latestStart := (claimed.executeDeadline.toInt : ℚ) - c.executeDeadlineMarginSeconds
      attempts c readInput job claimed latestStart (turns latestStart) 1

/-- The worker's own execution has no turns to spare. -/
lemma executeClaimed_eq (now : ℚ) : executeClaimed c readInput now job =
    executeWithin c readInput (retriesUntil c now) job := rfl

/-- An execution that begins now. -/
def Timeline.begins (now : ℚ) : Timeline := ⟨now,none,[]⟩

lemma executeWithin_goes (c : Config) (readInput : Bytes → Option BranchInput) (job : Digest)
    (now : ℚ) (extra : ℕ) :
    Goes c (executeWithin c readInput (fun latestStart => retriesUntil c now latestStart + extra) job)
      (.begins now) (fun _ _ => True) := by
  have hbegins : (Timeline.begins now).InTime c := fun _ hd => nomatch hd
  unfold executeWithin
  apply Goes.query hbegins
  intro answer v hv
  obtain ⟨seconds,hpos,rfl⟩ := hv
  have hfresh : (((Timeline.begins now).learn answer).spend seconds).starts = [] := by
    unfold Timeline.learn
    split <;> rfl
  have hread : (((Timeline.begins now).learn answer).spend seconds).InTime c := by
    intro deadline _ s hs
    rw [hfresh] at hs
    exact absurd hs List.not_mem_nil
  cases answer with
  | error error => exact Goes.raise hread (fun he => nomatch he)
  | ok found =>
    cases found with
    | none => exact Goes.done hread trivial
    | some claimed =>
      dsimp only
      split
      · exact Goes.done hread trivial
      · split
        · exact Goes.done hread trivial
        · apply attempts_goes claimed _ 1 hread (hread.start (absurd hfresh)) rfl
          have hlast := lt_retriesUntil c now
            (claimed.executeDeadline.toInt - c.executeDeadlineMarginSeconds)
          have hextra : 0 ≤ extra * c.executeRetryInitialSeconds :=
            mul_nonneg extra.cast_nonneg c.initial_pos.le
          rw [Nat.cast_add,add_mul]
          calc _ < now + _ := hlast
            _ ≤ now + seconds + _ := by linarith

/-- However long the attempts take and however they fail, an execution comes to an end, out of any
number of turns from the bound on, and every attempt after the first starts by the latest start. -/
theorem executeClaimed_in_time (c : Config) (readInput : Bytes → Option BranchInput) (job : Digest)
    (now : ℚ) (extra : ℕ) {answer : (o : Op) → Timeline → Ans o × Timeline}
    (hanswer : ∀ o w, timed.serves o w (answer o w).1 (answer o w).2) :
    (∃ n v r, Process.play answer n (.begins now) (executeWithin c readInput
        (fun latestStart => retriesUntil c now latestStart + extra) job) = (v,.lift r) ∧
      r ≠ .error .clockStopped) ∧
    ∀ v q, Reaches timed (.begins now) (executeWithin c readInput
        (fun latestStart => retriesUntil c now latestStart + extra) job) v q → v.InTime c := by
  have hgoes := executeWithin_goes c readInput job now extra
  constructor
  · obtain ⟨n,v,r,hplay⟩ := Process.play_ends answer (.begins now) (executeWithin c readInput
      (fun latestStart => retriesUntil c now latestStart + extra) job)
    have hreaches := Reaches.play (S := timed) hanswer n (.begins now) (executeWithin c readInput
      (fun latestStart => retriesUntil c now latestStart + extra) job)
    rw [hplay] at hreaches
    exact ⟨n,v,r,hplay,(Safe.reaches hgoes hreaches).ended.1⟩
  · intro v q hreaches
    exact (Safe.reaches hgoes hreaches).invariant

end Attempts

section Outage

/-- An IPFS node that is down, after seven seconds each time. -/
def outage : (o : Op) → Timeline → Ans o × Timeline
  | .clock,w => (w.now,w)
  | .sleep seconds,w => ((),w.spend seconds)
  | .job _,w => (.ok (some claimedJob),(w.learn (.ok (some claimedJob))).spend 0)
  | .catBytes _,w => (.error (.ipfs "connection refused"),w.start.spend 7)
  | .workerAccount,w => (.ok (some 1),w.spend 0)
  | .jobs,w => (.ok [],w.spend 0)
  | .checkEndpoint,w => (.ok (),w.spend 0)
  | .ipfsCheck,w => (.ok (),w.spend 0)
  | .claimJob _,w => (.ok (),w.spend 0)
  | .execute _ _,w => (.error (.endpoint "down" true),w.spend 0)
  | .submitReceipt _ _ _,w => (.ok (),w.spend 0)

lemma outage_served (o : Op) (w : Timeline) : timed.serves o w (outage o w).1 (outage o w).2 := by
  cases o with
  | clock => exact ⟨rfl,rfl⟩
  | sleep seconds => exact rfl
  | catBytes cid => exact ⟨7,by decide,rfl⟩
  | _ => exact ⟨0,le_rfl,rfl⟩

local instance : CharData := CharData.ascii

/-- The outage outlasts the window of the claimed job, and the worker gives up in time. -/
theorem outage_abandoned :
    (∃ n v r, Process.play outage n (.begins 0) (executeWithin sampleConfig readNoContext
        (fun latestStart => retriesUntil sampleConfig 0 latestStart + 3) (natKey 1)) =
        (v,.lift r) ∧ r ≠ .error .clockStopped) ∧
    ∀ v q, Reaches timed (.begins 0) (executeWithin sampleConfig readNoContext
        (fun latestStart => retriesUntil sampleConfig 0 latestStart + 3) (natKey 1)) v q →
      v.InTime sampleConfig :=
  executeClaimed_in_time sampleConfig readNoContext (natKey 1) 0 3 outage_served

/-- The attempts of that run, up to the last one that still fits. -/
example : (Process.play outage 40 (.begins 0) (executeClaimed sampleConfig readNoContext 0
    (natKey 1))).1.starts = [0,12,29,56,103,170,237,304,371,438,505] := by decide +kernel

end Outage
end Kswarm.Worker.Branch
