import Kswarm.Worker.BranchFailures

/-! The world of one pass of the branch worker: the time, the worker's active claims on chain, the
claims and receipts of the pass, and everything the outside answered. No other process uses the
wallet, so its active claims only fall when others settle them. -/
namespace Kswarm.Worker.Branch
open Accounts Protocol

/-- `claimed` are the claims whose call returned, `silent` those that landed although it raised. -/
structure World where
  now : ℚ
  active : ℕ
  claimed : List Digest
  silent : List Digest
  receipts : List Digest
  log : List (Sigma Ans)

/-- Every claim that is on chain because of the pass. -/
def World.landed (w : World) : List Digest := w.claimed ++ w.silent

def opening (now : ℚ) (active : ℕ) : World := ⟨now,active,[],[],[],[]⟩

/-- What a call does. Apart from the time and the worker's own account any answer is possible, and a
transaction whose call raises may have landed. -/
def acts : (o : Op) → World → Ans o → World → Prop
  | .clock,w,now,v => now = w.now ∧ v = w
  | .sleep seconds,w,_,v => v = {w with now := w.now + seconds}
  | .workerAccount,w,answer,v => (∀ n, answer = .ok (some n) → n = w.active) ∧ v = w
  | .claimJob key,w,.ok _,v => v = {w with active := w.active + 1, claimed := w.claimed ++ [key]}
  | .claimJob key,w,.error _,v =>
    v = w ∨ v = {w with active := w.active + 1, silent := w.silent ++ [key]}
  | .submitReceipt key _ _,w,.ok _,v => v = {w with receipts := w.receipts ++ [key]}
  | .submitReceipt key _ _,w,.error _,v => v = w ∨ v = {w with receipts := w.receipts ++ [key]}
  | _,w,_,v => v = w

/-- The world with one more answer on record. -/
def World.tell (w : World) (o : Op) (answer : Ans o) : World := {w with log := w.log ++ [⟨o,answer⟩]}

/-- Time passes, and others settle claims. -/
structure Drifts (w v : World) : Prop where
  now : w.now ≤ v.now
  active : v.active ≤ w.active
  claimed : v.claimed = w.claimed
  silent : v.silent = w.silent
  receipts : v.receipts = w.receipts
  log : v.log = w.log

lemma Drifts.refl (w : World) : Drifts w w := ⟨le_rfl,le_rfl,rfl,rfl,rfl,rfl⟩

lemma Drifts.trans {u v w : World} (h : Drifts u v) (h' : Drifts v w) : Drifts u w :=
  ⟨h.now.trans h'.now,h'.active.trans h.active,h'.claimed.trans h.claimed,h'.silent.trans h.silent,
    h'.receipts.trans h.receipts,h'.log.trans h.log⟩

def ledger : Service Op Ans World where
  serves o w answer v := ∃ u, acts o w answer u ∧ v = u.tell o answer
  drifts := Drifts
  drifts_refl := Drifts.refl
  drifts_trans _ _ _ := Drifts.trans

section Failures
variable [CharData]

/-- A failure of a step after the claim that the daemon has no handler for. -/
def Uncaught : (o : Op) → Ans o → Prop
  | .job _,.error _ => True
  | .catBytes _,.error (.other _) => True
  | .execute _ _,.error (.other _) => True
  | .execute job branchInput,.ok host => Breaks host (keyText job) branchInput
  | .submitReceipt _ _ _,.error (.other _) => True
  | _,_ => False

/-- The daemon tries again after it. -/
def CallError.passing : CallError → Bool
  | .ipfs _ => true
  | .endpoint _ retryable => retryable
  | _ => false

open Classical in
/-- The failed attempts at the claimed job, after one more answer. -/
noncomputable def tally (failed : ℕ) : (o : Op) → Ans o → ℕ
  | .claimJob _,_ => 0
  | .catBytes _,.error error => failed + error.passing.toNat
  | .execute _ _,.error error => failed + error.passing.toNat
  | .execute job branchInput,.ok host =>
    if Passes host (keyText job) branchInput then failed + 1 else failed
  | .submitReceipt _ _ _,.error error => failed + error.passing.toNat
  | _,_ => failed

/-- The attempts at the last claimed job that failed in passing. -/
noncomputable def World.failed (w : World) : ℕ :=
  w.log.foldl (fun failed entry => tally failed entry.1 entry.2) 0

/-- No failure after a claim was one that the daemon has no handler for. -/
def Handled (w : World) : Prop := ∀ entry ∈ w.log, ¬Uncaught entry.1 entry.2

/-- Every failure after a claim was handled, and none came at an attempt that has no backoff. -/
structure Clean (w : World) : Prop where
  handled : Handled w
  failed_le : w.failed ≤ lastBackoff

lemma handled_tell {w : World} {o : Op} {answer : Ans o} :
    Handled (w.tell o answer) ↔ Handled w ∧ ¬Uncaught o answer := by
  unfold Handled World.tell
  rw [List.forall_mem_append,List.forall_mem_singleton]

lemma failed_tell (w : World) (o : Op) (answer : Ans o) :
    (w.tell o answer).failed = tally w.failed o answer := by
  unfold World.failed World.tell
  rw [List.foldl_append]
  rfl

lemma Drifts.handled {w v : World} (h : Drifts w v) (hw : Handled w) : Handled v := by
  unfold Handled
  rw [h.log]
  exact hw

lemma Drifts.failed {w v : World} (h : Drifts w v) : v.failed = w.failed := by
  unfold World.failed
  rw [h.log]

end Failures
end Kswarm.Worker.Branch
