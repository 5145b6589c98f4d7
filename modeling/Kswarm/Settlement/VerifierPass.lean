import Kswarm.Settlement.Aggregate
import Kswarm.Settlement.Attestation
import Kswarm.Worker.Reexecution
import Kswarm.Worker.VerifierDaemon

/-! The verifier daemon against a program that keeps the first attestation of a job and slashes on
an attestation that differs from the receipt. Whatever its calls answer and whoever else attests,
the daemon attests to results of its own, once for a job, and challenges only what it attested. -/
namespace Kswarm.Worker.Verifying
open Branch (CallError)
open Settlement

/-- The attestation of each job on chain with its authority, the receipt hash of each job, and what
the daemon has read and done: `log` are the jobs it worked on, each with the counters raised for it,
`landed` are its attestations on chain, `slashed` its challenges on chain with the receipt hash of
that moment, `confirmed` and `challenged` count the calls that returned. -/
structure World where
  attested : Digest → Option (Digest × Digest)
  submitted : Digest → Digest
  now : ℚ
  listing : List (Digest × Job)
  log : List (Digest × List Metric)
  landed : List (Digest × Digest)
  slashed : List (Digest × Digest)
  confirmed : ℕ
  challenged : ℕ
  counts : Metric → ℕ

/-- A daemon started over any chain. -/
def opening (attested : Digest → Option (Digest × Digest)) (submitted : Digest → Digest) :
    World where
  attested := attested
  submitted := submitted
  now := 0
  listing := []
  log := []
  landed := []
  slashed := []
  confirmed := 0
  challenged := 0
  counts := fun _ => 0

namespace World

/-- An attestation lands; `returned` is 1 when its call returns as well. -/
def attest (w : World) (wallet key hash : Digest) (returned : ℕ) : World :=
  {w with attested := Function.update w.attested key (some (wallet,hash)),
          landed := w.landed ++ [(key,hash)], confirmed := w.confirmed + returned}

def slash (w : World) (key : Digest) (returned : ℕ) : World :=
  {w with slashed := w.slashed ++ [(key,w.submitted key)], challenged := w.challenged + returned}

def begin (w : World) (key : Digest) : World := {w with log := w.log ++ [(key,[])]}

/-- A counter is raised for the job that is worked on, the last one. -/
def note (metric : Metric) (log : List (Digest × List Metric)) : List (Digest × List Metric) :=
  log.dropLast ++ (log.getLast?.map (fun entry => (entry.1,entry.2 ++ [metric]))).toList

lemma note_concat (metric : Metric) (log : List (Digest × List Metric)) (key : Digest)
    (metrics : List Metric) :
    note metric (log ++ [(key,metrics)]) = log ++ [(key,metrics ++ [metric])] := by
  simp [note]

def count (w : World) (metric : Metric) : World :=
  {w with log := note metric w.log,
          counts := Function.update w.counts metric (w.counts metric + 1)}

/-- What the program asks of a challenge. -/
def Challengeable (w : World) (key : Digest) : Prop :=
  ∃ authority hash, w.attested key = some (authority,hash) ∧ hash ≠ w.submitted key

/-- The accounts of the program, one for a key, as they are. -/
structure Lists (w : World) (listing : List (Digest × Job)) : Prop where
  keys : (listing.map Prod.fst).Nodup
  authority : ∀ key job, (key,job) ∈ listing → job.verifierAuthority = (w.attested key).map Prod.fst

end World

/-- What a call of the daemon does. A transaction whose call raises may have landed. -/
def acts (wallet : Digest) [CharData] : (o : Op) → World → Ans o → World → Prop
  | .clock,w,now,v => v = {w with now}
  | .sleep,w,_,v => v = w
  | .jobs,w,.ok listing,v => w.Lists listing ∧ v = {w with listing}
  | .jobs,w,.error _,v => v = w
  | .work key,w,_,v => v = w.begin key
  | .submitAttestation key resultBytes _ _,w,.ok _,v =>
      w.attested key = none ∧ v = w.attest wallet key (sha256 resultBytes) 1
  | .submitAttestation key resultBytes _ _,w,.error _,v =>
      v = w ∨ (w.attested key = none ∧ v = w.attest wallet key (sha256 resultBytes) 0)
  | .job _,w,_,v => v = w
  | .challengeJob key _,w,.ok _,v => w.Challengeable key ∧ v = w.slash key 1
  | .challengeJob key _,w,.error _,v => v = w ∨ (w.Challengeable key ∧ v = w.slash key 0)
  | .count metric,w,_,v => v = w.count metric

/-- Everyone else's moves: an attestation stays where it is. -/
structure Drifts (w v : World) : Prop where
  attested : ∀ key a, w.attested key = some a → v.attested key = some a
  now : v.now = w.now
  listing : v.listing = w.listing
  log : v.log = w.log
  landed : v.landed = w.landed
  slashed : v.slashed = w.slashed
  confirmed : v.confirmed = w.confirmed
  challenged : v.challenged = w.challenged
  counts : v.counts = w.counts

lemma Drifts.refl (w : World) : Drifts w w :=
  ⟨fun _ _ h => h,rfl,rfl,rfl,rfl,rfl,rfl,rfl,rfl⟩

lemma Drifts.trans {u v w : World} (h : Drifts u v) (h' : Drifts v w) : Drifts u w where
  attested key a ha := h'.attested key a (h.attested key a ha)
  now := h'.now.trans h.now
  listing := h'.listing.trans h.listing
  log := h'.log.trans h.log
  landed := h'.landed.trans h.landed
  slashed := h'.slashed.trans h.slashed
  confirmed := h'.confirmed.trans h.confirmed
  challenged := h'.challenged.trans h.challenged
  counts := h'.counts.trans h.counts

/-- The program among its other users. -/
def chain (wallet : Digest) [CharData] : Service Op Ans World where
  serves := acts wallet
  drifts := Drifts
  drifts_refl := Drifts.refl
  drifts_trans _ _ _ := Drifts.trans

section Discipline
variable [CharData]

/-- The daemon's own result for a job, in some surroundings. -/
def Finds (d : Daemon) (key : Digest) (job : Job) (resultBytes : Bytes) : Prop :=
  (job.jobClass = jobClassBranchProof ∧ ∃ s a,
    verifyAndAttest (d.within s).toVerifier key job = .ok (.attested a) ∧
      a.resultBytes = resultBytes) ∨
  (job.jobClass = jobClassAggregateProof ∧ ∃ s a,
    verifyAndAttestAggregate (d.within s).aggregate key job = .ok a ∧ a.resultBytes = resultBytes)

/-- The daemon's own result is not the receipt, or the document does not answer its input. -/
def Disputes (d : Daemon) (key : Digest) (job : Job) (hash : Digest) : Prop :=
  hash ≠ job.submittedResultHash ∨
    (job.jobClass = jobClassBranchProof ∧ ∃ s a,
      verifyAndAttest (d.within s).toVerifier key job = .ok (.attested a) ∧
        sha256 a.resultBytes = hash ∧ a.validationErrors ≠ [])

/-- What the daemon knows of a job it attests to. -/
structure Sends (d : Daemon) (w : World) (key : Digest) (resultBytes : Bytes)
    (softwareDigest : Digest) (job : Job) : Prop where
  listed : (key,job) ∈ w.listing
  completed : job.status = Cli.jobStatusCompleted
  unattested : job.verifierAuthority = none
  inTime : ⌊w.now⌋₊ < job.challengeDeadline
  other : job.worker ≠ d.wallet
  digest : job.requiredSoftwareDigest = softwareDigest ∨ job.requiredSoftwareDigest = zeroHash
  own : Finds d key job resultBytes

/-- What the daemon may ask of the program. -/
def May (d : Daemon) : Op → World → Prop
  | .submitAttestation key resultBytes _ softwareDigest,w =>
    key ∉ w.landed.map Prod.fst ∧ ∃ job, Sends d w key resultBytes softwareDigest job
  | .challengeJob key _,w => d.challengeOnMismatch = true ∧
    ∃ job hash, (key,job) ∈ w.listing ∧ (key,hash) ∈ w.landed ∧ Disputes d key job hash
  | _,_ => True

/-- The daemon's attestations are on chain, one for a job, each to a result of its own; and every
job it slashed had another receipt than the attestation says. -/
structure Upright (d : Daemon) (w : World) : Prop where
  onChain : ∀ key hash, (key,hash) ∈ w.landed → w.attested key = some (d.wallet,hash)
  once : (w.landed.map Prod.fst).Nodup
  own : ∀ key hash, (key,hash) ∈ w.landed →
    ∃ job resultBytes, sha256 resultBytes = hash ∧ Finds d key job resultBytes
  slashed : ∀ key submitted, (key,submitted) ∈ w.slashed →
    ∃ hash, (key,hash) ∈ w.landed ∧ hash ≠ submitted

lemma upright_opening (d : Daemon) (attested : Digest → Option (Digest × Digest))
    (submitted : Digest → Digest) : Upright d (opening attested submitted) where
  onChain _ _ h := nomatch h
  once := List.nodup_nil
  own _ _ h := nomatch h
  slashed _ _ h := nomatch h

namespace Upright
variable {d : Daemon} {w v : World} {key hash : Digest}

/-- What a move must leave as it is for the daemon's record to stay right. -/
lemma carry (h : Upright d w) (hattested : ∀ key a, w.attested key = some a →
    v.attested key = some a) (hlanded : v.landed = w.landed) (hslashed : v.slashed = w.slashed) :
    Upright d v where
  onChain key hash hmem := hattested key _ (h.onChain key hash (hlanded ▸ hmem))
  once := hlanded ▸ h.once
  own key hash hmem := h.own key hash (hlanded ▸ hmem)
  slashed key submitted hmem := by
    rw [hlanded]
    exact h.slashed key submitted (hslashed ▸ hmem)

lemma drift (h : Upright d w) (hd : Drifts w v) : Upright d v :=
  h.carry hd.attested hd.landed hd.slashed

lemma fresh (h : Upright d w) (hnone : w.attested key = none) : key ∉ w.landed.map Prod.fst := by
  intro hmem
  obtain ⟨⟨_,hash⟩,hlanded,rfl⟩ := List.mem_map.mp hmem
  rw [h.onChain _ hash hlanded] at hnone
  cases hnone

lemma attest (h : Upright d w) (hnone : w.attested key = none) {job : Job} {resultBytes : Bytes}
    (hown : Finds d key job resultBytes) (n : ℕ) :
    Upright d (w.attest d.wallet key (sha256 resultBytes) n) where
  onChain key' hash' hmem := by
    rcases List.mem_append.mp hmem with hold | hmem
    · have hne : key' ≠ key := by
        rintro rfl
        exact h.fresh hnone (List.mem_map_of_mem (f := Prod.fst) hold)
      exact (Function.update_of_ne hne _ _).trans (h.onChain key' hash' hold)
    · obtain ⟨rfl,rfl⟩ := Prod.mk.inj (List.mem_singleton.mp hmem)
      exact Function.update_self ..
  once := by
    change ((w.landed ++ [(key,sha256 resultBytes)]).map Prod.fst).Nodup
    rw [List.map_append,List.nodup_append]
    refine ⟨h.once,List.nodup_singleton _,?_⟩
    intro a ha b hb
    obtain rfl : b = key := by simpa using hb
    rintro rfl
    exact h.fresh hnone ha
  own key' hash' hmem := by
    rcases List.mem_append.mp hmem with hmem | hmem
    · exact h.own key' hash' hmem
    · obtain ⟨rfl,rfl⟩ := Prod.mk.inj (List.mem_singleton.mp hmem)
      exact ⟨job,resultBytes,rfl,hown⟩
  slashed key' submitted hmem := by
    obtain ⟨hash',hlanded,hne⟩ := h.slashed key' submitted hmem
    exact ⟨hash',List.mem_append_left _ hlanded,hne⟩

/-- A challenge of what the daemon attested to is about the daemon's own result. -/
lemma slash (h : Upright d w) (hlanded : (key,hash) ∈ w.landed) (hc : w.Challengeable key) (n : ℕ) :
    Upright d (w.slash key n) where
  onChain := h.onChain
  once := h.once
  own := h.own
  slashed key' submitted hmem := by
    rcases List.mem_append.mp hmem with hmem | hmem
    · exact h.slashed key' submitted hmem
    · obtain ⟨rfl,rfl⟩ := Prod.mk.inj (List.mem_singleton.mp hmem)
      obtain ⟨authority,hash',hattested,hne⟩ := hc
      rw [h.onChain _ _ hlanded] at hattested
      cases hattested
      exact ⟨hash,hlanded,hne⟩

end Upright

end Discipline

/-- What a counter adds to the failures of a job, and to the attestations and the challenges on
record. -/
def Metric.fails : Metric → ℕ
  | .attestationRaces => 1
  | .aggregateVerificationFailures => 1
  | .attestationsFailed => 1
  | .reexecutionFailures => 1
  | .reexecutionModelMismatches => 1
  | .receiptVerificationRefusals => 1
  | _ => 0

def Metric.attests : Metric → ℕ
  | .attestationsSubmitted => 1
  | .aggregateAttestationsSubmitted => 1
  | _ => 0

def Metric.disputes : Metric → ℕ
  | .challengesSubmitted => 1
  | _ => 0

/-- The failures counted for a job. -/
def failed (entry : Digest × List Metric) : ℕ := (entry.2.map Metric.fails).sum

/-- A job of the log with its failures. -/
def outcome (entry : Digest × List Metric) : Digest × ℕ := (entry.1,failed entry)

lemma branchHandler_counts (e : Failure) : (branchHandler e).fails = 1 ∧
    (branchHandler e).attests = 0 ∧ (branchHandler e).disputes = 0 := by
  unfold branchHandler
  split <;> exact ⟨rfl,rfl,rfl⟩

lemma aggregateHandler_counts (e : Failure) : (aggregateHandler e).fails = 1 ∧
    (aggregateHandler e).attests = 0 ∧ (aggregateHandler e).disputes = 0 := by
  unfold aggregateHandler
  split <;> exact ⟨rfl,rfl,rfl⟩

namespace World

def attestations (w : World) : ℕ :=
  w.counts .attestationsSubmitted + w.counts .aggregateAttestationsSubmitted

def challenges (w : World) : ℕ := w.counts .challengesSubmitted

@[simp] lemma attestations_count (w : World) (m : Metric) :
    (w.count m).attestations = w.attestations + m.attests := by
  cases m <;> simp [attestations,count,Metric.attests,Function.update] <;> omega

@[simp] lemma challenges_count (w : World) (m : Metric) :
    (w.count m).challenges = w.challenges + m.disputes := by
  cases m <;> simp [challenges,count,Metric.disputes,Function.update]

end World

section Job
variable [CharData]

/-- While one job is worked on: the other jobs are as they were, `begun` were worked on, each with so
many failures, and `owed` attestations and `due` challenges that returned are still to be
counted. -/
structure Since (d : Daemon) (start : World) (about : List Digest) (begun : List (Digest × ℕ))
    (owed due : ℕ) (w : World) : Prop where
  upright : Upright d w
  now : w.now = start.now
  listing : w.listing = start.listing
  log : ∃ entries, w.log = start.log ++ entries ∧ entries.map outcome = begun
  landed : ∀ key hash, (key,hash) ∈ w.landed → (key,hash) ∈ start.landed ∨ key ∈ about
  attestations : w.attestations + owed + start.confirmed = w.confirmed + start.attestations
  challenges : w.challenges + due + start.challenged = w.challenged + start.challenges

namespace Since
variable {d : Daemon} {start w v : World} {key : Digest} {about : List Digest}
  {begun : List (Digest × ℕ)}
  {owed due k : ℕ} {β : Type} {post : Except Failure β → World → Prop}
  {K : List (Digest × Digest) → Prop}

lemma drift (h : Since d start about begun owed due w) (hd : Drifts w v) :
    Since d start about begun owed due v where
  upright := h.upright.drift hd
  now := hd.now.trans h.now
  listing := hd.listing.trans h.listing
  log := hd.log ▸ h.log
  landed := hd.landed ▸ h.landed
  attestations := by
    unfold World.attestations
    rw [hd.counts,hd.confirmed]
    exact h.attestations
  challenges := by
    unfold World.challenges
    rw [hd.counts,hd.challenged]
    exact h.challenges

/-- A counter is one of the job that is worked on. -/
lemma count {m : Metric} (h : Since d start about [(key,k)] (owed + m.attests) (due + m.disputes) w) :
    Since d start about [(key,k + m.fails)] owed due (w.count m) where
  upright := h.upright.carry (fun _ _ ha => ha) rfl rfl
  now := h.now
  listing := h.listing
  log := by
    obtain ⟨entries,hlog,hentries⟩ := h.log
    obtain ⟨⟨key',metrics⟩,rfl,hentry⟩ := List.map_eq_singleton_iff.mp hentries
    obtain ⟨rfl,rfl⟩ := Prod.mk.inj hentry
    refine ⟨[(key',metrics ++ [m])],?_,?_⟩
    · change World.note m w.log = _
      rw [hlog,World.note_concat]
    · simp [outcome,failed]
  landed := h.landed
  attestations := by
    rw [World.attestations_count]
    have hsum := h.attestations
    change _ = w.confirmed + _
    omega
  challenges := by
    rw [World.challenges_count]
    have hsum := h.challenges
    change _ = w.challenged + _
    omega

lemma attest (h : Since d start about begun owed due w) (hkey : key ∈ about)
    (hnone : w.attested key = none) {job : Job} {resultBytes : Bytes}
    (hown : Finds d key job resultBytes) (n : ℕ) :
    Since d start about begun (owed + n) due
      (w.attest d.wallet key (sha256 resultBytes) n) where
  upright := h.upright.attest hnone hown n
  now := h.now
  listing := h.listing
  log := h.log
  landed key' hash hmem := by
    rcases List.mem_append.mp hmem with hold | hmem
    · exact h.landed key' hash hold
    · exact .inr ((Prod.mk.inj (List.mem_singleton.mp hmem)).1 ▸ hkey)
  attestations := by
    have hsum := h.attestations
    change w.attestations + (owed + n) + start.confirmed = w.confirmed + n + start.attestations
    omega
  challenges := h.challenges

lemma slash (h : Since d start about begun owed due w) {hash : Digest}
    (hlanded : (key,hash) ∈ w.landed) (hc : w.Challengeable key) (n : ℕ) :
    Since d start about begun owed (due + n) (w.slash key n) where
  upright := h.upright.slash hlanded hc n
  now := h.now
  listing := h.listing
  log := h.log
  landed := h.landed
  attestations := h.attestations
  challenges := by
    have hsum := h.challenges
    change w.challenges + (due + n) + start.challenged = w.challenged + n + start.challenges
    omega

/-- A question asked on the way, with one more fact about the daemon's attestations at hand. -/
lemma query {o : Op} {f : Ans o → Run β} (hw : Since d start about begun owed due w)
    (hK : K w.landed) (hmay : ∀ v, Since d start about begun owed due v → K v.landed →
      May d o v)
    (h : ∀ v, Since d start about begun owed due v → K v.landed → ∀ answer u,
      acts d.wallet o v answer u → Safe (chain d.wallet) (Upright d) (May d) post (f answer) u) :
    Safe (chain d.wallet) (Upright d) (May d) post (Process.query o >>= f) w := by
  intro v hd
  have hv := hw.drift hd
  have hKv : K v.landed := by
    rw [hd.landed]
    exact hK
  exact ⟨hv.upright,hmay v hv hKv,fun answer u hu => h v hv hKv answer u hu⟩

lemma stops {r : Except Failure β} (hw : Since d start about begun owed due w)
    (h : ∀ v, Since d start about begun owed due v → post r v) :
    Safe (chain d.wallet) (Upright d) (May d) post (.lift r) w := by
  apply Safe.liftEnd (J := Since d start about begun owed due)
  · exact fun _ _ hd hu => Since.drift hu hd
  · exact hw
  · exact fun v hv => ⟨hv.upright,h v hv⟩

/-- A counter on the way, for so many failures, attestations and challenges. -/
lemma counted {m : Metric} {n attests disputes : ℕ} {f : Unit → Run β}
    (hw : Since d start about [(key,k)] (owed + attests) (due + disputes) w)
    (hm : m.fails = n ∧ m.attests = attests ∧ m.disputes = disputes) (hK : K w.landed)
    (h : ∀ v, Since d start about [(key,k + n)] owed due v → K v.landed →
      Safe (chain d.wallet) (Upright d) (May d) post (f ()) v) :
    Safe (chain d.wallet) (Upright d) (May d) post (Verifying.count m >>= f) w := by
  obtain ⟨rfl,rfl,rfl⟩ := hm
  unfold Verifying.count
  apply hw.query (o := .count m) hK (fun _ _ _ => trivial)
  rintro v hv hKv _ u rfl
  exact h _ hv.count hKv

end Since

section Steps
variable {d : Daemon} {start w : World} {key : Digest} {job : Job}

/-- The rest of a job's work, wherever it ends: nothing is left to be counted but the failure that
ended it. -/
def Ended (d : Daemon) (start : World) (key : Digest) (r : Except Failure Bool) (v : World) :
    Prop :=
  match r with
  | .ok true => Since d start [key] [(key,0)] 0 0 v
  | .ok false => Since d start [key] [(key,1)] 0 0 v
  | .error _ => Since d start [key] [(key,0)] 0 0 v

/-- A challenge is about an attestation of the daemon's own. -/
lemma challenge_safe {hash : Digest} (hw : Since d start [key] [(key,0)] 0 0 w)
    (hon : d.challengeOnMismatch = true) (hlisted : (key,job) ∈ start.listing)
    (hlanded : (key,hash) ∈ w.landed) (hdispute : Disputes d key job hash) :
    Safe (chain d.wallet) (Upright d) (May d) (fun _ => Since d start [key] [(key,0)] 0 0)
      (challenge key) w := by
  have hquiet : ∀ v, Since d start [key] [(key,0)] 0 0 v → ∀ r : Except Failure Unit,
      Safe (chain d.wallet) (Upright d) (May d) (fun _ => Since d start [key] [(key,0)] 0 0)
        (.lift r) v := fun v hv r => hv.stops (fun u hu => hu)
  unfold challenge
  apply hw.query (o := .job key) (K := fun landed => (key,hash) ∈ landed) hlanded
    (fun _ _ _ => trivial)
  rintro v hv hKv answer u rfl
  cases answer with
  | error error => exact hquiet u hv (.error _)
  | ok found =>
    cases found with
    | none => exact hquiet u hv (.ok ())
    | some refreshed =>
      apply hv.query (K := fun landed => (key,hash) ∈ landed) hKv
      · intro v hv hKv
        exact ⟨hon,job,hash,hv.listing ▸ hlisted,hKv,hdispute⟩
      · intro v hv hKv answer u hu
        cases answer with
        | ok _ =>
          obtain ⟨hc,rfl⟩ := hu
          exact (hv.slash hKv hc 1).counted (f := pure) (K := fun _ => True) ⟨rfl,rfl,rfl⟩ trivial
            (fun v hv _ => hquiet v hv (.ok ()))
        | error error =>
          have hu' : Since d start [key] [(key,0)] 0 0 u := by
            rcases hu with rfl | ⟨hc,rfl⟩
            · exact hv
            · exact hv.slash hKv hc 0
          cases error with
          | rpc error =>
            dsimp only
            split
            · exact Since.counted (f := pure) (K := fun _ => True) hu' ⟨rfl,rfl,rfl⟩ trivial
                (fun v hv _ => hquiet v hv (.ok ()))
            · exact hquiet u hu' (.error _)
          | ipfs text => exact hquiet u hu' (.error _)
          | endpoint text retryable => exact hquiet u hu' (.error _)
          | other text => exact hquiet u hu' (.error _)

/-- The report of a finding of the daemon's own about a job it may attest to. -/
lemma report_safe {submitted mismatched : Metric} {finding : Finding}
    (hsubmitted : submitted.fails = 0 ∧ submitted.attests = 1 ∧ submitted.disputes = 0)
    (hmismatched : mismatched.fails = 0 ∧ mismatched.attests = 0 ∧ mismatched.disputes = 0)
    (hw : Since d start [key] [(key,0)] 0 0 w) (hfresh : key ∉ w.landed.map Prod.fst)
    (hsends : Sends d start key finding.resultBytes finding.softwareDigest job)
    (hdispute : finding.isMatch = false → finding.challenges = true →
      d.challengeOnMismatch = true ∧ Disputes d key job (sha256 finding.resultBytes)) :
    Safe (chain d.wallet) (Upright d) (May d) (Ended d start key)
      (report submitted mismatched key finding) w := by
  unfold report
  apply hw.query (K := fun landed => key ∉ landed.map Prod.fst) hfresh
  · intro v hv hKv
    exact ⟨hKv,job,hv.listing ▸ hsends.listed,hsends.completed,hsends.unattested,
      hv.now ▸ hsends.inTime,hsends.other,hsends.digest,hsends.own⟩
  · intro v hv _ answer u hu
    cases answer with
    | error error =>
      have hu' : Since d start [key] [(key,0)] 0 0 u := by
        rcases hu with rfl | ⟨hnone,rfl⟩
        · exact hv
        · exact hv.attest (List.mem_singleton_self key) hnone hsends.own 0
      exact hu'.stops (r := .error _) (fun v hv => hv)
    | ok _ =>
      obtain ⟨hnone,rfl⟩ := hu
      have hattest := hv.attest (List.mem_singleton_self key) hnone hsends.own 1
      have hsaid : (key,sha256 finding.resultBytes) ∈ (v.attest d.wallet key
          (sha256 finding.resultBytes) 1).landed :=
        List.mem_append_right _ (List.mem_singleton_self _)
      change Safe _ _ _ _ (Verifying.count submitted >>= _) _
      apply Since.counted (K := fun landed => (key,sha256 finding.resultBytes) ∈ landed)
        hattest hsubmitted hsaid
      intro v hv hKv
      split
      · exact hv.stops (r := .ok true) (fun v hv => hv)
      · rename_i hmatch
        apply Since.counted (K := fun landed => (key,sha256 finding.resultBytes) ∈ landed)
          hv hmismatched hKv
        intro v hv hKv
        split
        · rename_i hchallenges
          obtain ⟨hon,hd⟩ := hdispute (Bool.eq_false_of_not_eq_true hmatch) hchallenges
          apply (challenge_safe hv hon hsends.listed hKv hd).andThen
          · exact fun _ v _ hv => hv.stops (r := .ok true) (fun v hv => hv)
          · exact fun _ _ _ hv => hv
        · exact hv.stops (r := .ok true) (fun v hv => hv)

/-- The attestation of a branch verifier is its own, names a digest the job takes, and disputes the
receipt or finds that the document does not answer its input. -/
lemma sends_branch {s : Surroundings} {a : Attestation}
    (hm : matchesAttestableBranchJob d.toVerifier job ⌊start.now⌋₊ = true)
    (hlisted : (key,job) ∈ start.listing)
    (ha : verifyAndAttest (d.within s).toVerifier key job = .ok (.attested a)) :
    Sends d start key a.resultBytes a.softwareDigest job ∧
      ((Attestation.finding job a).isMatch = false → a.challenges = true →
        d.challengeOnMismatch = true ∧ Disputes d key job (sha256 a.resultBytes)) := by
  have hfound := ha
  simp only [verifyAndAttest,bind_eq_ok,Prod.exists] at ha
  obtain ⟨branchInput,submittedOutput,-,ha⟩ := ha
  obtain ⟨-,verification,hv,errors,report,-,hrefuse,cid,-,rfl⟩ := attest_eq_attested.mp ha
  obtain ⟨hhash,-⟩ := verify_ok hv
  simp only [matchesAttestableBranchJob,Bool.and_eq_true,decide_eq_true_eq,
    Option.isNone_iff_eq_none] at hm
  obtain ⟨⟨⟨⟨⟨hstatus,hclass⟩,hnone⟩,htime⟩,hdigest⟩,hworker⟩ := hm
  refine ⟨⟨hlisted,hstatus,hnone,htime,hworker,hdigest,.inl ⟨hclass,s,_,hfound,rfl⟩⟩,?_⟩
  intro hmatch hchallenges
  refine ⟨(Bool.and_eq_true _ _ ▸ hchallenges).2,?_⟩
  by_cases hsame : sha256 verification.verifierResultBytes = job.submittedResultHash
  · right
    refine ⟨hclass,s,_,hfound,rfl,?_⟩
    intro hvalid
    have hnil : errors = [] := hrefuse.resolve_right (not_not.mpr (hhash.trans hsame))
    simp [Attestation.finding,hsame,hnil] at hmatch
    exact hmatch hvalid
  · exact .inl hsame

lemma sends_aggregate {s : Surroundings} {a : AggregateAttestation}
    (hm : matchesAttestableAggregateJob d.aggregate job ⌊start.now⌋₊ = true)
    (hlisted : (key,job) ∈ start.listing)
    (ha : verifyAndAttestAggregate (d.within s).aggregate key job = .ok a) :
    Sends d start key a.resultBytes a.softwareDigest job ∧
      (a.challenges = true →
        d.challengeOnMismatch = true ∧ Disputes d key job (sha256 a.resultBytes)) := by
  have hfound := ha
  simp only [verifyAndAttestAggregate,bind_eq_ok,ok_of_mapError,require_eq_ok,pure_eq_ok] at ha
  obtain ⟨artifact,-,journal,-,resultBytes,-,errors,-,cid,-,rfl⟩ := ha
  simp only [matchesAttestableAggregateJob,Bool.and_eq_true,decide_eq_true_eq,
    Option.isNone_iff_eq_none] at hm
  obtain ⟨⟨⟨⟨⟨hstatus,hclass⟩,hnone⟩,htime⟩,hworker⟩,-⟩ := hm
  refine ⟨⟨hlisted,hstatus,hnone,htime,hworker,?_,.inr ⟨hclass,s,_,hfound,rfl⟩⟩,?_⟩
  · by_cases hzero : job.requiredSoftwareDigest = zeroHash
    · exact .inr hzero
    · exact .inl (if_pos hzero).symm
  · intro hchallenges
    simp only [Bool.and_eq_true,decide_eq_true_eq] at hchallenges
    exact ⟨hchallenges.2,.inl hchallenges.1.2⟩

/-- The work on a job begins in its surroundings. -/
lemma Since.work {f : Except CallError Surroundings → Run Bool}
    (hw : Since d start [key] [] 0 0 w)
    (hfresh : key ∉ w.landed.map Prod.fst)
    (h : ∀ v, Since d start [key] [(key,0)] 0 0 v → key ∉ v.landed.map Prod.fst → ∀ s,
      Safe (chain d.wallet) (Upright d) (May d) (Ended d start key) (f (.ok s)) v)
    (herror : ∀ e, f (.error e) = .raise (.call e)) :
    Safe (chain d.wallet) (Upright d) (May d) (Ended d start key)
      (Process.query (Op.work key) >>= f) w := by
  apply hw.query (o := .work key) (K := fun landed => key ∉ landed.map Prod.fst) hfresh
    (fun _ _ _ => trivial)
  rintro v hv hKv answer u rfl
  have hu : Since d start [key] [(key,0)] 0 0 (v.begin key) := {
    hv with
    upright := hv.upright.carry (fun _ _ ha => ha) rfl rfl
    log := by
      obtain ⟨entries,hlog,hentries⟩ := hv.log
      obtain rfl := List.map_eq_nil_iff.mp hentries
      exact ⟨[(key,[])],by rw [World.begin,hlog,List.append_nil],rfl⟩ }
  cases answer with
  | error error =>
    rw [herror]
    exact hu.stops (r := .error _) (fun v hv => hv)
  | ok s => exact h _ hu hKv s

lemma attestBranch_safe (hw : Since d start [key] [] 0 0 w) (hfresh : key ∉ w.landed.map Prod.fst)
    (hm : matchesAttestableBranchJob d.toVerifier job ⌊start.now⌋₊ = true)
    (hlisted : (key,job) ∈ start.listing) :
    Safe (chain d.wallet) (Upright d) (May d) (Ended d start key) (attestBranch d key job) w := by
  unfold attestBranch
  apply hw.work hfresh
  · intro v hv hfresh s
    change Safe _ _ _ _ (Process.lift
      ((verifyAndAttest (d.within s).toVerifier key job).mapError Failure.branch) >>= _) v
    apply Safe.lift
    · intro verdict hverdict
      rw [ok_of_mapError] at hverdict
      cases verdict with
      | otherModel =>
        exact hv.counted (K := fun _ => True) (n := 1) ⟨rfl,rfl,rfl⟩ trivial
          (fun v hv _ => hv.stops (r := .ok false) (fun v hv => hv))
      | refused errors =>
        exact hv.counted (K := fun _ => True) (n := 1) ⟨rfl,rfl,rfl⟩ trivial
          (fun v hv _ => hv.stops (r := .ok false) (fun v hv => hv))
      | attested a =>
        obtain ⟨hsends,hdispute⟩ := sends_branch hm hlisted hverdict
        exact report_safe ⟨rfl,rfl,rfl⟩ ⟨rfl,rfl,rfl⟩ hv hfresh hsends hdispute
    · exact fun e _ => hv.stops (r := .error e) (fun v hv => hv)
  · exact fun e => rfl

lemma attestAggregate_safe (hw : Since d start [key] [] 0 0 w)
    (hfresh : key ∉ w.landed.map Prod.fst)
    (hm : matchesAttestableAggregateJob d.aggregate job ⌊start.now⌋₊ = true)
    (hlisted : (key,job) ∈ start.listing) :
    Safe (chain d.wallet) (Upright d) (May d) (Ended d start key) (attestAggregate d key job)
      w := by
  unfold attestAggregate
  apply hw.work hfresh
  · intro v hv hfresh s
    change Safe _ _ _ _ (Process.lift
      ((verifyAndAttestAggregate (d.within s).aggregate key job).mapError
        Failure.aggregate) >>= _) v
    apply Safe.lift
    · intro a ha
      rw [ok_of_mapError] at ha
      obtain ⟨hsends,hdispute⟩ := sends_aggregate hm hlisted ha
      exact report_safe ⟨rfl,rfl,rfl⟩ ⟨rfl,rfl,rfl⟩ hv hfresh hsends (fun _ => hdispute)
    · exact fun e _ => hv.stops (r := .error e) (fun v hv => hv)
  · exact fun e => rfl

/-- A job that was worked on is processed, or exactly one failure was counted for it, unless a
panic ended it. -/
def Handled (d : Daemon) (start : World) (key : Digest) (r : Except Failure Bool) (v : World) :
    Prop :=
  match r with
  | .ok done => Since d start [key] [(key,if done then 0 else 1)] 0 0 v
  | .error e => e.escapes = true ∧ Since d start [key] [(key,0)] 0 0 v

lemma attempt_safe {handler : Failure → Metric} {p : Run Bool}
    (hhandler : ∀ e, (handler e).fails = 1 ∧ (handler e).attests = 0 ∧ (handler e).disputes = 0)
    (hp : Safe (chain d.wallet) (Upright d) (May d) (Ended d start key) p w) :
    Safe (chain d.wallet) (Upright d) (May d) (Handled d start key) (attempt handler p) w := by
  unfold attempt
  apply Safe.recover
  apply hp.weaken
  intro r v _ hr
  cases r with
  | ok done =>
    cases done with
    | true => exact hr
    | false => exact hr
  | error e =>
    have hv : Since d start [key] [(key,0)] 0 0 v := hr
    change Safe _ _ _ _ (if e.escapes = true then Process.raise e else _) v
    split
    · rename_i he
      exact hv.stops (r := .error e) (fun v hv => ⟨he,hv⟩)
    · exact hv.counted (K := fun _ => True) (hhandler e) trivial
        (fun v hv _ => hv.stops (r := .ok false) (fun v hv => hv))

lemma workOn_safe {p : Run Bool} (hp : workOn d ⌊start.now⌋₊ key job = some p)
    (hw : Since d start [key] [] 0 0 w) (hlisted : (key,job) ∈ start.listing)
    (hfresh : job.verifierAuthority = none → key ∉ w.landed.map Prod.fst) :
    Safe (chain d.wallet) (Upright d) (May d) (Handled d start key) p w := by
  unfold workOn at hp
  split at hp
  · rename_i hm
    cases hp
    apply attempt_safe aggregateHandler_counts
    apply attestAggregate_safe hw (hfresh _) hm hlisted
    simp only [matchesAttestableAggregateJob,Bool.and_eq_true,Option.isNone_iff_eq_none] at hm
    exact hm.1.1.1.2
  · split at hp
    · rename_i hm
      cases hp
      apply attempt_safe branchHandler_counts
      apply attestBranch_safe hw (hfresh _) hm hlisted
      simp only [matchesAttestableBranchJob,Bool.and_eq_true,Option.isNone_iff_eq_none] at hm
      exact hm.1.1.1.2
    · cases hp

end Steps

section Passes
variable {d : Daemon} {u v w : World} {keys keys' : List Digest} {begun begun' : List (Digest × ℕ)}
  {owed due : ℕ}

lemma Upright.since (h : Upright d w) (about : List Digest) : Since d w about [] 0 0 w where
  upright := h
  now := rfl
  listing := rfl
  log := ⟨[],(List.append_nil _).symm,rfl⟩
  landed _ _ hmem := .inl hmem
  attestations := Nat.add_comm ..
  challenges := Nat.add_comm ..

lemma Since.trans (h : Since d u keys begun 0 0 v) (h' : Since d v keys' begun' owed due w) :
    Since d u (keys ++ keys') (begun ++ begun') owed due w where
  upright := h'.upright
  now := h'.now.trans h.now
  listing := h'.listing.trans h.listing
  log := by
    obtain ⟨entries,hlog,hentries⟩ := h.log
    obtain ⟨entries',hlog',hentries'⟩ := h'.log
    refine ⟨entries ++ entries',?_,?_⟩
    · rw [hlog',hlog,List.append_assoc]
    · rw [List.map_append,hentries,hentries']
  landed key hash hmem := by
    rcases h'.landed key hash hmem with hmem | hmem
    · exact (h.landed key hash hmem).imp_right (List.mem_append_left _)
    · exact .inr (List.mem_append_right _ hmem)
  attestations := by
    have hfirst := h.attestations
    have hlast := h'.attestations
    omega
  challenges := by
    have hfirst := h.challenges
    have hlast := h'.challenges
    omega

/-- The jobs a pass works on. -/
def attestable (d : Daemon) (now : ℕ) (jobs : List (Digest × Job)) : List Digest :=
  (jobs.filter (fun entry => (workOn d now entry.1 entry.2).isSome)).map Prod.fst

/-- How the loop ends: it reached every job and counted those without a failure, or a panic ended
it. -/
def Ends (processed : ℕ) (outcomes : List (Digest × ℕ)) (unreached : List Digest) :
    Except Failure ℕ → Prop
  | .ok total => unreached = [] ∧ total = processed + outcomes.countP (fun o => decide (o.2 = 0))
  | .error e => e.escapes = true

/-- A pass over these jobs worked on the attestable ones, in order, until it ended, and no job has
more than one failure. -/
def Walked (d : Daemon) (start : World) (jobs : List (Digest × Job)) (processed : ℕ)
    (r : Except Failure ℕ) (v : World) : Prop :=
  ∃ outcomes unreached, Since d start (outcomes.map Prod.fst) outcomes 0 0 v ∧
    attestable d ⌊start.now⌋₊ jobs = outcomes.map Prod.fst ++ unreached ∧
    (∀ o ∈ outcomes, o.2 ≤ 1) ∧ Ends processed outcomes unreached r

/-- The loop, one job after the other: the work on a job leaves the jobs behind it unattested. -/
lemma walk_safe (jobs : List (Digest × Job)) (processed : ℕ) (hw : Upright d w)
    (hlisted : ∀ entry ∈ jobs, entry ∈ w.listing) (hkeys : (jobs.map Prod.fst).Nodup)
    (hfresh : ∀ entry ∈ jobs, entry.2.verifierAuthority = none →
      entry.1 ∉ w.landed.map Prod.fst) :
    Safe (chain d.wallet) (Upright d) (May d) (Walked d w jobs processed)
      (walk d ⌊w.now⌋₊ jobs processed) w := by
  induction jobs generalizing processed w with
  | nil =>
    exact (hw.since []).stops (r := .ok processed) (fun v hv => ⟨[],[],hv,rfl,by simp,rfl,rfl⟩)
  | cons entry jobs ih =>
    obtain ⟨key,job⟩ := entry
    rw [List.map_cons,List.nodup_cons] at hkeys
    unfold walk
    cases hp : workOn d ⌊w.now⌋₊ key job with
    | none =>
      have hskip : attestable d ⌊w.now⌋₊ ((key,job)::jobs) = attestable d ⌊w.now⌋₊ jobs := by
        simp [attestable,hp]
      unfold Walked
      rw [hskip]
      exact ih processed hw (fun e he => hlisted e (List.mem_cons_of_mem _ he)) hkeys.2
        (fun e he => hfresh e (List.mem_cons_of_mem _ he))
    | some p =>
      have htake : attestable d ⌊w.now⌋₊ ((key,job)::jobs) =
          [key] ++ attestable d ⌊w.now⌋₊ jobs := by
        simp [attestable,hp]
      have hjob := workOn_safe hp (hw.since [key]) (hlisted _ List.mem_cons_self)
        (hfresh _ List.mem_cons_self)
      apply hjob.andThen
      · intro done v _ hv
        have hv : Since d w [key] [(key,if done then 0 else 1)] 0 0 v := hv
        have hrest := ih (if done then processed+1 else processed) hv.upright
          (fun e he => hv.listing ▸ hlisted e (List.mem_cons_of_mem _ he)) hkeys.2
          (fun e he hnone hmem => by
            obtain ⟨⟨_,hash⟩,hlanded,rfl⟩ := List.mem_map.mp hmem
            rcases hv.landed _ _ hlanded with hold | hkey
            · exact hfresh e (List.mem_cons_of_mem _ he) hnone
                (List.mem_map_of_mem (f := Prod.fst) hold)
            · have hin : e.1 ∈ jobs.map Prod.fst := List.mem_map_of_mem he
              rw [List.mem_singleton.mp hkey] at hin
              exact hkeys.1 hin)
        rw [hv.now] at hrest
        apply hrest.weaken
        rintro r u _ ⟨outcomes,unreached,hu,hreached,hone,hends⟩
        rw [hv.now] at hreached
        refine ⟨(key,if done then 0 else 1)::outcomes,unreached,hv.trans hu,?_,?_,?_⟩
        · rw [htake,hreached]
          rfl
        · refine List.forall_mem_cons.mpr ⟨?_,hone⟩
          cases done with
          | true => exact Nat.zero_le 1
          | false => exact le_refl 1
        · cases r with
          | error e => exact hends
          | ok total =>
            obtain ⟨hall,rfl⟩ := hends
            refine ⟨hall,?_⟩
            cases done with
            | true => simp; omega
            | false => simp
      · intro e v _ hv
        obtain ⟨he,hv⟩ : e.escapes = true ∧ Since d w [key] [(key,0)] 0 0 v := hv
        exact ⟨[(key,0)],_,hv,htake,by simp,he⟩

/-- How a pass from `start` ends: the jobs could not be read, or the pass accounts for the jobs it
read. -/
def Passed (d : Daemon) (start : World) (r : Except Failure ℕ) (v : World) : Prop :=
  (∃ fault, r = .error (Fault.failure fault) ∧ Since d {start with now := v.now} [] [] 0 0 v) ∨
    Walked d {start with now := v.now, listing := v.listing} v.listing 0 r v

lemma runOnce_safe (hw : Upright d w) :
    Safe (chain d.wallet) (Upright d) (May d) (Passed d w) (runOnce d) w := by
  unfold runOnce
  apply (hw.since []).query (o := .clock) (K := fun _ => True) trivial (fun _ _ _ => trivial)
  rintro v hv - now u rfl
  have hu : Since d {w with now} [] [] 0 0 {v with now} := {
    hv with
    upright := hv.upright.carry (fun _ _ ha => ha) rfl rfl
    now := rfl }
  apply hu.query (o := .jobs) (K := fun _ => True) trivial (fun _ _ _ => trivial)
  clear hv hu
  intro v hv _ answer u hserve
  obtain rfl : now = v.now := hv.now.symm
  cases answer with
  | error error =>
    obtain rfl : u = v := hserve
    apply hv.stops (r := .error error.failure)
    exact fun x hx => .inl ⟨error,rfl,hx.now.symm ▸ hx⟩
  | ok listing =>
    obtain ⟨hlists,rfl⟩ := hserve
    have hu : Since d {w with now := v.now, listing} [] [] 0 0 {v with listing} := {
      hv with
      upright := hv.upright.carry (fun _ _ ha => ha) rfl rfl
      listing := rfl }
    have hwalk := walk_safe listing 0 hu.upright (fun _ he => he) hlists.keys
      (fun entry he hnone => by
        apply hv.upright.fresh
        have hauthority := hlists.authority entry.1 entry.2 he
        rw [hnone] at hauthority
        exact Option.map_eq_none_iff.mp hauthority.symm)
    change Safe _ _ _ _ (walk d ⌊v.now⌋₊ listing 0) _
    apply hwalk.weaken
    rintro r x _ ⟨outcomes,unreached,hx,hreached,hone,hends⟩
    have hlisting : x.listing = listing := hx.listing
    have hnow : x.now = v.now := hx.now
    right
    rw [hlisting,hnow]
    exact ⟨outcomes,unreached,hu.trans hx,hreached,hone,hends⟩

end Passes

section Example

/-- A daemon over the artifact of three branches, one of whose jobs does not exist. -/
def auditor : Daemon := {
  hashOnlyVerifier with
  wallet := natKey 7
  fetchJob := fun _ => .ok none }

def auditorSurroundings (artifact : Bytes) : Surroundings where
  host := labelHost "" 0 0
  catBytes _ := .ok artifact
  addJson name _ := .ok name
  hostVerify _ := .error "no host"
  fetchJob jobKey := .ok (missingChain jobKey)

/-- The auditor's only pass: it attests, and has nothing to challenge. -/
lemma auditor_passes {artifact outputs : Bytes} {a : AggregateAttestation}
    (ha : verifyAndAttestAggregate (sampleVerifier artifact missingChain) (natKey 9)
      (sampleJob artifact outputs) = .ok a)
    (hresult : a.resultBytes = outputs) (herrors : a.errors ≠ []) :
    ∃ v, Reaches (chain (natKey 7)) (opening (fun _ => none) (fun _ => sha256 outputs))
      (runOnce auditor) v (.lift (.ok 1)) ∧ v.landed = [(natKey 9,sha256 outputs)] := by
  have herrors : a.errors.isEmpty = false := by simpa using herrors
  have hquiet : a.challenges = false := by
    simp only [verifyAndAttestAggregate,bind_eq_ok,ok_of_mapError,require_eq_ok,pure_eq_ok] at ha
    obtain ⟨_,-,_,-,_,-,_,-,_,-,rfl⟩ := ha
    dsimp only at hresult
    subst hresult
    simp [sampleJob]
  have hne : natKey 4 ≠ natKey 7 := by decide
  have hwork : workOn auditor 0 (natKey 9) (sampleJob artifact outputs) = some
      (attempt aggregateHandler
        (attestAggregate auditor (natKey 9) (sampleJob artifact outputs))) :=
    if_pos (by simp [matchesAttestableAggregateJob,sampleJob,auditor,Daemon.aggregate,hne])
  have hjob : ∀ w : World, w.attested (natKey 9) = none → w.landed = [] →
      ∃ v, Reaches (chain (natKey 7)) w
        (attestAggregate auditor (natKey 9) (sampleJob artifact outputs)) v (.done true) ∧
        v.landed = [(natKey 9,sha256 outputs)] := by
    intro w hnone hlanded
    refine ⟨(((w.begin (natKey 9)).attest (natKey 7) (natKey 9) (sha256 outputs) 1).count
      .aggregateAttestationsSubmitted).count .aggregateMismatches,?_,?_⟩
    · apply Reaches.step (a := .ok (auditorSurroundings artifact)) rfl
      change Reaches _ _ (Process.lift ((verifyAndAttestAggregate (sampleVerifier artifact missingChain)
        (natKey 9) (sampleJob artifact outputs)).mapError Failure.aggregate) >>= _) _ _
      rw [ha]
      change Reaches _ _ (report _ _ _ (AggregateAttestation.finding a)) _ _
      apply Reaches.step (a := .ok ())
      · exact ⟨hnone,rfl⟩
      · apply Reaches.step (a := ()) rfl
        change Reaches _ _ (if a.errors.isEmpty then _ else _) _ _
        rw [if_neg (Bool.eq_false_iff.mp herrors)]
        apply Reaches.step (a := ()) rfl
        change Reaches _ _ (if a.challenges then _ else _) _ _
        rw [if_neg (Bool.eq_false_iff.mp hquiet)]
        subst hresult
        exact .start
    · change w.landed ++ [(natKey 9,sha256 outputs)] = _
      rw [hlanded]
      rfl
  obtain ⟨v,hrun,hv⟩ := hjob
    {opening (fun _ => none) (fun _ => sha256 outputs) with
      now := 0, listing := [(natKey 9,sampleJob artifact outputs)]} rfl rfl
  refine ⟨v,?_,hv⟩
  apply Reaches.step (a := (0 : ℚ)) rfl
  apply Reaches.step (a := .ok [(natKey 9,sampleJob artifact outputs)])
  · refine ⟨⟨List.nodup_singleton _,?_⟩,rfl⟩
    intro key job hmem
    obtain ⟨rfl,rfl⟩ := Prod.mk.inj (List.mem_singleton.mp hmem)
    rfl
  · change Reaches _ _ (walk auditor ⌊(0 : ℚ)⌋₊ _ 0) _ _
    rw [Nat.floor_zero,walk,hwork]
    exact hrun.recover.bind

end Example

end Job

/-- A pass that ends has worked on the attestable jobs of the listing, in its order, and counted
one failure at most for each; the counters of attestations and challenges agree with the calls that
returned. It reached all of them, however many failed, and returns the number of those without a
failure, unless reading an account panicked. Only a listing that cannot be read ends a pass
otherwise. -/
theorem pass_accounts_for_every_job [CharData] (d : Daemon)
    (attested : Digest → Option (Digest × Digest)) (submitted : Digest → Digest) (v : World)
    (r : Except Failure ℕ)
    (h : Reaches (chain d.wallet) (opening attested submitted) (runOnce d) v (.lift r)) :
    (∃ fault, r = .error (Fault.failure fault) ∧ v.log = [] ∧ v.landed = []) ∨
      (∃ unreached, attestable d ⌊v.now⌋₊ v.listing = v.log.map Prod.fst ++ unreached ∧
        ((unreached = [] ∧ r = .ok (v.log.countP (fun entry => decide (failed entry = 0)))) ∨
          ∃ e, r = .error e ∧ e.escapes = true)) ∧
      (∀ entry ∈ v.log, failed entry = 0 ∨ failed entry = 1) ∧
      v.attestations = v.confirmed ∧ v.challenges = v.challenged := by
  have hend := ((runOnce_safe (upright_opening d attested submitted)).reaches h).ended
  rcases hend with ⟨fault,rfl,hv⟩ | ⟨outcomes,unreached,hv,hreached,hone,hends⟩
  · left
    obtain ⟨entries,hlog,hentries⟩ := hv.log
    obtain rfl := List.map_eq_nil_iff.mp hentries
    refine ⟨fault,rfl,hlog,?_⟩
    rw [List.eq_nil_iff_forall_not_mem]
    intro entry hmem
    rcases hv.landed _ _ hmem with hold | hkey
    · exact nomatch hold
    · exact nomatch hkey
  · right
    obtain ⟨entries,hlog,rfl⟩ := hv.log
    obtain rfl : v.log = entries := hlog
    rw [List.map_map] at hreached
    refine ⟨⟨unreached,hreached,?_⟩,?_,hv.attestations,hv.challenges⟩
    · cases r with
      | error e => exact .inr ⟨e,rfl,hends⟩
      | ok total =>
        obtain ⟨hall,rfl⟩ := hends
        refine .inl ⟨hall,congrArg Except.ok ?_⟩
        rw [Nat.zero_add,List.countP_map]
        rfl
    · intro entry hmem
      have hle := hone (outcome entry) (List.mem_map_of_mem hmem)
      exact Nat.le_one_iff_eq_zero_or_eq_one.mp hle

/-- The auditor's first pass. -/
theorem auditor_accounts_for_its_job : let _ := CharData.ascii
    ∃ v : World, v.landed = [(natKey 9,sha256 sampleOutputs)] ∧
      (∃ unreached, attestable auditor ⌊v.now⌋₊ v.listing = v.log.map Prod.fst ++ unreached ∧
        ((unreached = [] ∧ Except.ok (ε := Failure) 1 =
            .ok (v.log.countP (fun entry => decide (failed entry = 0)))) ∨
          ∃ e, Except.ok (ε := Failure) 1 = .error e ∧ e.escapes = true)) ∧
      (∀ entry ∈ v.log, failed entry = 0 ∨ failed entry = 1) ∧
      v.attestations = v.confirmed ∧ v.challenges = v.challenged := by
  let _ := CharData.ascii
  obtain ⟨a,ha,-,hresult,herrors⟩ := sample_holds.missing_attests
  obtain ⟨v,hrun,hv⟩ := auditor_passes ha hresult herrors
  rcases pass_accounts_for_every_job auditor _ _ v (.ok 1) hrun with ⟨_,hraised,_⟩ | haccounts
  · cases hraised
  · exact ⟨v,hv,haccounts⟩

end Kswarm.Worker.Verifying
