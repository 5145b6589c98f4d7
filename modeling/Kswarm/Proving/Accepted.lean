import Kswarm.Lifecycle.Recovery
import Kswarm.Proving.Execution
import Kswarm.Settlement.SubmittedReceipt

/-! The hook and the runner that calls it. The runner spells its own reduction out as the payload,
and checks what the hook prints against the same reduction; the hook checks the payload too. Neither
refuses the other, and what is executed is the claim the job was opened with. -/
namespace Kswarm.Proving
open Worker Cli Settlement

section Runner
variable {host : Runner} {run : RunManifest} {job : Job} {binding : AggregateBinding}
  {resultBytes : Bytes} {report : Json}

/-- The payload of the runner. -/
def runnerPayload (run : RunManifest) (job : Job) (binding : AggregateBinding)
    (resultBytes : Bytes) : Payload :=
  payloadOf (keyText run.aggregateJob) job.requiredSoftwareDigest.val binding.artifact resultBytes

/-- A bound artifact has the digests of the job. -/
lemma bound_digests (hbind : bindCommittedArtifact host job = .ok binding)
    (hpacked : binding.journal.committedOutputs = some resultBytes) :
    binding.journal.inputDigest = job.inputBundleHash ∧
      sha256 (lengthFrame binding.artifact) = job.inputBundleHash ∧
      sha256 (job.inputBundleHash.val ++ resultBytes) = job.expectedResultHash := by
  obtain ⟨hframed,hjournal,hhash,-,-⟩ := bindCommittedArtifact_ok hbind
  simp only [AggregateJournal.journalHash,hpacked,Option.map_some,Option.some.injEq] at hhash
  simp only [aggregateJournal,bind_eq_ok,pure_eq_ok] at hjournal
  obtain ⟨reduction,-,heq⟩ := hjournal
  have hinput : binding.journal.inputDigest = job.inputBundleHash := by
    rw [← hframed,← heq]
  refine ⟨hinput,hframed,?_⟩
  rw [← hhash,← hinput]
  rfl

lemma spells_hookPayload (hbind : bindCommittedArtifact host job = .ok binding)
    (hpacked : binding.journal.committedOutputs = some resultBytes) :
    Spells (hookPayload run job binding resultBytes report)
      (runnerPayload run job binding resultBytes) := by
  obtain ⟨hinput,hframed,-⟩ := bound_digests hbind hpacked
  have hdigest : binding.journal.inputDigest = sha256 (lengthFrame binding.artifact) :=
    hinput.trans hframed.symm
  refine ⟨rfl,rfl,rfl,?_,rfl,rfl,?_⟩
  · change some (Json.str (Reducer.encodeHex binding.journal.inputDigest.val)) = _
    rw [hdigest]
    rfl
  · change some (Json.str (Reducer.encodeHex
      (journalHash binding.journal.inputDigest resultBytes).val)) = _
    rw [hdigest]
    rfl

/-- The execution of a request, as the runner knows it. -/
def bindingOf (job : Job) (binding : AggregateBinding) (resultBytes : Bytes)
    (executionId : String) : BonsolBinding where
  executionId := executionId
  imageId := job.requiredSoftwareDigest
  inputDigest := sha256 (lengthFrame binding.artifact)
  outputDigest := sha256 resultBytes
  journalHash := sha256 ((sha256 (lengthFrame binding.artifact)).val ++ resultBytes)
  committedOutputs := resultBytes

lemma packed_length (hbind : bindCommittedArtifact host job = .ok binding)
    (hpacked : binding.journal.committedOutputs = some resultBytes) :
    resultBytes.length = aggregateCommittedOutputsLen := by
  obtain ⟨-,hjournal,-⟩ := bindCommittedArtifact_ok hbind
  simp only [aggregateJournal,bind_eq_ok,pure_eq_ok] at hjournal
  obtain ⟨reduction,-,heq⟩ := hjournal
  rw [← heq] at hpacked
  exact committedOutputs_length hpacked

lemma executionId_fits {executionId : String} {padded : Bytes}
    (h : executionIdBytes executionId = .ok padded) :
    executionId.isEmpty = false ∧ (encode executionId).length ≤ maxExecutionIdBytes := by
  simp only [executionIdBytes,bind_eq_ok,failIf_eq_ok,pure_eq_ok,exists_const,not_or,not_lt] at h
  obtain ⟨⟨hne,hle⟩,-⟩ := h
  refine ⟨?_,hle⟩
  rw [← Bool.not_eq_true,String.isEmpty_iff]
  rintro rfl
  exact hne rfl

end Runner

lemma plain_printed (p : Payload) (executionId : String) : (printed p executionId).Plain :=
  ⟨by simp,trivial,trivial,trivial,trivial,trivial,trivial,trivial⟩

/-- What a hook prints for a payload that spells the reduction out passes every check of the
runner. -/
lemma accepted_of_done [CharData] {e : Environment} {find : FindProgramAddress} {turns : ℕ}
    {host : Runner} {run : RunManifest} {job : Job} {binding : AggregateBinding}
    {resultBytes : Bytes} {payload out : Json} {log : Log} {stdout : String}
    (hspells : Spells payload (runnerPayload run job binding resultBytes))
    (hbind : bindCommittedArtifact host job = .ok binding)
    (hpacked : binding.journal.committedOutputs = some resultBytes)
    (hreach : Reaches (transcript Op Ans) [] (main e find turns payload) log (.done out))
    (hload : Json.loads stdout.toList = some out) :
    ∃ execution p r padded, parseHookOutput stdout = .ok execution ∧
      checkBindingAgainstJob execution job binding.journal resultBytes = .ok () ∧
      Backed e find p r log ∧ r.executionId = execution.executionId ∧
      executionIdBytes r.executionId = .ok padded ∧
      r.instructionPrefix = recordAggregateVerificationRawIx :: (padded ++
        job.requiredSoftwareDigest.val ++ job.inputBundleHash.val ++ (sha256 resultBytes).val ++
        job.expectedResultHash.val) ∧
      markerPda find e.programId (keyText run.aggregateJob) padded job.requiredSoftwareDigest.val
        job.inputBundleHash.val job.expectedResultHash.val = some r.marker := by
  obtain ⟨p,hp,-,r,hbacked,rfl,-⟩ :=
    (Safe.reaches (main_holds e find turns _) hreach).outcome _ rfl
  obtain rfl := Except.ok.inj (hspells.read.symm.trans hp)
  obtain ⟨padded,hpadded,hcallback,hmarker⟩ := hbacked.carries.callback
  obtain ⟨hinput,hframed,hexpected⟩ := bound_digests hbind hpacked
  have hlength := packed_length hbind hpacked
  obtain ⟨hid,hshort⟩ := executionId_fits hpadded
  have hparse : parseHookOutput stdout =
      .ok (bindingOf job binding resultBytes r.executionId) := by
    refine parseHookOutput_loads _ hload hid hshort ?_ ?_ rfl rfl
    · rintro (rfl : resultBytes = [])
      cases hlength
    · change resultBytes.length ≤ _
      rw [hlength]
      decide
  have hjournal : (bindingOf job binding resultBytes r.executionId).journalHash =
      job.expectedResultHash := by
    rw [← hexpected,← hframed]
    rfl
  refine ⟨_,_,r,padded,hparse,?_,hbacked,rfl,hpadded,?_,?_⟩
  · exact checkBindingAgainstJob_eq_ok.mpr ⟨rfl,hframed.trans hinput.symm,hframed,rfl,hjournal⟩
  · rw [hcallback,← hframed,← hjournal]
    rfl
  · rw [← hmarker,← hframed,← hjournal]
    rfl

/-- The hook never refuses the payload of a runner that reduced the committed artifact. What it
prints passes every check of the runner, and the request it executed carries the digests the job was
opened with, to a marker of the job. -/
theorem hook_output_accepted [CharData] (e : Environment) (find : FindProgramAddress) (turns : ℕ)
    (host : Runner) (run : RunManifest) (job : Job) (binding : AggregateBinding)
    (resultBytes : Bytes) (report : Json) (hbind : bindCommittedArtifact host job = .ok binding)
    (hpacked : binding.journal.committedOutputs = some resultBytes) :
    (∃ p, readPayload (hookPayload run job binding resultBytes report) = .ok p ∧
      checkPayload p = .ok ()) ∧
    ∀ log out stdout,
      Reaches (transcript Op Ans) []
        (main e find turns (hookPayload run job binding resultBytes report)) log (.done out) →
      Json.loads stdout.toList = some out →
      ∃ execution p r padded, parseHookOutput stdout = .ok execution ∧
        checkBindingAgainstJob execution job binding.journal resultBytes = .ok () ∧
        Backed e find p r log ∧ r.executionId = execution.executionId ∧
        executionIdBytes r.executionId = .ok padded ∧
        r.instructionPrefix = recordAggregateVerificationRawIx :: (padded ++
          job.requiredSoftwareDigest.val ++ job.inputBundleHash.val ++ (sha256 resultBytes).val ++
          job.expectedResultHash.val) ∧
        markerPda find e.programId (keyText run.aggregateJob) padded job.requiredSoftwareDigest.val
          job.inputBundleHash.val job.expectedResultHash.val = some r.marker := by
  have hspells : Spells (hookPayload run job binding resultBytes report)
      (runnerPayload run job binding resultBytes) := spells_hookPayload hbind hpacked
  have hconsistent : (runnerPayload run job binding resultBytes).Consistent :=
    consistent_payloadOf _ _ _ _
  refine ⟨⟨_,hspells.read,checkPayload_eq_ok.mpr hconsistent⟩,?_⟩
  intro log out stdout hreach hload
  exact accepted_of_done hspells hbind hpacked hreach hload

theorem hook_output_accepted_sample :
    ∃ (_ : CharData) (artifact outputs : Bytes) (log : Log) (out : Json) (execution : BonsolBinding)
      (binding : AggregateBinding),
      Reaches (transcript Op Ans) [] (main plain (fun _ _ => some (natKey 5)) 0
        (hookPayload sampleManifest (sampleJob artifact outputs) binding outputs .null)) log
        (.done out) ∧
      parseHookOutput (String.ofList (Json.render out)) = .ok execution ∧
      checkBindingAgainstJob execution (sampleJob artifact outputs) binding.journal outputs =
        .ok () := by
  let tables := CharData.ascii
  obtain ⟨artifact,outputs,h⟩ : ∃ artifact outputs, Sample artifact outputs := ⟨_,_,sample_holds⟩
  have hbind := h.binds
  have hpacks := h.packs
  generalize samplePanel.cliReduction = reduction at hbind hpacks
  have hspells : Spells (hookPayload sampleManifest (sampleJob artifact outputs)
      ⟨artifact,⟨framedInputDigest artifact,reduction⟩⟩ outputs .null)
      (payloadOf (keyText (natKey 9)) sampleImage.val artifact outputs) :=
    spells_hookPayload hbind hpacks
  obtain ⟨log,hreach,-⟩ := plain_prints (natKey 9) sampleImage.val artifact outputs hspells
    sampleReply_url (by decide) rfl
  have hload := Json.loads_render (printed
    (payloadOf (keyText (natKey 9)) sampleImage.val artifact outputs)
    (executionIdAt (keyText (natKey 9)) 0)) (plain_printed _ _)
  obtain ⟨execution,-,-,-,hparse,hcheck,-⟩ := (hook_output_accepted plain _ 0 _ sampleManifest
    (sampleJob artifact outputs) _ outputs .null hbind hpacks).2 log _
    (String.ofList (Json.render _)) hreach (by rw [String.toList_ofList]; exact hload)
  exact ⟨tables,artifact,outputs,log,_,execution,_,hreach,hparse,hcheck⟩

end Kswarm.Proving
