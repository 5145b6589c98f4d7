import Kswarm.Proving.Hook
import Kswarm.Settlement.Aggregate

/-! What the proof hook asks a Bonsol node to execute, over every conversation it can have with its
command lines, the input store and the file system. -/
namespace Kswarm.Proving

/-- What was asked and answered. -/
abbrev Log := List (Sigma Ans)

/-- The digests of the payload are those of its own bytes. -/
structure Payload.Consistent (p : Payload) : Prop where
  input : (sha256 (lengthFrame p.artifact)).val = p.inputDigest
  output : (sha256 p.committedOutputs).val = p.outputDigest
  journal : (sha256 (p.inputDigest ++ p.committedOutputs)).val = p.journalHash

lemma checkPayload_eq_ok {p : Payload} : checkPayload p = .ok () ↔ p.Consistent := by
  simp only [checkPayload,bind_eq_ok,failIf_eq_ok,exists_const,ne_eq,not_not]
  constructor
  · rintro ⟨hinput,houtput,hjournal⟩
    exact ⟨hinput,houtput,hjournal⟩
  · rintro ⟨hinput,houtput,hjournal⟩
    exact ⟨hinput,houtput,hjournal⟩

/-- The request carries the claim of the payload, in its digests and in what its callback gets. -/
structure Carries (e : Environment) (find : FindProgramAddress) (p : Payload)
    (r : ExecutionRequest) : Prop where
  imageId : r.imageId = p.imageId
  inputHash : r.inputHash = p.inputDigest
  programId : r.programId = e.programId
  aggregateJob : r.aggregateJob = p.aggregateJob
  callback : ∃ padded, executionIdBytes r.executionId = .ok padded ∧
    r.instructionPrefix = callbackPrefix p padded ∧
    markerPda find e.programId p.aggregateJob padded p.imageId p.inputDigest p.journalHash =
      some r.marker

/-- The input of a request is the framed artifact, or where the store said it is. -/
inductive Published (e : Environment) (p : Payload) (log : Log) : GuestInput → Prop
  | inlined (h : (lengthFrame p.artifact).length ≤ maxInlineInputBytes) :
    Published e p log (.publicData ("0x" ++ Reducer.encodeHex (lengthFrame p.artifact)))
  | served {answer : Json} {url : String} (hurl : answer.get "url" = some (.str url))
    (h : (⟨.publish e.publishUrl (lengthFrame p.artifact),.ok answer⟩ : Sigma Ans) ∈ log) :
    Published e p log (.publicUrl url)
  | pinned {api cid : String} (hstore : e.publishUrl.isEmpty = true)
    (h : (⟨.ipfsAdd api (lengthFrame p.artifact),.ok (some cid)⟩ : Sigma Ans) ∈ log) :
    Published e p log (.publicUrl (rstripSlash e.gatewayUrl ++ "/" ++ cid))

/-- An attempt at an execution. -/
abbrev attempted (e : Environment) (r : ExecutionRequest) (answer : Option Completed) :
    Sigma Ans :=
  ⟨.run (.execute (requestPath e r.executionId))
    ((Command.execute (requestPath e r.executionId)).argv e) (e.executeTimeout + 120),answer⟩

/-- The answer to an execution. -/
def execution : Sigma Ans → Option (Option Completed)
  | ⟨.run (.execute _) _ _,answer⟩ => some answer
  | _ => none

def executions (log : Log) : List (Option Completed) := log.filterMap execution

lemma executions_snoc {log : Log} {x : Sigma Ans} (h : execution x = none) :
    executions (log ++ [x]) = executions log := by
  simp [executions,List.filterMap_append,h]

lemma executions_execute (log : Log) (path : String) (argv : List String) (timeout : ℚ)
    (answer : Option Completed) :
    executions (log ++ [⟨.run (.execute path) argv timeout,answer⟩]) =
      executions log ++ [answer] := by
  simp [executions,List.filterMap_append,execution]

/-- The split of a longer log is a split of the log, or names its last entry. -/
lemma snoc_split {α : Type} {xs before after : List α} {x y : α}
    (h : xs ++ [x] = before ++ y::after) :
    (∃ rest, after = rest ++ [x] ∧ xs = before ++ y::rest) ∨ (before = xs ∧ y = x) := by
  rcases List.eq_nil_or_concat after with rfl | ⟨rest,z,rfl⟩
  · obtain ⟨hxs,hx⟩ := List.append_inj' h rfl
    exact .inr ⟨hxs.symm,(List.singleton_inj.mp hx).symm⟩
  · rw [List.concat_eq_append,← List.cons_append,← List.append_assoc] at h
    obtain ⟨hxs,hx⟩ := List.append_inj' h rfl
    obtain rfl := List.singleton_inj.mp hx
    exact .inl ⟨rest,List.concat_eq_append,hxs⟩

section Monotone
variable {e : Environment} {find : FindProgramAddress} {p : Payload} {r : ExecutionRequest}
  {log v : Log}

lemma Published.mono {input : GuestInput} (h : Published e p log input) (hsub : log ⊆ v) :
    Published e p v input := by
  cases h with
  | inlined h => exact .inlined h
  | served hurl h => exact .served hurl (hsub h)
  | pinned hstore h => exact .pinned hstore (hsub h)

/-- A deployment showed on chain. -/
def Deployed (e : Environment) (log : Log) : Prop :=
  ∃ c : Completed, shows deployedMarkers c.stdout = true ∧
    (⟨.run .deploy (Command.deploy.argv e) 600,some c⟩ : Sigma Ans) ∈ log

/-- The marker holds its rent. -/
def Funded (e : Environment) (marker : String) (log : Log) : Prop :=
  ∃ c : Completed, c.returncode = 0 ∧
    (⟨.run (.transfer marker) ((Command.transfer marker).argv e) 120,some c⟩ : Sigma Ans) ∈ log

lemma Deployed.mono (h : Deployed e log) (hsub : log ⊆ v) : Deployed e v := by
  obtain ⟨c,hc,hin⟩ := h
  exact ⟨c,hc,hsub hin⟩

lemma Funded.mono {marker : String} (h : Funded e marker log) (hsub : log ⊆ v) :
    Funded e marker v := by
  obtain ⟨c,hc,hin⟩ := h
  exact ⟨c,hc,hsub hin⟩

/-- Everything an execution needs has happened. -/
structure Backed (e : Environment) (find : FindProgramAddress) (p : Payload) (r : ExecutionRequest)
    (log : Log) : Prop where
  carries : Carries e find p r
  deployable : (⟨.readManifest e.manifest,
    some (some (.str (Reducer.encodeHex p.imageId)))⟩ : Sigma Ans) ∈ log
  published : Published e p log r.input
  funded : Funded e r.marker log
  deployed : Deployed e log
  written : (⟨.writeRequest (requestPath e r.executionId) r,true⟩ : Sigma Ans) ∈ log

lemma Backed.mono (h : Backed e find p r log) (hsub : log ⊆ v) : Backed e find p r v where
  carries := h.carries
  deployable := hsub h.deployable
  published := h.published.mono hsub
  funded := h.funded.mono hsub
  deployed := h.deployed.mono hsub
  written := hsub h.written

/-- The log has grown, and nothing more was executed. -/
structure Grown (log v : Log) : Prop where
  subset : log ⊆ v
  executions : executions v = executions log

lemma Grown.refl (log : Log) : Grown log log := ⟨fun _ h => h,rfl⟩

lemma Grown.trans {u : Log} (h : Grown log v) (h' : Grown v u) : Grown log u :=
  ⟨fun _ hx => h'.subset (h.subset hx),h'.executions.trans h.executions⟩

lemma Grown.snoc {x : Sigma Ans} (hx : execution x = none) : Grown log (log ++ [x]) :=
  ⟨List.subset_append_left _ _,executions_snoc hx⟩

end Monotone

section Runs
variable [CharData]

/-- The execution failed in the way that passes by itself. -/
def Retried (e : Environment) (answer : Option Completed) : Prop :=
  ∃ c, answer = some c ∧ c.returncode ≠ 0 ∧
    contains deploymentNotVisible (exitText e.bonsolCli c) = true

/-- What holds wherever the hook is stopped. -/
structure Sound (e : Environment) (find : FindProgramAddress) (payload : Json) (log : Log) :
    Prop where
  /-- Nothing is asked for a payload whose digests moved. -/
  checked : log ≠ [] → ∃ p, readPayload payload = .ok p ∧ p.Consistent
  /-- Only a backed request is executed. -/
  backed : ∀ before path argv timeout answer after,
    log = before ++ (⟨.run (.execute path) argv timeout,answer⟩ : Sigma Ans) :: after →
      ∃ p r, readPayload payload = .ok p ∧ Backed e find p r before ∧
        path = requestPath e r.executionId
  /-- The attempts are bounded. -/
  bounded : (executions log).length ≤ e.attempts.toNat
  /-- Every attempt but the last was one to try again. -/
  retried : ∀ answer ∈ (executions log).dropLast, Retried e answer

end Runs

section Runs
variable [CharData] {e : Environment} {find : FindProgramAddress} {payload : Json} {p : Payload}
  {r : ExecutionRequest} {log : Log} {x : Sigma Ans}

lemma sound_nil : Sound e find payload [] where
  checked h := absurd rfl h
  backed before path argv timeout answer after h := by simp at h
  bounded := Nat.zero_le _
  retried answer h := by simp [executions] at h

lemma Sound.snoc (h : Sound e find payload log) (hread : readPayload payload = .ok p)
    (hcheck : p.Consistent) (hx : execution x = none) :
    Sound e find payload (log ++ [x]) where
  checked _ := ⟨p,hread,hcheck⟩
  backed before path argv timeout answer after hsplit := by
    rcases snoc_split hsplit with ⟨rest,rfl,hlog⟩ | ⟨rfl,rfl⟩
    · exact h.backed _ _ _ _ _ _ hlog
    · simp [execution] at hx
  bounded := by
    rw [executions_snoc hx]
    exact h.bounded
  retried := by
    rw [executions_snoc hx]
    exact h.retried

lemma Sound.execute (h : Sound e find payload log) (hread : readPayload payload = .ok p)
    (hcheck : p.Consistent) (hbacked : Backed e find p r log)
    (hcount : (executions log).length + 1 ≤ e.attempts.toNat)
    (hretried : ∀ answer ∈ executions log, Retried e answer) {argv : List String} {timeout : ℚ}
    {answer : Option Completed} :
    Sound e find payload (log ++
      [⟨.run (.execute (requestPath e r.executionId)) argv timeout,answer⟩]) where
  checked _ := ⟨p,hread,hcheck⟩
  backed before path argv timeout answer after hsplit := by
    rcases snoc_split hsplit with ⟨rest,rfl,hlog⟩ | ⟨rfl,heq⟩
    · exact h.backed _ _ _ _ _ _ hlog
    · obtain ⟨hop,-⟩ := Sigma.mk.inj heq
      injection hop with hcommand _ _
      injection hcommand with hpath
      exact ⟨p,r,hread,hbacked,hpath⟩
  bounded := by
    rw [executions_execute,List.length_append]
    exact hcount
  retried := by
    rw [executions_execute,List.dropLast_concat]
    exact hretried

/-- From any stop the log is sound, and what the program returns is described by `Q`. -/
def Holds {α : Type} (e : Environment) (find : FindProgramAddress) (payload : Json) (f : Hook α)
    (log : Log) (Q : α → Log → Prop) : Prop :=
  Safe (transcript Op Ans) (Sound e find payload) (fun _ _ => True)
    (fun r v => ∀ a, r = .ok a → Q a v) f log

namespace Holds
variable {α β : Type} {Q : α → Log → Prop}

lemma done {a : α} (hlog : Sound e find payload log) (h : Q a log) :
    Holds e find payload (.done a) log Q := by
  apply Safe.sayDone hlog
  intro b hb
  cases hb
  exact h

lemma raise {f : Failure} (hlog : Sound e find payload log) :
    Holds e find payload (.raise f : Hook α) log Q :=
  Safe.sayRaise hlog (fun _ hb => nomatch hb)

lemma imp {f : Hook α} {R : α → Log → Prop} (h : Holds e find payload f log Q)
    (hQR : ∀ a v, Q a v → R a v) : Holds e find payload f log R :=
  Safe.weaken h (fun _ v _ hr a ha => hQR a v (hr a ha))

lemma bind {f : Hook α} {g : α → Hook β} {R : β → Log → Prop} (h : Holds e find payload f log Q)
    (hg : ∀ a v, Sound e find payload v → Q a v → Holds e find payload (g a) v R) :
    Holds e find payload (f >>= g) log R :=
  Safe.andThen h (fun a v hv hr => hg a v hv (hr a rfl)) (fun _ _ _ _ _ hb => nomatch hb)

lemma ask {o : Op} {f : Ans o → Hook α} (hlog : Sound e find payload log)
    (h : ∀ a, Holds e find payload (f a) (log ++ [⟨o,a⟩]) Q) :
    Holds e find payload (Proving.ask o >>= f) log Q := Safe.say hlog trivial h

lemma lift {x : Except Failure α} {f : α → Hook β} {R : β → Log → Prop}
    (hlog : Sound e find payload log) (h : ∀ a, x = .ok a → Holds e find payload (f a) log R) :
    Holds e find payload (Process.lift x >>= f) log R := by
  cases x with
  | ok a => exact h a rfl
  | error error => exact raise hlog

end Holds

lemma wrote_holds {α : Type} {Q : α → Log → Prop} {made : Bool} {f : Unit → Hook α}
    (hlog : Sound e find payload log) (h : made = true → Holds e find payload (f ()) log Q) :
    Holds e find payload (wrote made >>= f) log Q := by
  cases made with
  | true => exact h rfl
  | false => exact Holds.raise hlog

section Phases
variable (hread : readPayload payload = .ok p) (hcheck : p.Consistent)
include hread hcheck

lemma ask_holds {α : Type} {Q : α → Log → Prop} {o : Op} {f : Ans o → Hook α}
    (hlog : Sound e find payload log) (ho : ∀ a, execution ⟨o,a⟩ = none)
    (h : ∀ a, Sound e find payload (log ++ [⟨o,a⟩]) →
      Holds e find payload (f a) (log ++ [⟨o,a⟩]) Q) :
    Holds e find payload (Proving.ask o >>= f) log Q :=
  Holds.ask hlog (fun a => h a (hlog.snoc hread hcheck (ho a)))

lemma run_holds {command : Command} {timeout : ℚ} {allow : List String}
    (hlog : Sound e find payload log) (hc : ∀ path, command ≠ .execute path) :
    Holds e find payload (run e command timeout allow) log (fun out v =>
      ∃ c : Completed, c.stdout = out ∧ (c.returncode = 0 ∨ shows allow out = true) ∧
        Grown log v ∧ (⟨.run command (command.argv e) timeout,some c⟩ : Sigma Ans) ∈ v) := by
  have hquiet : ∀ a, execution ⟨.run command (command.argv e) timeout,a⟩ = none := by
    intro a
    cases command with
    | transfer marker => rfl
    | deploy => rfl
    | execute path => exact absurd rfl (hc path)
  unfold run
  apply ask_holds hread hcheck hlog hquiet
  intro completed hv
  cases completed with
  | none => exact Holds.raise hv
  | some c =>
    change Holds _ _ _ (if _ then _ else _) _ _
    split_ifs with hok
    · exact Holds.done hv ⟨c,rfl,hok,.snoc (hquiet _),
        List.mem_append_right _ (List.mem_singleton_self _)⟩
    · exact Holds.raise hv

lemma awaitDeployment_holds {deadline : ℚ} (turns : ℕ) (hlog : Sound e find payload log) :
    Holds e find payload (awaitDeployment e deadline turns) log
      (fun _ v => Grown log v ∧ Deployed e v) := by
  induction turns generalizing log with
  | zero => exact Holds.raise hlog
  | succ turns ih =>
    unfold awaitDeployment
    apply (run_holds hread hcheck hlog (by simp)).bind
    rintro _ v hv ⟨c,rfl,-,hgrown,hin⟩
    split_ifs with hshow
    · exact Holds.done hv ⟨hgrown,c,hshow,hin⟩
    · apply ask_holds hread hcheck hv (fun _ => rfl)
      intro now hv
      change Holds _ _ _ (if _ then _ else _) _ _
      split_ifs with hlate
      · exact Holds.raise hv
      · apply ask_holds hread hcheck hv (fun _ => rfl)
        intro _ hv
        apply (ih hv).imp
        rintro _ u ⟨hu,hdeployed⟩
        exact ⟨hgrown.trans ((Grown.snoc rfl).trans ((Grown.snoc rfl).trans hu)),hdeployed⟩

lemma deployImage_holds (turns : ℕ) (hlog : Sound e find payload log) :
    Holds e find payload (deployImage e turns) log (fun _ v => Grown log v ∧ Deployed e v) := by
  unfold deployImage
  apply (run_holds hread hcheck hlog (by simp)).bind
  rintro _ v hv ⟨c,rfl,-,hgrown,hin⟩
  split_ifs with hshow
  · exact Holds.done hv ⟨hgrown,c,hshow,hin⟩
  · apply ask_holds hread hcheck hv (fun _ => rfl)
    intro now hv
    apply (awaitDeployment_holds hread hcheck turns hv).imp
    rintro _ u ⟨hu,hdeployed⟩
    exact ⟨hgrown.trans ((Grown.snoc rfl).trans hu),hdeployed⟩

lemma publishGuestInput_holds (hlog : Sound e find payload log) :
    Holds e find payload (publishGuestInput e (lengthFrame p.artifact)) log
      (fun input v => Grown log v ∧ Published e p v input) := by
  unfold publishGuestInput
  split_ifs with hshort hurl
  · exact Holds.done hlog ⟨.refl log,.inlined hshort⟩
  · unfold httpPublish
    apply Holds.bind (Q := fun url v => Grown log v ∧ Published e p v (.publicUrl url))
    · apply ask_holds hread hcheck hlog (fun _ => rfl)
      intro answer hv
      cases answer with
      | error error => exact Holds.raise hv
      | ok answer =>
        change Holds _ _ _ (if _ then _ else _) _ _
        split_ifs with hobj
        · exact Holds.raise hv
        · split
          · rename_i url hget
            split_ifs with hempty
            · exact Holds.raise hv
            · exact Holds.done hv ⟨.snoc rfl,
                .served hget (List.mem_append_right _ (List.mem_singleton_self _))⟩
          · exact Holds.raise hv
    · intro url v hv hpublished
      exact Holds.done hv hpublished
  · have hstore : e.publishUrl.isEmpty = true := Bool.not_eq_false _ ▸ hurl
    unfold ipfsAdd
    apply Holds.bind (Q := fun cid v => Grown log v ∧
      Published e p v (.publicUrl (rstripSlash e.gatewayUrl ++ "/" ++ cid)))
    · apply ask_holds hread hcheck hlog (fun _ => rfl)
      intro answer hv
      cases answer with
      | error error => exact Holds.raise hv
      | ok added =>
        cases added with
        | none => exact Holds.raise hv
        | some cid =>
          exact Holds.done hv ⟨.snoc rfl,
            .pinned hstore (List.mem_append_right _ (List.mem_singleton_self _))⟩
    · intro cid v hv hpublished
      exact Holds.done hv hpublished

/-- The attempts execute one backed request, and only the last of them may succeed. -/
lemma tryExecute_holds (n : ℕ) (hlog : Sound e find payload log) (hbacked : Backed e find p r log)
    (hcount : (executions log).length + n ≤ e.attempts.toNat)
    (hretried : ∀ answer ∈ executions log, Retried e answer) :
    Holds e find payload (tryExecute e (requestPath e r.executionId) n) log (fun _ v =>
      Backed e find p r v ∧
        ∃ c : Completed, c.returncode = 0 ∧ (executions v).getLast? = some (some c)) := by
  induction n generalizing log with
  | zero => exact Holds.raise hlog
  | succ n ih =>
    apply Safe.recover
    apply Safe.say hlog trivial
    intro answer
    have hv : Sound e find payload (log ++ [attempted e r answer]) :=
      hlog.execute hread hcheck hbacked (by omega) hretried
    have hlast : executions (log ++ [attempted e r answer]) = executions log ++ [answer] :=
      executions_execute _ _ _ _ _
    have hbacked' : Backed e find p r (log ++ [attempted e r answer]) :=
      hbacked.mono (List.subset_append_left _ _)
    cases answer with
    | none => exact Safe.sayRaise hv (Holds.raise hv)
    | some c =>
      change Safe _ _ _ _ (if _ then _ else _) _
      split_ifs with hok
      · apply Safe.sayDone hv
        intro output _
        have hzero : c.returncode = 0 := hok.resolve_right (by simp [shows])
        exact ⟨hbacked',c,hzero,by rw [hlast,List.getLast?_concat]⟩
      · have hcode : c.returncode ≠ 0 := fun h0 => hok (.inl h0)
        apply Safe.sayRaise hv
        change Holds _ _ _ (if _ then _ else _) _ _
        split_ifs with hstop
        · exact Holds.raise hv
        · rw [not_or,Bool.not_eq_false] at hstop
          have hretry : Retried e (some c) := ⟨c,rfl,hcode,hstop.1⟩
          have hsleep : executions (log ++ [attempted e r (some c)] ++
              [⟨.sleep e.retrySeconds,()⟩]) = executions log ++ [some c] :=
            (executions_snoc rfl).trans hlast
          apply ask_holds hread hcheck hv (fun _ => rfl)
          intro _ hu
          refine ih hu (hbacked'.mono (List.subset_append_left _ _)) ?_ ?_
          · rw [hsleep,List.length_append,List.length_singleton]
            omega
          · rw [hsleep]
            intro a ha
            rcases List.mem_append.mp ha with ha | ha
            · exact hretried a ha
            · rw [List.mem_singleton.mp ha]
              exact hretry

lemma executeRequest_holds (hlog : Sound e find payload log) (hbacked : Backed e find p r log)
    (hnone : executions log = []) :
    Holds e find payload (executeRequest e (requestPath e r.executionId)) log (fun _ v =>
      Backed e find p r v ∧
        ∃ c : Completed, c.returncode = 0 ∧ (executions v).getLast? = some (some c)) := by
  apply tryExecute_holds hread hcheck e.attempts.toNat hlog hbacked
  · rw [hnone,List.length_nil,Nat.zero_add]
  · rw [hnone]
    exact fun _ ha => absurd ha List.not_mem_nil

/-- The hook has finished: it prints the claim of the request whose last execution succeeded. -/
def Finished (e : Environment) (find : FindProgramAddress) (p : Payload) (out : Json) (log : Log) :
    Prop :=
  ∃ r, Backed e find p r log ∧ out = printed p r.executionId ∧
    ∃ c : Completed, c.returncode = 0 ∧ (executions log).getLast? = some (some c)

lemma prove_holds {turns : ℕ} {guestInput : GuestInput} (hlog : Sound e find payload log)
    (hnone : executions log = [])
    (hmanifest : (⟨.readManifest e.manifest,
      some (some (.str (Reducer.encodeHex p.imageId)))⟩ : Sigma Ans) ∈ log)
    (hpublished : Published e p log guestInput) :
    Holds e find payload (prove e find turns p guestInput) log (Finished e find p) := by
  unfold prove
  apply ask_holds hread hcheck hlog (fun _ => rfl)
  intro now hv
  dsimp only
  generalize hid : executionIdBytes (executionIdAt p.aggregateJob now) = id
  apply Holds.lift hv
  rintro padded rfl
  generalize hfind : markerPda find e.programId p.aggregateJob padded p.imageId p.inputDigest
    p.journalHash = found
  apply Holds.lift hv
  intro marker hmarker
  rw [require_eq_ok] at hmarker
  apply (run_holds hread hcheck hv (by simp)).bind
  rintro output u hu ⟨funding,-,hpaid,hgrown,hfunded⟩
  have hzero : funding.returncode = 0 := hpaid.resolve_right (by simp [shows])
  have hfund : Funded e marker u := ⟨funding,hzero,hfunded⟩
  apply (deployImage_holds hread hcheck turns hu).bind
  rintro _ w hw ⟨hgrown',hdeployed⟩
  have hsince := ((Grown.snoc rfl).trans hgrown).trans hgrown'
  apply ask_holds hread hcheck hw (fun _ => rfl)
  intro requested hx
  apply wrote_holds hx
  rintro rfl
  apply ask_holds hread hcheck hx (fun _ => rfl)
  intro stored hy
  apply wrote_holds hy
  rintro rfl
  let r := executionRequest e p (executionIdAt p.aggregateJob now) padded guestInput marker
  have hthen : Grown w (w ++ [⟨.writeRequest (requestPath e r.executionId) r,true⟩] ++
      [⟨.writeInput (inputPath e r.executionId) p.artifact,true⟩]) :=
    (Grown.snoc rfl).trans (Grown.snoc rfl)
  have hbacked : Backed e find p r (w ++ [⟨.writeRequest (requestPath e r.executionId) r,true⟩] ++
      [⟨.writeInput (inputPath e r.executionId) p.artifact,true⟩]) := {
    carries := ⟨rfl,rfl,rfl,rfl,padded,hid,rfl,hfind.trans hmarker⟩
    deployable := hthen.subset (hsince.subset hmanifest)
    published := hpublished.mono (hsince.trans hthen).subset
    funded := (hfund.mono hgrown'.subset).mono hthen.subset
    deployed := hdeployed.mono hthen.subset
    written := List.mem_append_left _ (List.mem_append_right _ (List.mem_singleton_self _)) }
  have hquiet := (hsince.trans hthen).executions.trans hnone
  apply (executeRequest_holds hread hcheck hy hbacked hquiet).bind
  rintro output x hx ⟨hbacked',c,hc,hlast⟩
  apply ask_holds hread hcheck hx (fun _ => rfl)
  intro logged hz
  apply wrote_holds hz
  rintro rfl
  refine Holds.done hz ⟨_,hbacked'.mono (List.subset_append_left _ _),rfl,c,hc,?_⟩
  rw [executions_snoc rfl]
  exact hlast

end Phases

lemma main_holds (e : Environment) (find : FindProgramAddress) (turns : ℕ) (payload : Json) :
    Holds e find payload (main e find turns payload) [] (fun out log =>
      ∃ p, readPayload payload = .ok p ∧ p.Consistent ∧ Finished e find p out log) := by
  unfold main
  apply Holds.lift sound_nil
  intro p hread
  apply Holds.lift sound_nil
  rintro ⟨⟩ hcheck
  rw [checkPayload_eq_ok] at hcheck
  apply ask_holds hread hcheck sound_nil (fun _ => rfl)
  intro made hv
  apply wrote_holds hv
  rintro rfl
  apply ask_holds hread hcheck hv (fun _ => rfl)
  intro manifest hw
  apply Holds.lift hw
  rintro ⟨⟩ hmanifest
  apply (publishGuestInput_holds hread hcheck hw).bind
  rintro guestInput u hu ⟨hgrown,hpublished⟩
  have hnone : executions u = [] := hgrown.executions.trans rfl
  have hdeployable : manifest = some (some (.str (Reducer.encodeHex p.imageId))) := by
    simp only [checkManifest,bind_eq_ok,require_eq_ok] at hmanifest
    obtain ⟨_,rfl,deployed,rfl,hcase⟩ := hmanifest
    cases deployed with
    | str image =>
      rw [failIf_eq_ok,not_not] at hcase
      rw [hcase]
    | _ => cases hcase
  subst hdeployable
  apply (prove_holds hread hcheck hu hnone
    (hgrown.subset (List.mem_append_right _ (List.mem_singleton_self _))) hpublished).imp
  intro out log hfinished
  exact ⟨p,hread,hcheck,hfinished⟩

end Runs

section Finishing

lemma lift_ok {α β : Type} {a : α} {f : α → Hook β} : Process.lift (.ok a) >>= f = f a := rfl

variable [CharData]

/-- An environment in which every command line works at once, and says so. -/
structure Smooth (e : Environment) (find : FindProgramAddress) (p : Payload) (padded : Bytes)
    (marker : String) : Prop where
  attempts : 0 < e.attempts
  inlined : (lengthFrame p.artifact).length ≤ maxInlineInputBytes ∨ e.publishUrl.isEmpty = false
  hasId : executionIdBytes (executionIdAt p.aggregateJob 0) = .ok padded
  hasMarker : markerPda find e.programId p.aggregateJob padded p.imageId p.inputDigest
    p.journalHash = some marker

/-- The store answered with this reply whatever it was handed of a payload. -/
def Stored (p : Payload) (reply : Json) (log : Log) : Prop :=
  ∀ url framed answer, (⟨.publish url framed,answer⟩ : Sigma Ans) ∈ log →
    framed = lengthFrame p.artifact ∧ answer = .ok reply

/-- The run ends with the claim printed, after an execution, and with one reply of the store. -/
abbrev Prints (p : Payload) (reply : Json) (f : Hook Json) (out : Json) (log : Log) : Prop :=
  Possible (transcript Op Ans)
    (fun v q => q = .done out ∧ Stored p reply v ∧ executions v ≠ []) log f

lemma prove_prints {e : Environment} {find : FindProgramAddress} {p : Payload} {padded : Bytes}
    {marker : String} {reply : Json} {log : Log} (turns : ℕ) (h : Smooth e find p padded marker)
    (input : GuestInput) (hlog : Stored p reply log) :
    Prints p reply (prove e find turns p input) (printed p (executionIdAt p.aggregateJob 0))
      log := by
  obtain ⟨n,hn⟩ : ∃ n, e.attempts.toNat = n+1 := ⟨e.attempts.toNat-1,by have := h.attempts; omega⟩
  unfold prove
  refine Possible.step (o := Op.clock) (a := (0 : ℚ)) rfl ?_
  rw [show ∀ f : ℚ → Hook Json, (Process.done (0 : ℚ)).bind f = f 0 from fun _ => rfl]
  dsimp only
  rw [h.hasId,lift_ok,h.hasMarker,require,lift_ok]
  refine Possible.step (a := some ⟨0,"already deployed"⟩) rfl ?_
  refine Possible.step (a := some ⟨0,"already deployed"⟩) rfl ?_
  refine Possible.step (o := Op.writeRequest _ _) (a := true) rfl ?_
  refine Possible.step (o := Op.writeInput _ _) (a := true) rfl ?_
  change Possible _ _ _ (executeRequest e _ >>= _)
  rw [executeRequest,hn]
  refine Possible.step (o := Op.run (.execute _) _ _) (a := some ⟨0,"proved"⟩) rfl ?_
  refine Possible.step (o := Op.writeLog _ _) (a := true) rfl ?_
  refine .here ⟨rfl,?_,?_⟩
  · intro url framed answer hin
    exact hlog url framed answer (by simpa using hin)
  · rw [executions_snoc rfl,executions_execute]
    simp

/-- From a working environment the hook gets to its end. -/
lemma main_prints {e : Environment} {find : FindProgramAddress} {payload : Json} {p : Payload}
    {padded : Bytes} {marker url : String} {reply : Json} (turns : ℕ)
    (hread : readPayload payload = .ok p) (hcheck : p.Consistent)
    (h : Smooth e find p padded marker) (hreply : reply.get "url" = some (.str url))
    (hurl : url.isEmpty = false) (hobj : reply.isObj = true) :
    Prints p reply (main e find turns payload) (printed p (executionIdAt p.aggregateJob 0)) [] := by
  have hmanifest :
      checkManifest e p (some (some (.str (Reducer.encodeHex p.imageId)))) = .ok () := by
    simp only [checkManifest,bind_eq_ok,require_eq_ok,Option.some.injEq,exists_eq_left',
      failIf_eq_ok,not_not]
  unfold main
  rw [hread,lift_ok,checkPayload_eq_ok.mpr hcheck,lift_ok]
  refine Possible.step (o := Op.makeDir _) (a := true) rfl ?_
  refine Possible.step (o := Op.readManifest _)
    (a := some (some (.str (Reducer.encodeHex p.imageId)))) rfl ?_
  change Possible _ _ _ (Process.lift _ >>= _)
  rw [hmanifest,lift_ok,publishGuestInput]
  by_cases hshort : (lengthFrame p.artifact).length ≤ maxInlineInputBytes
  · rw [if_pos hshort]
    refine prove_prints turns h _ ?_
    intro url framed answer hin
    simp at hin
  · rw [if_neg hshort,if_pos (h.inlined.resolve_left hshort)]
    refine Possible.step (o := Op.publish _ _) (a := .ok reply) rfl ?_
    change Possible _ _ _ (((if _ then _ else _ : Hook String) >>= _) >>= _)
    rw [hobj,hreply]
    change Possible _ _ _ (((if url.isEmpty = true then _ else pure url : Hook String) >>= _) >>= _)
    rw [if_neg (by rw [hurl]; decide)]
    refine prove_prints turns h _ ?_
    intro url' framed answer hin
    simp only [List.nil_append,List.cons_append,List.mem_cons,List.not_mem_nil,or_false] at hin
    rcases hin with hin | hin | hin
    · simp at hin
    · simp at hin
    · obtain ⟨hop,hanswer⟩ := Sigma.mk.inj hin
      obtain ⟨rfl,rfl⟩ := Op.publish.inj hop
      exact ⟨rfl,eq_of_heq hanswer⟩

end Finishing

/-- The document names the payload. -/
structure Spells (payload : Json) (p : Payload) : Prop where
  aggregateJob : payload.get "aggregate_job" = some (.str p.aggregateJob)
  imageId : payload.get "image_id" = some (.str (Reducer.encodeHex p.imageId))
  artifact : payload.get "input_artifact_hex" = some (.str (Reducer.encodeHex p.artifact))
  inputDigest : payload.get "input_digest" = some (.str (Reducer.encodeHex p.inputDigest))
  committedOutputs :
    payload.get "committed_outputs" = some (.str (Reducer.encodeHex p.committedOutputs))
  outputDigest : payload.get "output_digest" = some (.str (Reducer.encodeHex p.outputDigest))
  journalHash : payload.get "journal_hash" = some (.str (Reducer.encodeHex p.journalHash))

lemma payloadHex_encodeHex {payload : Json} {field : String} {bytes : Bytes}
    (h : payload.get field = some (.str (Reducer.encodeHex bytes))) :
    payloadHex payload field = .ok bytes := by
  rw [payloadHex,h]
  exact require_eq_ok.mpr (Mirror.fromhex_encodeHex bytes)

/-- A payload that is spelled out is read back. -/
lemma Spells.read [CharData] {payload : Json} {p : Payload} (h : Spells payload p) :
    readPayload payload = .ok p := by
  simp only [readPayload,h.aggregateJob,require,ok_bind,payloadHex_encodeHex h.imageId,
    payloadHex_encodeHex h.artifact,payloadHex_encodeHex h.inputDigest,
    payloadHex_encodeHex h.committedOutputs,payloadHex_encodeHex h.outputDigest,
    payloadHex_encodeHex h.journalHash]
  rfl

/-- A payload over an artifact and outputs, with the digests they have. -/
def payloadOf (aggregateJob : String) (imageId artifact committedOutputs : Bytes) : Payload where
  aggregateJob := aggregateJob
  imageId := imageId
  artifact := artifact
  inputDigest := (sha256 (lengthFrame artifact)).val
  committedOutputs := committedOutputs
  outputDigest := (sha256 committedOutputs).val
  journalHash := (sha256 ((sha256 (lengthFrame artifact)).val ++ committedOutputs)).val

lemma consistent_payloadOf (aggregateJob : String) (imageId artifact committedOutputs : Bytes) :
    (payloadOf aggregateJob imageId artifact committedOutputs).Consistent := ⟨rfl,rfl,rfl⟩

def Payload.toJson (p : Payload) : Json := .obj [
  ("aggregate_job",.str p.aggregateJob),
  ("image_id",.str (Reducer.encodeHex p.imageId)),
  ("input_artifact_hex",.str (Reducer.encodeHex p.artifact)),
  ("input_digest",.str (Reducer.encodeHex p.inputDigest)),
  ("committed_outputs",.str (Reducer.encodeHex p.committedOutputs)),
  ("output_digest",.str (Reducer.encodeHex p.outputDigest)),
  ("journal_hash",.str (Reducer.encodeHex p.journalHash))]

lemma spells_toJson (p : Payload) : Spells p.toJson p := ⟨rfl,rfl,rfl,rfl,rfl,rfl,rfl⟩

lemma base58Char_ascii (d : ℕ) : (base58Char d).toNat < 128 := by
  have hall : base58Alphabet.all (fun c => decide (c.toNat < 128)) = true := by decide
  rw [List.all_eq_true] at hall
  rw [base58Char,List.getD_eq_getElem?_getD]
  cases hd : base58Alphabet[d]? with
  | none => decide
  | some c => exact of_decide_eq_true (hall c (List.mem_of_getElem? hd))

lemma keyText_ascii (k : Digest) : ∀ c ∈ (keyText k).toList, c.toNat < 128 := by
  intro c hc
  rw [keyText,String.toList_ofList] at hc
  rcases List.mem_append.mp hc with hc | hc
  · rw [List.eq_of_mem_replicate hc]
    decide
  · obtain ⟨d,-,rfl⟩ := List.mem_map.mp hc
    exact base58Char_ascii d

/-- A job key and a time of up to nineteen digits make an execution id. -/
lemma executionIdBytes_keyText (k : Digest) (now : ℚ)
    (hnow : (utf8 (wholeText now).toList).length ≤ 19) :
    ∃ padded, executionIdBytes (executionIdAt (keyText k) now) = .ok padded := by
  have hjob : (utf8 ((keyText k).toList.take 8)).length ≤ 8 := by
    rw [utf8_length_ascii (fun c hc => keyText_ascii k c (List.mem_of_mem_take hc))]
    exact List.length_take_le _ _
  have hraw : utf8 (executionIdAt (keyText k) now).toList =
      utf8 "agg-".toList ++ utf8 ((keyText k).toList.take 8) ++ utf8 "-".toList ++
        utf8 (wholeText now).toList := by
    simp only [executionIdAt,String.toList_append,String.toList_ofList,utf8_append]
  have hagg : (utf8 "agg-".toList).length = 4 := by decide
  have hdash : (utf8 "-".toList).length = 1 := by decide
  have hlen := congrArg List.length hraw
  simp only [List.length_append,hagg,hdash] at hlen
  refine ⟨_,bind_eq_ok.mpr ⟨(),failIf_of_not ?_,rfl⟩⟩
  rw [not_or,executionIdMaxBytes]
  refine ⟨fun hnil => ?_,by omega⟩
  rw [hnil,List.length_nil] at hlen
  omega

/-- Wherever the hook is stopped, each execution it asked for was of a written request that carries
the digests of the payload, those are the digests of the payload's own bytes, and the request's
marker was funded, its guest deployed and its input published before. It tries again only what
passes by itself, so often as it may, and what it prints is the claim its last execution proved. -/
theorem hook_executes_only_its_claim [CharData] (e : Environment) (find : FindProgramAddress)
    (turns : ℕ) (payload : Json) (log : Log) (f : Hook Json)
    (h : Reaches (transcript Op Ans) [] (main e find turns payload) log f) :
    Sound e find payload log ∧ ∀ out, f = .done out →
      ∃ p, readPayload payload = .ok p ∧ p.Consistent ∧ Finished e find p out log := by
  have hsafe := Safe.reaches (main_holds e find turns payload) h
  refine ⟨hsafe.invariant,?_⟩
  rintro out rfl
  exact hsafe.outcome out rfl

/-- An environment with a store of its own. -/
def plain : Environment where
  publishUrl := "http://127.0.0.1:38099/input"
  programId := keyText (natKey 1)
  bonsolCli := "bonsol"
  solanaCli := "solana"
  keypair := "client-keypair.json"
  manifest := "manifest.json"
  workDir := "work"
  containerPath := id

/-- There the hook prints the claim of every job. -/
lemma plain_prints [CharData] (k : Digest) (imageId artifact committedOutputs : Bytes)
    {payload reply : Json} {url : String}
    (h : Spells payload (payloadOf (keyText k) imageId artifact committedOutputs))
    (hreply : reply.get "url" = some (.str url)) (hurl : url.isEmpty = false)
    (hobj : reply.isObj = true) :
    ∃ log, Reaches (transcript Op Ans) [] (main plain (fun _ _ => some (natKey 5)) 0 payload) log
      (.done (printed (payloadOf (keyText k) imageId artifact committedOutputs)
        (executionIdAt (keyText k) 0))) ∧
      Stored (payloadOf (keyText k) imageId artifact committedOutputs) reply log ∧
      executions log ≠ [] := by
  have hzero : wholeText 0 = "0" := by
    simp [wholeText,decimalInt]
    rfl
  obtain ⟨padded,hpadded⟩ := executionIdBytes_keyText k 0 (by rw [hzero]; decide)
  have hsmooth : Smooth plain (fun _ _ => some (natKey 5))
      (payloadOf (keyText k) imageId artifact committedOutputs) padded (keyText (natKey 5)) := {
    attempts := by decide
    inlined := .inr rfl
    hasId := hpadded
    hasMarker := by
      change (readKey (keyText k) >>= fun _ => readKey (keyText (natKey 1)) >>= _) = _
      rw [readKey_keyText,readKey_keyText]
      rfl }
  obtain ⟨log,f,hreach,rfl,hprinted⟩ :=
    main_prints 0 h.read (consistent_payloadOf _ _ _ _) hsmooth hreply hurl hobj
  exact ⟨log,hreach,hprinted⟩

/-- A reply of a store. -/
def sampleReply : Json := .obj [("url",.str "http://127.0.0.1:38099/input/0")]

lemma sampleReply_url :
    sampleReply.get "url" = some (.str "http://127.0.0.1:38099/input/0") := rfl

/-- The hook proves the printed panel, at the theorem. -/
theorem hook_executes_panel :
    ∃ (_ : CharData) (log : Log) (out : Json),
      Reaches (transcript Op Ans) [] (main plain (fun _ _ => some (natKey 5)) 0
        (payloadOf (keyText (natKey 9)) Settlement.sampleImage.val Settlement.sampleArtifact
          Settlement.sampleOutputs).toJson) log (.done out) ∧
      Sound plain (fun _ _ => some (natKey 5))
        (payloadOf (keyText (natKey 9)) Settlement.sampleImage.val Settlement.sampleArtifact
          Settlement.sampleOutputs).toJson log ∧
      ∃ p, p.Consistent ∧ Finished plain (fun _ _ => some (natKey 5)) p out log ∧
        executions log ≠ [] := by
  generalize Settlement.sampleArtifact = artifact
  generalize Settlement.sampleOutputs = outputs
  let tables := CharData.ascii
  obtain ⟨log,hreach,-,hexecuted⟩ := plain_prints (natKey 9) Settlement.sampleImage.val artifact
    outputs (spells_toJson _) sampleReply_url (by decide) rfl
  obtain ⟨hsound,hdone⟩ := hook_executes_only_its_claim _ _ _ _ _ _ hreach
  obtain ⟨p',-,hconsistent,hfinished⟩ := hdone _ rfl
  exact ⟨tables,log,_,hreach,hsound,p',hconsistent,hfinished,hexecuted⟩

end Kswarm.Proving
