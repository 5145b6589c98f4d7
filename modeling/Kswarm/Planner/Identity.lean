import Kswarm.Planner.Plan
import Kswarm.Lib.Collision

/-! The ids of planned jobs. An id is a digest over fields that leave out the position of the
template, so the jobs of a plan have ids of their own exactly when no two branches agree in the
fields that an execution id is taken of. -/
namespace Kswarm.Planner
open JsValue

/-- The 128 bits of the digest that a `childJobId` spells. -/
def prefix128 (text : List Char) : Bytes := (sha256 (utf8 text)).val.take 16

lemma digestText_eq (text : List Char) :
    digestText text = utf16 ((prefix128 text).flatMap Reducer.hexPair) := by
  rw [digestText,prefix128,← Reducer.take_hexPairs 16]

/-- Equal ids are equal digest prefixes. -/
lemma digestText_eq_iff {a b : List Char} : digestText a = digestText b ↔ prefix128 a = prefix128 b := by
  rw [digestText_eq,digestText_eq]
  constructor
  · intro h
    exact Reducer.hexPairs_injective (utf16_injective h)
  · intro h
    rw [h]

section Sorted

lemma sortKeys_requirements (zkvm : Option CodeUnits) :
    (requirementsValue zkvm).sortKeys = requirementsValue zkvm := by
  cases zkvm with
  | none => rfl
  | some d =>
    have hle : keyLe "programDigest" "required" := by decide
    simp only [requirementsValue,sortKeys,sortFields,List.insertionSort_cons,List.insertionSort_nil,
      List.orderedInsert_nil,List.orderedInsert_cons,if_pos hle]

lemma sortKeys_execution (parentRequestId : CodeUnits) (branch : Branch) :
    (executionValue parentRequestId branch).sortKeys = executionValue parentRequestId branch := by
  simp only [executionValue,sortKeys,sortFields,sortKeys_requirements]
  rw [List.Pairwise.insertionSort_eq]
  simp only [List.pairwise_cons,List.forall_mem_cons,List.not_mem_nil,List.Pairwise.nil]
  exact ⟨⟨by decide,by decide,by decide,by decide,by simp⟩,⟨by decide,by decide,by decide,by simp⟩,
    ⟨by decide,by decide,by simp⟩,⟨by decide,by simp⟩,by simp⟩

lemma sortKeys_verification (parentRequestId branchKey targetChildJobId : CodeUnits) :
    (verificationValue parentRequestId branchKey targetChildJobId).sortKeys =
      verificationValue parentRequestId branchKey targetChildJobId := by
  simp only [verificationValue,sortKeys,sortFields]
  rw [List.Pairwise.insertionSort_eq]
  simp only [List.pairwise_cons,List.forall_mem_cons,List.not_mem_nil,List.Pairwise.nil]
  exact ⟨⟨by decide,by decide,by decide,by simp⟩,⟨by decide,by decide,by simp⟩,
    ⟨by decide,by simp⟩,by simp⟩

lemma sortElems_texts (ids : List CodeUnits) : sortElems (ids.map .text) = ids.map .text := by
  induction ids with
  | nil => rfl
  | cons i ids ih =>
    rw [List.map_cons,sortElems,ih]
    rfl

lemma sortKeys_aggregate (parentRequestId : CodeUnits) (ids : List CodeUnits) :
    (aggregateValue parentRequestId ids).sortKeys = .obj [
      ("childJobIds",.arr (ids.map .text)),
      ("kind",.text (js "aggregate")),
      ("parentRequestId",.text parentRequestId)] := by
  have h1 : ¬keyLe "parentRequestId" "childJobIds" := by decide
  have h2 : ¬keyLe "kind" "childJobIds" := by decide
  have h3 : keyLe "kind" "parentRequestId" := by decide
  simp only [aggregateValue,sortKeys,sortFields,sortElems_texts,List.insertionSort_cons,
    List.insertionSort_nil,List.orderedInsert_nil,List.orderedInsert_cons,if_neg h1,if_neg h2,
    if_pos h3]

end Sorted

/-- What an execution id depends on beside the request. -/
def identity (branch : Branch) : CodeUnits × Option CodeUnits × CodeUnits :=
  (branch.branchKey,buildProofRequirements branch,branch.scenarioLabel)

/-- The jobs' ids in the order of the plan, the aggregate's last. -/
def SwarmPlan.childJobIds (plan : SwarmPlan) : List CodeUnits :=
  plan.childJobs.map ChildJob.childJobId ++ [plan.aggregateChildJob.childJobId]

namespace ParentRequest
variable (parent : ParentRequest)

def identities : List (CodeUnits × Option CodeUnits × CodeUnits) := parent.branches.map identity

/-! The canonical texts that the ids of a plan are digests of. -/

def executionText (branch : Branch) : List Char :=
  (executionValue parent.parentRequestId branch).canonicalJson

def verificationText (branch : Branch) : List Char :=
  (verificationValue parent.parentRequestId branch.branchKey
    (digestText (parent.executionText branch))).canonicalJson

def branchTexts (branch : Branch) : List (List Char) :=
  parent.executionText branch ::
    if branch.verificationMode = js "replicated-rerun" then [parent.verificationText branch] else []

def childTexts : List (List Char) := parent.branches.flatMap parent.branchTexts

def aggregateText : List Char :=
  (aggregateValue parent.parentRequestId (parent.childTexts.map digestText)).canonicalJson

def hashed : List (List Char) := parent.childTexts ++ [parent.aggregateText]

variable {parent}

lemma branchJobs_ids (branch : Branch) :
    (branchJobs parent branch).map ChildJob.childJobId =
      (parent.branchTexts branch).map digestText := by
  unfold branchJobs branchTexts
  split_ifs with h
  · rfl
  · rfl

lemma childJobs_ids : (parent.branches.flatMap (branchJobs parent)).map ChildJob.childJobId =
    parent.childTexts.map digestText := by
  rw [childTexts,List.map_flatMap,List.map_flatMap]
  exact congrArg (parent.branches.flatMap ·) (funext branchJobs_ids)

lemma executionText_eq_iff {a b : Branch} :
    parent.executionText a = parent.executionText b ↔ identity a = identity b := by
  constructor
  · intro h
    have hv := canonicalJson_inj h
    rw [sortKeys_execution,sortKeys_execution] at hv
    simp only [executionValue,JsValue.obj.injEq,List.cons.injEq,Prod.mk.injEq,JsValue.text.injEq,
      true_and,and_true] at hv
    obtain ⟨hkey,hreq,hlabel⟩ := hv
    refine Prod.ext hkey (Prod.ext ?_ hlabel)
    change buildProofRequirements a = buildProofRequirements b
    revert hreq
    cases buildProofRequirements a <;> cases buildProofRequirements b <;> simp [requirementsValue]
  · intro h
    obtain ⟨hkey,hrest⟩ := Prod.mk.inj h
    obtain ⟨hreq,hlabel⟩ := Prod.mk.inj hrest
    rw [executionText,executionText,executionValue,executionValue,hkey,hreq,hlabel]

/-- A verification text names its target. -/
lemma target_of_verificationText {a b : Branch}
    (h : parent.verificationText a = parent.verificationText b) :
    digestText (parent.executionText a) = digestText (parent.executionText b) := by
  have hv := canonicalJson_inj h
  rw [sortKeys_verification,sortKeys_verification] at hv
  simp only [verificationValue,JsValue.obj.injEq,List.cons.injEq,Prod.mk.injEq,JsValue.text.injEq,
    true_and,and_true] at hv
  exact hv.2

lemma executionText_ne_verificationText (a b : Branch) :
    parent.executionText a ≠ parent.verificationText b := by
  intro h
  have hv := canonicalJson_inj h
  rw [sortKeys_execution,sortKeys_verification] at hv
  simp [executionValue,verificationValue] at hv

lemma mem_branchTexts {branch : Branch} {text : List Char} (h : text ∈ parent.branchTexts branch) :
    text = parent.executionText branch ∨ text = parent.verificationText branch := by
  unfold branchTexts at h
  rcases List.mem_cons.mp h with rfl | h
  · exact .inl rfl
  · split_ifs at h with hmode
    · exact .inr (List.mem_singleton.mp h)
    · exact absurd h List.not_mem_nil

lemma executionText_mem (branch : Branch) : parent.executionText branch ∈ parent.branchTexts branch :=
  List.mem_cons_self

lemma aggregateText_not_mem : parent.aggregateText ∉ parent.childTexts := by
  intro h
  obtain ⟨branch,-,h⟩ := List.mem_flatMap.mp h
  rcases mem_branchTexts h with h | h
  · have hv := canonicalJson_inj h
    rw [sortKeys_aggregate,sortKeys_execution] at hv
    simp [executionValue] at hv
  · have hv := canonicalJson_inj h
    rw [sortKeys_aggregate,sortKeys_verification] at hv
    simp [verificationValue] at hv

lemma branchTexts_nodup (branch : Branch) : (parent.branchTexts branch).Nodup := by
  unfold branchTexts
  split_ifs with h
  · simpa using executionText_ne_verificationText branch branch
  · exact List.nodup_singleton _

lemma hashed_subset {branch : Branch} (h : branch ∈ parent.branches) :
    parent.executionText branch ∈ parent.hashed :=
  List.mem_append_left _ (List.mem_flatMap.mpr ⟨branch,h,executionText_mem branch⟩)

/-- Branches of different identities share no text unless two execution ids collide. -/
lemma branchTexts_disjoint (hc : ¬Collision prefix128 parent.hashed) {a b : Branch}
    (ha : a ∈ parent.branches) (hb : b ∈ parent.branches) (hne : identity a ≠ identity b) :
    List.Disjoint (parent.branchTexts a) (parent.branchTexts b) := by
  intro text hta htb
  rcases mem_branchTexts hta with rfl | rfl <;> rcases mem_branchTexts htb with h | h
  · exact hne (executionText_eq_iff.mp h)
  · exact executionText_ne_verificationText a b h
  · exact executionText_ne_verificationText b a h.symm
  · have hprefix := digestText_eq_iff.mp (target_of_verificationText h)
    rcases eq_or_collision (hashed_subset ha) (hashed_subset hb) hprefix with he | he
    · exact hne (executionText_eq_iff.mp he)
    · exact hc he

lemma identities_nodup_of_hashed (h : parent.hashed.Nodup) : parent.identities.Nodup := by
  have hchild := (List.nodup_append.mp h).1
  obtain ⟨-,hpairs⟩ := List.nodup_flatMap.mp hchild
  rw [identities,List.Nodup,List.pairwise_map]
  refine hpairs.imp (fun {a b} hdisjoint he => ?_)
  refine hdisjoint (executionText_mem a) ?_
  rw [executionText_eq_iff.mpr he]
  exact executionText_mem b

lemma hashed_nodup (hc : ¬Collision prefix128 parent.hashed) (h : parent.identities.Nodup) :
    parent.hashed.Nodup := by
  rw [identities,List.Nodup,List.pairwise_map] at h
  have hchild : parent.childTexts.Nodup := by
    refine List.nodup_flatMap.mpr ⟨fun branch _ => branchTexts_nodup branch,?_⟩
    exact h.imp_of_mem (fun ha hb hne => branchTexts_disjoint hc ha hb hne)
  refine hchild.append (List.nodup_singleton _) ?_
  exact List.disjoint_singleton.mpr aggregateText_not_mem

end ParentRequest

/-- The ids of a plan are the digests of its texts. -/
lemma childJobIds_of_expand {parent : ParentRequest} {plan : SwarmPlan}
    (h : expandParentIntoChildJobs parent = .ok plan) :
    plan.childJobIds = parent.hashed.map digestText := by
  simp only [expandParentIntoChildJobs,bind_eq_ok,failIf_eq_ok,pure_eq_ok,exists_and_left,
    exists_const] at h
  obtain ⟨-,rfl⟩ := h
  change (parent.branches.flatMap (branchJobs parent)).map ChildJob.childJobId ++ [digestText
    (aggregateValue _ ((parent.branches.flatMap (branchJobs parent)).map
      ChildJob.childJobId)).canonicalJson] = _
  rw [ParentRequest.childJobs_ids,ParentRequest.hashed,List.map_append]
  rfl

def Template.keyed (branchKey : Option CodeUnits) : Template where
  branchKey := branchKey
  deterministicReducer := none
  highValue := none
  requiredStakeMultiplier := none
  scenarioLabel := none
  verificationMode := none
  zkvmProgramDigest := none

/-- A request of two templates, with the keys they give. -/
def Request.ofKeys (first second : Option CodeUnits) : Request where
  aggregateZkvmProgramDigest := none
  branchPlanName := js "default-branch-plan-v1"
  branchTemplates := some [.keyed first,.keyed second]
  inputCid := some (js "i")
  inputHash := some (js "h")
  parentRequestId := some (js "p")
  rewardBudget := .one
  simulationObjective := none
  verificationPolicy := js "proofs-plus-challenge"
  sized := by
    intro templates h
    obtain rfl := Option.some.inj h
    exact Nat.lt_of_lt_of_le (Nat.lt_succ_self 2) (by decide)

lemma identities_nodup_of_childJobIds {parent : ParentRequest} {plan : SwarmPlan}
    (h : expandParentIntoChildJobs parent = .ok plan) (hn : plan.childJobIds.Nodup) :
    parent.identities.Nodup := by
  rw [childJobIds_of_expand h] at hn
  exact ParentRequest.identities_nodup_of_hashed (hn.of_map digestText)

lemma childJobIds_nodup {parent : ParentRequest} {plan : SwarmPlan}
    (h : expandParentIntoChildJobs parent = .ok plan) (hc : ¬Collision prefix128 parent.hashed)
    (hn : parent.identities.Nodup) : plan.childJobIds.Nodup := by
  rw [childJobIds_of_expand h]
  refine (ParentRequest.hashed_nodup hc hn).map_on (fun a ha b hb he => ?_)
  exact (eq_or_collision ha hb (digestText_eq_iff.mp he)).resolve_right hc

/-- The ids of a plan are pairwise distinct exactly when no two branches have one identity, up to a
collision among the texts of the plan. -/
theorem childJobIds_distinct_iff {r : Request} {parent : ParentRequest}
    (h : buildParentSwarmRequest r = .ok parent) :
    ∃ plan, expandParentIntoChildJobs parent = .ok plan ∧
      plan.childJobIds = parent.hashed.map digestText ∧
      (plan.childJobIds.Nodup → parent.identities.Nodup) ∧
      (plan.childJobIds.Nodup ∨ Collision prefix128 parent.hashed ↔
        parent.identities.Nodup ∨ Collision prefix128 parent.hashed) := by
  have hplan := expand_of_build h
  refine ⟨_,hplan,childJobIds_of_expand hplan,identities_nodup_of_childJobIds hplan,?_⟩
  constructor
  · exact Or.imp_left (identities_nodup_of_childJobIds hplan)
  · intro hn
    by_cases hc : Collision prefix128 parent.hashed
    · exact .inr hc
    · exact .inl (childJobIds_nodup hplan hc (hn.resolve_right hc))

theorem childJobIds_distinct_ab :
    ∃ parent plan, buildParentSwarmRequest (.ofKeys (some (js "a")) (some (js "b"))) = .ok parent ∧
      expandParentIntoChildJobs parent = .ok plan ∧
      (plan.childJobIds.Nodup ∨ Collision prefix128 parent.hashed) := by
  obtain ⟨plan,hplan,-,-,hiff⟩ :=
    childJobIds_distinct_iff (r := .ofKeys (some (js "a")) (some (js "b"))) rfl
  refine ⟨_,plan,rfl,hplan,hiff.mpr (.inl ?_)⟩
  decide

/-- A key that names the second position, and a second template without a key. -/
theorem childJobIds_shared :
    ∃ parent plan, buildParentSwarmRequest (.ofKeys (some (js "branch-2")) none) = .ok parent ∧
      expandParentIntoChildJobs parent = .ok plan ∧
      ¬(plan.childJobIds.Nodup ∨ Collision prefix128 parent.hashed) := by
  have hparent : buildParentSwarmRequest (.ofKeys (some (js "branch-2")) none) = .ok _ := rfl
  have hplan := expand_of_build hparent
  refine ⟨_,_,hparent,hplan,?_⟩
  rintro (hn | hc)
  · exact absurd (identities_nodup_of_childJobIds hplan hn) (by decide)
  · -- both branches have the first text, and the aggregate's has another digest
    obtain ⟨-,heq⟩ := collision_pair.mp (hc.mono (List.cons_subset.mpr
      ⟨List.mem_cons_self,List.Subset.refl _⟩))
    revert heq
    decide +kernel

end Kswarm.Planner
