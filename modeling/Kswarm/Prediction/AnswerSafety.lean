import Kswarm.Prediction.Honest
import Kswarm.Worker.ModelAnswers

/-! Model answers on the inputs `predict open` pins. The parser refuses an answer or returns values
that the rest of the run can always build, validate and encode, except where an integer in a
probability field is too wide for a binary64 number. -/
namespace Kswarm.Prediction
open Cli

/-- Values in range: basis points, ordered bounds, a committed label. -/
def InRange (labels : ℕ) : Worker.ParsedResponse → Prop
  | .scalar p => p.Checked
  | .categorical l => l < labels
  | .narrative p => p.scalarValueBps ≤ 10000 ∧ ∀ q ∈ p.narrativeScores, q.2 ≤ 10000

/-- The answer neither crashes nor corrupts the branch: it is refused as an invalid model output, or
it is parsed into values in range that every worker builds an output of and encodes. -/
def Harmless [CharData] (branchInput : Protocol.BranchInput) (labels : ℕ) (response : Json) : Prop :=
  (∃ e, Worker.parseModelResponse branchInput response = .error (.invalid e)) ∨
    ∃ p, Worker.parseModelResponse branchInput response = .ok p ∧ InRange labels p ∧
      ∀ (w : Worker.Host) (reference : Option Protocol.BranchOutput), ∃ output bytes,
        Worker.buildOutput w branchInput p reference = .ok output ∧
        Protocol.branchOutputResultBytes output.toOutputFields = .ok bytes

section Building
variable [CharData]

/-- An accepted answer to a pinned input is built and encoded by every worker. -/
lemma builds_and_encodes {o : OpenOptions} {r : RunShape} {i : ℕ} (hi : i < 2^32)
    {p : Worker.ParsedResponse} (hp : p.Checked (branchInput o r i)) (w : Worker.Host)
    (reference : Option Protocol.BranchOutput) :
    ∃ output bytes, Worker.buildOutput w (branchInput o r i) p reference = .ok output ∧
      Protocol.branchOutputResultBytes output.toOutputFields = .ok bytes := by
  obtain ⟨versionHash,hversion⟩ := llmVersionHash_exists w o r i
  let output : Protocol.BranchOutput := ⟨_,Worker.answerFields_valid w versionHash reference hp⟩
  have hbuilt : Worker.buildOutput w (branchInput o r i) p reference = .ok output :=
    Worker.buildOutput_eq_ok.mpr ⟨versionHash,hversion,rfl⟩
  have hindex : output.toOutputFields.branchIndex < 2^32 := by
    cases p <;> exact hi
  have hscores := Worker.finished_scores w versionHash reference hp "" none
  exact ⟨output,_,hbuilt,(Protocol.resultBytes_eq_ok output.valid.checked).mpr
    ⟨hindex,hscores,rfl⟩⟩

lemma Opened.inRange {h : OpenHost} {o : OpenOptions} {run : Run} {r : RunShape}
    (ho : Opened h o run r) {i : ℕ} {p : Worker.ParsedResponse}
    (hp : p.Checked (branchInput o r i)) : InRange (parsedLabels o.labels).length p := by
  cases p with
  | scalar p => exact hp.2
  | categorical l =>
    have hpos := List.length_pos_iff.mpr (ho.dictionary hp.1).1
    exact hp.2.2 _ (labelCount_branchInput o r i) hpos
  | narrative p => exact ⟨hp.2.1,hp.2.2.2.2⟩

/-- Every answer is harmless but the ones that overrun. -/
lemma Opened.harmless_iff {h : OpenHost} {o : OpenOptions} {run : Run} {r : RunShape}
    (ho : Opened h o run r) {i : ℕ} (hi : i < o.branches) (response : Json) :
    Harmless (branchInput o r i) (parsedLabels o.labels).length response ↔
      ¬Worker.Overruns r.outputKind response := by
  have hlabels := labelCount_branchInput o r i
  have hover : Worker.Overflows (Worker.Overruns r.outputKind response)
      (Worker.parseModelResponse (branchInput o r i) response) :=
    Worker.parseModelResponse_overflows (fun h => by rw [hlabels] at h; cases h.2.2)
  have hle := ho.branches_le
  constructor
  · intro hharmless hwide
    have hraise := hover.overflow.mpr hwide
    rcases hharmless with ⟨e,he⟩ | ⟨p,hp,-⟩
    · rw [hraise] at he
      cases he
    · rw [hraise] at hp
      cases hp
  · intro hfits
    cases hparse : Worker.parseModelResponse (branchInput o r i) response with
    | error e =>
      cases e with
      | invalid e => exact .inl ⟨e,hparse⟩
      | overflow => exact absurd (hover.overflow.mp hparse) hfits
      | noLength => exact absurd hparse hover.measured
    | ok p =>
      have hp := Worker.parseModelResponse_checked hparse
      exact .inr ⟨p,hparse,ho.inRange hp,builds_and_encodes (by omega) hp⟩

end Building

section Example

/-- A scalar question asked of one branch. -/
def scalarOptions : OpenOptions :=
  { voteOptions with
    outputKind := "scalar",combiner := "weighted-mean",labels := none,branches := 1 }

lemma scalar_opens : let _ := CharData.ascii
    ∃ run r, predictOpen sampleHost scalarOptions = .ok (run,r) ∧ r.outputKind = .scalar := by
  let _ := CharData.ascii
  obtain ⟨⟨run,r⟩,hopen⟩ := predictOpen_accepts (h := sampleHost) (o := scalarOptions)
    (by decide) (by simp [scalarOptions,voteOptions]) rfl rfl (by decide) rfl
    (by simp [scalarOptions,voteOptions]) (fun _ _ => ⟨_,rfl⟩)
  exact ⟨run,r,hopen,(Except.ok.inj (predictOpen_ok hopen).kind).symm⟩

/-- A model answer to a pinned input can do no harm exactly when it does not overrun. -/
theorem answer_harmless_iff [CharData] {h : OpenHost} {o : OpenOptions} {run : Run} {r : RunShape}
    (hopen : predictOpen h o = .ok (run,r)) {i : ℕ} (hi : i < o.branches) (response : Json) :
    Harmless (branchInput o r i) (parsedLabels o.labels).length response ↔
      ¬Worker.Overruns r.outputKind response :=
  (predictOpen_ok hopen).harmless_iff hi response

/-- An ordinary answer to the scalar question is harmless. -/
theorem half_harmless : let _ := CharData.ascii
    ∃ run r, predictOpen sampleHost scalarOptions = .ok (run,r) ∧ 0 < scalarOptions.branches ∧
      Harmless (branchInput scalarOptions r 0) (parsedLabels scalarOptions.labels).length
        (.obj [("scalar_value",.float (.finite false (1/2)))]) := by
  let _ := CharData.ascii
  obtain ⟨run,r,hopen,hkind⟩ := scalar_opens
  refine ⟨run,r,hopen,by decide,(answer_harmless_iff hopen (by decide) _).mpr ?_⟩
  rw [hkind]
  rintro ⟨-,name,raw,hfirst,hwide | ⟨-,hrest⟩⟩
  · obtain ⟨-,rfl⟩ := Prod.mk.inj (Option.some.inj (show some _ = some (name,raw) from hfirst))
    exact hwide
  · rcases hrest with ⟨v,hv,-⟩ | ⟨-,⟨v,hv,-⟩ | ⟨-,hnone⟩⟩
    · cases (show (none : Option Json) = some v from hv)
    · cases (show (none : Option Json) = some v from hv)
    · exact hnone

/-- The integer `10^400` as a probability crashes the branch. -/
theorem wide_integer_crashes : let _ := CharData.ascii
    ∃ run r, predictOpen sampleHost scalarOptions = .ok (run,r) ∧ 0 < scalarOptions.branches ∧
      ¬Harmless (branchInput scalarOptions r 0) (parsedLabels scalarOptions.labels).length
        (.obj [("scalar_value",.int (10^400))]) := by
  let _ := CharData.ascii
  obtain ⟨run,r,hopen,hkind⟩ := scalar_opens
  refine ⟨run,r,hopen,by decide,?_⟩
  rw [(predictOpen_ok hopen).harmless_iff (by decide),not_not,hkind]
  exact ⟨rfl,"scalar_value",.int (10^400),rfl,.inl (by unfold Worker.Wide; decide +kernel)⟩

end Example

end Kswarm.Prediction
