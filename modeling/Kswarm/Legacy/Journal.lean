import Kswarm.Legacy.Score
import Kswarm.Lib.JsonRoundTrip

/-! The outputs the legacy reducer commits behind its input digest, as the guest writes them and as
the command line and the binding checks predict them. -/
namespace Kswarm.Legacy

def committedOutputsLen : ℕ := 32 + 4 + 4 + scoreFeltLen

/-- What a legacy journal commits to. -/
structure Fields where
  branchKey : String
  childJobId : String
  parentRequestId : String
  scoreHex : String
  lineCount : UInt32
  wordCount : UInt32
  deriving DecidableEq

namespace Guest

/-- The bytes whose SHA-256 is the `reducer_digest`. -/
def reducerCanonicalBytes (branchKey childJobId parentRequestId scoreHex : String)
    (lineCount wordCount : UInt32) : Bytes :=
  utf8 (branchKey.toList ++ '|' :: (childJobId.toList ++ '|' :: (parentRequestId.toList ++ '|' ::
    (scoreHex.toList ++ '|' :: (decimal lineCount.toNat ++ '|' :: decimal wordCount.toNat)))))

/-- The guest journal without its leading 32-byte input digest. -/
def committedOutputs (reducerDigest : Digest) (lineCount wordCount : UInt32) (score : Bytes) :
    Bytes :=
  reducerDigest.val ++ leBytes 4 lineCount.toNat ++ leBytes 4 wordCount.toNat ++ score

/-- The guest on the fields it has read; a refused score aborts it. -/
def outputs (f : Fields) : Except ScoreHexError Bytes := do
  let score ← decodeScoreFelt f.scoreHex
  let canonical := reducerCanonicalBytes f.branchKey f.childJobId f.parentRequestId f.scoreHex
    f.lineCount f.wordCount
  pure (committedOutputs (sha256 canonical) f.lineCount f.wordCount score)

end Guest

namespace Python

/-- `field if isinstance(field, str) else ""`. -/
def jsonStr (value : Json) (key : String) : String :=
  match value.get key with
  | some (.str s) => s
  | _ => ""

def u32Mask : ℕ := 0xFFFFFFFF
def u64Max : ℤ := 0xFFFFFFFFFFFFFFFF

def jsonU32 (value : Json) (key : String) : ℕ :=
  match value.get key with
  | some (.int n) => if n < 0 ∨ u64Max < n then 0 else n.toNat &&& u32Mask
  | _ => 0

def rawScore (value : Json) : Option String :=
  match value.get "score_hex" with
  | some (.str s) => some s
  | _ => none

/-- The guest journal minus its leading input digest. `score_hex` is the one field without a
default. -/
def reducerCommittedOutputs (loads : Bytes → Option Json) (inputJson : Bytes) :
    Except Raised Bytes := do
  let value ← require (loads inputJson) .notJson
  failIf (value.isObj = false) (.message "reducer input must be a JSON object")
  let branchKey := jsonStr value "branch_key"
  let childJobId := jsonStr value "child_job_id"
  let parentRequestId := jsonStr value "parent_request_id"
  let lineCount := jsonU32 value "line_count"
  let wordCount := jsonU32 value "word_count"
  let raw ← require (rawScore value)
    (.message "score_hex must be a string of 64 lowercase hex digits")
  let score ← decodeScoreFelt (codePointsOf raw.toList)
  let canonical := branchKey.toList ++ '|' :: (childJobId.toList ++ '|' ::
    (parentRequestId.toList ++ '|' :: (raw.toList ++ '|' ::
      (decimal lineCount ++ '|' :: decimal wordCount))))
  let outputs := (sha256 (utf8 canonical)).val ++ leBytes 4 lineCount ++ leBytes 4 wordCount ++
    score
  failIf (outputs.length ≠ committedOutputsLen) .assertion
  pure outputs

end Python

namespace Node

/-- The argument object. An argument that is not there is one without fields. -/
structure Argument where
  branchKey : Value
  childJobId : Value
  parentRequestId : Value
  scoreHex : Value
  lineCount : Value
  wordCount : Value
  deriving DecidableEq

/-- The integer a number value is. -/
def Value.toNat : Value → ℕ
  | .number (.finite _ mag) => mag.num
  | _ => 0

/-- `Number.isInteger(value)` within `[0, U32_MAX]`; minus zero is not below zero. -/
def Value.isU32 : Value → Bool
  | .number (.finite neg mag) =>
    decide (mag.den = 1) && (!neg || decide (mag = 0)) && decide (mag ≤ 0xffffffff)
  | _ => false

def requireU32 (value : Value) (label : String) : Except ProofBindingError ℕ := do
  failIf (value.isU32 = false) ⟨label ++ " must be an integer in [0, 2^32)"⟩
  pure value.toNat

def u32LittleEndian (value : ℕ) : Bytes := leBytes 4 value

/-- `Buffer.from(text, "utf8")`. -/
def bufferFromUtf8 (text : CodeUnits) : Bytes := utf8 (scalars text)

/-- `parts.join("|")`. -/
def joinBar (parts : List CodeUnits) : CodeUnits := List.intercalate (utf16 ['|']) parts

def bonsolReducerCanonicalBytes (fields : Argument) : Except ProofBindingError Bytes := do
  let branchKey ← requireString fields.branchKey "branch_key"
  let childJobId ← requireString fields.childJobId "child_job_id"
  let parentRequestId ← requireString fields.parentRequestId "parent_request_id"
  let scoreHex ← requireString fields.scoreHex "score_hex"
  let lineCount ← requireU32 fields.lineCount "line_count"
  let wordCount ← requireU32 fields.wordCount "word_count"
  pure (bufferFromUtf8 (joinBar [branchKey,childJobId,parentRequestId,scoreHex,
    utf16 (decimal lineCount),utf16 (decimal wordCount)]))

def bonsolCommittedOutputs (fields : Argument) : Except ProofBindingError Bytes := do
  let score ← decodeScoreFelt fields.scoreHex "score_hex"
  let canonical ← bonsolReducerCanonicalBytes fields
  let outputs := (sha256 canonical).val ++ u32LittleEndian fields.lineCount.toNat ++
    u32LittleEndian fields.wordCount.toNat ++ score
  failIf (outputs.length ≠ committedOutputsLen) ⟨"committed outputs have the wrong length"⟩
  pure outputs

end Node

/-- A decoder accepts the texts of the scores, as its language spells a text, and no two of them
alike. -/
structure Decodes {α ε : Type} (spell : List Char → α) (decode : α → Except ε Bytes) : Prop where
  accepts : ∀ text bytes, decode text = .ok bytes ↔
    ∃ digits, text = spell digits ∧ IsScore digits ∧ bytes = pairBytes digits
  injective : ∀ text text' bytes, decode text = .ok bytes → decode text' = .ok bytes → text = text'

lemma decodes_of_spells {α ε : Type} {spell : List Char → α} {decode : α → Except ε Bytes}
    (h : ∀ text bytes, decode text = .ok bytes ↔
      ∃ digits, text = spell digits ∧ Spells digits bytes) : Decodes spell decode := by
  constructor
  · intro text bytes
    simp only [h,spells_iff]
  · intro text text' bytes ht ht'
    obtain ⟨digits,rfl,hs⟩ := (h text bytes).mp ht
    obtain ⟨digits',rfl,hs'⟩ := (h text' bytes).mp ht'
    rw [hs.1,hs'.1]

/-- The text the digest is taken of. -/
def canonicalText (f : Fields) : List Char :=
  f.branchKey.toList ++ '|' :: (f.childJobId.toList ++ '|' :: (f.parentRequestId.toList ++ '|' ::
    (f.scoreHex.toList ++ '|' ::
      (decimal f.lineCount.toNat ++ '|' :: decimal f.wordCount.toNat))))

/-- The outputs that commit to the fields with a decoded score. -/
def outputsOf (f : Fields) (score : Bytes) : Bytes :=
  (sha256 (utf8 (canonicalText f))).val ++ leBytes 4 f.lineCount.toNat ++
    leBytes 4 f.wordCount.toNat ++ score

lemma outputsOf_length (f : Fields) {score : Bytes} (h : score.length = scoreFeltLen) :
    (outputsOf f score).length = committedOutputsLen := by
  have hdigest := (sha256 (utf8 (canonicalText f))).property
  simp only [outputsOf,List.length_append,leBytes_length,hdigest,h]
  rfl

lemma Guest.outputs_eq_ok (f : Fields) {score : Bytes} (h : Spells f.scoreHex.toList score) :
    Guest.outputs f = .ok (outputsOf f score) := by
  rw [Guest.outputs,Guest.decodeScoreFelt_eq_ok.mpr h]
  rfl

/-- The document names the fields. -/
structure Names (value : Json) (f : Fields) : Prop where
  branchKey : value.get "branch_key" = some (.str f.branchKey)
  childJobId : value.get "child_job_id" = some (.str f.childJobId)
  parentRequestId : value.get "parent_request_id" = some (.str f.parentRequestId)
  scoreHex : value.get "score_hex" = some (.str f.scoreHex)
  lineCount : value.get "line_count" = some (.int f.lineCount.toNat)
  wordCount : value.get "word_count" = some (.int f.wordCount.toNat)

namespace Python

lemma jsonStr_eq {value : Json} {key s : String} (h : value.get key = some (.str s)) :
    jsonStr value key = s := by rw [jsonStr,h]

lemma jsonU32_eq {value : Json} {key : String} {n : UInt32}
    (h : value.get key = some (.int n.toNat)) : jsonU32 value key = n.toNat := by
  have hlt := n.toNat_lt
  have hrange : ¬((n.toNat : ℤ) < 0 ∨ u64Max < (n.toNat : ℤ)) := by
    rw [u64Max]
    omega
  rw [jsonU32,h]
  simp only [if_neg hrange,Int.toNat_natCast]
  rw [show u32Mask = 2^32-1 from rfl,Nat.and_two_pow_sub_one_eq_mod]
  exact Nat.mod_eq_of_lt hlt

lemma isObj_of_get {value v : Json} {key : String} (h : value.get key = some v) :
    value.isObj = true := by
  cases value with
  | obj fs => rfl
  | _ => cases h

lemma reducerCommittedOutputs_eq_ok {loads : Bytes → Option Json} {input : Bytes} {value : Json}
    {f : Fields} {score : Bytes} (hload : loads input = some value) (hf : Names value f)
    (h : Spells f.scoreHex.toList score) :
    reducerCommittedOutputs loads input = .ok (outputsOf f score) := by
  have hraw : rawScore value = some f.scoreHex := by rw [rawScore,hf.scoreHex]
  have hdecode : decodeScoreFelt (codePointsOf f.scoreHex.toList) = .ok score :=
    decodeScoreFelt_eq_ok.mpr ⟨_,rfl,h⟩
  have hlen := outputsOf_length f h.2.1
  simp only [reducerCommittedOutputs,hload,require,ok_bind,hraw,hdecode,isObj_of_get hf.branchKey,
    jsonStr_eq hf.branchKey,jsonStr_eq hf.childJobId,jsonStr_eq hf.parentRequestId,
    jsonU32_eq hf.lineCount,jsonU32_eq hf.wordCount]
  change (failIf (true = false) _ >>= fun _ => failIf ((outputsOf f score).length ≠ _) _ >>=
    fun _ => pure (outputsOf f score)) = _
  rw [failIf_of_not (by decide),ok_bind,failIf_of_not (not_not.mpr hlen)]
  rfl

end Python

/-- The fields as a document. -/
def Fields.document (f : Fields) : Json := .obj [
  ("branch_key",.str f.branchKey),
  ("child_job_id",.str f.childJobId),
  ("parent_request_id",.str f.parentRequestId),
  ("score_hex",.str f.scoreHex),
  ("line_count",.int f.lineCount.toNat),
  ("word_count",.int f.wordCount.toNat)]

lemma names_document (f : Fields) : Names f.document f where
  branchKey := rfl
  childJobId := rfl
  parentRequestId := rfl
  scoreHex := rfl
  lineCount := rfl
  wordCount := rfl

lemma plain_document (f : Fields) : f.document.Plain := by
  refine ⟨?_,trivial,trivial,trivial,trivial,trivial,trivial,trivial⟩
  simp only [List.map_cons,List.map_nil]
  decide

/-- The fields as an argument object. -/
def Fields.argument (f : Fields) : Node.Argument where
  branchKey := .text (utf16 f.branchKey.toList)
  childJobId := .text (utf16 f.childJobId.toList)
  parentRequestId := .text (utf16 f.parentRequestId.toList)
  scoreHex := .text (utf16 f.scoreHex.toList)
  lineCount := .number (.finite false f.lineCount.toNat)
  wordCount := .number (.finite false f.wordCount.toNat)

namespace Node

lemma requireU32_natCast (n : UInt32) (label : String) :
    requireU32 (.number (.finite false n.toNat)) label = .ok n.toNat := by
  have hle : ((n.toNat : ℕ) : ℚ≥0) ≤ 0xffffffff := by
    have hlt := n.toNat_lt
    have hcast : ((n.toNat : ℕ) : ℚ) ≤ ((0xffffffff : ℕ) : ℚ) := Nat.cast_le.mpr (by omega)
    exact NNRat.coe_le_coe.mp (by simpa using hcast)
  have hu : (Value.number (.finite false n.toNat)).isU32 = true := by
    rw [Value.isU32,decide_eq_true hle]
    simp
  rw [requireU32,failIf_of_not (by rw [hu]; decide)]
  simp [ok_bind,Value.toNat,pure,Except.pure]

lemma joinBar_utf16 (parts : List (List Char)) :
    joinBar (parts.map utf16) = utf16 (List.intercalate ['|'] parts) := by
  unfold joinBar
  induction parts with
  | nil => rfl
  | cons part parts ih =>
    cases parts with
    | nil => simp [List.intercalate]
    | cons next parts =>
      rw [List.map_cons] at ih
      rw [List.map_cons,List.map_cons,List.intercalate_cons_cons,List.intercalate_cons_cons,
        utf16_append,utf16_append,ih]

lemma bonsolCommittedOutputs_eq_ok (f : Fields) {score : Bytes}
    (h : Spells f.scoreHex.toList score) :
    bonsolCommittedOutputs f.argument = .ok (outputsOf f score) := by
  have hdecode : decodeScoreFelt f.argument.scoreHex "score_hex" = .ok score :=
    decodeScoreFelt_eq_ok.mpr ⟨_,rfl,h⟩
  have hjoin := joinBar_utf16 [f.branchKey.toList,f.childJobId.toList,f.parentRequestId.toList,
    f.scoreHex.toList,decimal f.lineCount.toNat,decimal f.wordCount.toNat]
  have htext : List.intercalate ['|'] [f.branchKey.toList,f.childJobId.toList,
      f.parentRequestId.toList,f.scoreHex.toList,decimal f.lineCount.toNat,
      decimal f.wordCount.toNat] = canonicalText f := by
    simp [List.intercalate,canonicalText]
  have hcanonical : bonsolReducerCanonicalBytes f.argument = .ok (utf8 (canonicalText f)) := by
    simp only [bonsolReducerCanonicalBytes,Fields.argument,requireString,ok_bind,
      requireU32_natCast]
    simp only [List.map_cons,List.map_nil] at hjoin
    rw [hjoin,htext,bufferFromUtf8,scalars_utf16]
    rfl
  have hlen := outputsOf_length f h.2.1
  rw [bonsolCommittedOutputs,hdecode,hcanonical]
  simp only [ok_bind]
  have hline : f.argument.lineCount.toNat = f.lineCount.toNat := by
    simp [Fields.argument,Value.toNat]
  have hword : f.argument.wordCount.toNat = f.wordCount.toNat := by
    simp [Fields.argument,Value.toNat]
  rw [hline,hword]
  change (failIf ((outputsOf f score).length ≠ _) _ >>= fun _ => pure (outputsOf f score)) = _
  rw [failIf_of_not (not_not.mpr hlen)]
  rfl

end Node

/-- The number one as a score. -/
def scoreOne : List Char := '0' :: '1' :: List.replicate 62 '0'

lemma isScore_one : IsScore scoreOne where
  length := by decide
  lower := List.forall_mem_cons.mpr ⟨by decide,List.forall_mem_cons.mpr ⟨by decide,
    fun c hc => List.eq_of_mem_replicate hc ▸ by decide⟩⟩
  reduced := by decide

/-- The fields of one branch. -/
def baseline : Fields where
  branchKey := "baseline"
  childJobId := "child-baseline-1"
  parentRequestId := "request-1"
  scoreHex := String.ofList scoreOne
  lineCount := 3
  wordCount := 15

/-- One journal in three languages: the same scores with the same bytes, and the same outputs for
the same fields. -/
theorem legacyJournal_agrees :
    Decodes String.ofList Guest.decodeScoreFelt ∧
    Decodes codePointsOf Python.decodeScoreFelt ∧
    (∀ label, Decodes (fun digits => .text (utf16 digits))
      (fun scoreHex => Node.decodeScoreFelt scoreHex label)) ∧
    ∀ f : Fields, IsScore f.scoreHex.toList →
      ∃ outputs : Bytes, outputs.length = 72 ∧ Guest.outputs f = .ok outputs ∧
        (∀ (loads : Bytes → Option Json) (input : Bytes) (value : Json),
          loads input = some value → Names value f →
            Python.reducerCommittedOutputs loads input = .ok outputs) ∧
        Node.bonsolCommittedOutputs f.argument = .ok outputs := by
  refine ⟨decodes_of_spells ?_,decodes_of_spells (fun _ _ => Python.decodeScoreFelt_eq_ok),
    fun label => decodes_of_spells (fun _ _ => Node.decodeScoreFelt_eq_ok),?_⟩
  · intro text bytes
    rw [Guest.decodeScoreFelt_eq_ok]
    constructor
    · intro h
      exact ⟨text.toList,(String.ofList_toList).symm,h⟩
    · rintro ⟨digits,rfl,h⟩
      rwa [String.toList_ofList]
  · intro f hscore
    have h : Spells f.scoreHex.toList (pairBytes f.scoreHex.toList) := spells_iff.mpr ⟨hscore,rfl⟩
    refine ⟨_,outputsOf_length f h.2.1,Guest.outputs_eq_ok f h,?_,
      Node.bonsolCommittedOutputs_eq_ok f h⟩
    intro loads input value hload hnames
    exact Python.reducerCommittedOutputs_eq_ok hload hnames h

theorem legacyJournal_agrees_baseline :
    ∃ outputs : Bytes, outputs.length = 72 ∧ Guest.outputs baseline = .ok outputs ∧
      Python.reducerCommittedOutputs (fun input => (decodeUtf8 input).bind Json.loads)
        (utf8 (Json.render baseline.document)) = .ok outputs ∧
      Node.bonsolCommittedOutputs baseline.argument = .ok outputs := by
  have hscore : IsScore baseline.scoreHex.toList := by
    rw [baseline,String.toList_ofList]
    exact isScore_one
  obtain ⟨outputs,hlen,hguest,hpython,hnode⟩ := legacyJournal_agrees.2.2.2 baseline hscore
  refine ⟨outputs,hlen,hguest,hpython _ _ _ ?_ (names_document baseline),hnode⟩
  rw [decodeUtf8_utf8,Option.bind_some,Json.loads_render _ (plain_document baseline)]

end Kswarm.Legacy
