import Kswarm.Lib.Numeral
import Kswarm.Protocol.BranchSchemas

/-! Strict parsing of model responses into committed branch fields
(`branch_worker/parsing.py`). Nothing here invents a default. -/
namespace Kswarm.Worker

def bpsScale : ℕ := 10000
def maxLabelIndex : ℤ := 255
def guardrailNames : List String := ["severity","quality","ood"]
def scalarFieldNames : List String := ["scalar_value","probability"]
def labelFieldNames : List String := ["categorical_label_index","label_index"]
def narrativeFieldNames : List String := ["narrative_text","narrative","rationale","explanation"]
def scoreContainerNames : List String := ["narrative_scores","scores"]

/-- The raise sites of `InvalidModelOutputError`. -/
inductive InvalidModelOutput where
  | outsideUnit (field : String) (value : Json)
  | notBpsInteger (field : String) (value : Json)
  | outsideBps (field : String) (value : Json)
  | notInteger (field : String) (value : Json)
  | outsideByte (field : String) (value : Json)
  | outsideLabels (field : String) (value : ℤ) (labelCount : ℕ)
  | notAnObject (value : Json)
  | missing (names : List String)
  | lowerExceedsUpper (lower upper : ℕ)
  | guardrailTwice (name : String)
  | guardrailMissing (name : String)
  | containerNotAnObject (name : String) (value : Json)
  | emptyText (field : String) (value : Json)
  | boolean (field : String)
  | notFinite (field : String) (value : Json)
  | notNumeric (field : String) (value : Json)
  | notANumber (field : String) (value : Json)

/-- `type(value).__name__`. -/
def typeName : Json → String
  | .null => "NoneType"
  | .bool _ => "bool"
  | .int _ => "int"
  | .float _ => "float"
  | .str _ => "str"
  | .arr _ => "list"
  | .obj _ => "dict"

/-- The message; `repr` is the runtime's. -/
def InvalidModelOutput.text (repr : Json → String) : InvalidModelOutput → String
  | .outsideUnit field value => field ++ " must lie in [0, 1]; got " ++ repr value
  | .notBpsInteger field value =>
    field ++ " must be a JSON integer in basis points; got " ++ repr value
  | .outsideBps field value => field ++ " must lie in [0, 10000]; got " ++ repr value
  | .notInteger field value => field ++ " must be a JSON integer; got " ++ repr value
  | .outsideByte field value => field ++ " must lie in [0, 255]; got " ++ repr value
  | .outsideLabels field value labelCount =>
    field ++ " " ++ toString value ++ " is outside the " ++ toString labelCount ++
      " committed labels"
  | .notAnObject value => "model response must be a JSON object; got " ++ typeName value
  | .missing names => "model response is missing " ++ String.intercalate " or " names
  | .lowerExceedsUpper lower upper =>
    "confidence_lower " ++ toString lower ++ " exceeds confidence_upper " ++ toString upper ++
      " (bps)"
  | .guardrailTwice name =>
    "guardrail " ++ name ++ " is given as both " ++ name ++ " and " ++ name ++ "_bps"
  | .guardrailMissing name =>
    "model response is missing guardrail " ++ name ++ " (as " ++ name ++ " in [0,1] or " ++ name ++
      "_bps)"
  | .containerNotAnObject name value =>
    name ++ " must be a JSON object; got " ++ typeName value
  | .emptyText field value => field ++ " must be a non-empty string; got " ++ repr value
  | .boolean field => field ++ " must be a number; got a boolean"
  | .notFinite field value => field ++ " must be finite; got " ++ repr value
  | .notNumeric field value => field ++ " must be numeric; got " ++ repr value
  | .notANumber field value =>
    field ++ " must be a JSON number or numeric string; got " ++ repr value

/-- What parsing raises: its own error, `OverflowError` from the conversion of an integer, or
`TypeError` from the length of the labels. -/
inductive ParseError where
  | invalid (error : InvalidModelOutput)
  | overflow
  | noLength

structure ParsedScalar where
  scalarValueBps : ℕ
  confidenceLowerBps : Option ℕ
  confidenceUpperBps : Option ℕ
  narrativeText : Option String

structure ParsedNarrative where
  scalarValueBps : ℕ
  narrativeText : String
  narrativeScores : List (String × ℕ)

inductive ParsedResponse where
  | scalar (p : ParsedScalar)
  | categorical (labelIndex : ℕ)
  | narrative (p : ParsedNarrative)

variable [CharData]

/-- `_numeric`: the sign and the magnitude of a finite number. -/
def numeric (value : Json) (field : String) (allowString allowFloat : Bool) :
    Except ParseError (Bool × ℚ≥0) :=
  match value with
  | .bool _ => .error (.invalid (.boolean field))
  | .int n => match Binary64.ofDecimal (decide (n < 0)) n.natAbs 0 with
    | .finite neg mag => pure (neg,mag)
    | _ => .error .overflow
  | .float f =>
    if allowFloat then match f with
      | .finite neg mag => pure (neg,mag)
      | _ => .error (.invalid (.notFinite field value))
    else .error (.invalid (.notANumber field value))
  | .str s =>
    if allowString then match floatOf (strip s.toList) with
      | some (.finite neg mag) => pure (neg,mag)
      | some _ => .error (.invalid (.notFinite field value))
      | none => .error (.invalid (.notNumeric field value))
    else .error (.invalid (.notANumber field value))
  | _ => .error (.invalid (.notANumber field value))

/-- `int((Decimal(repr(x)) * 10000).quantize(1, ROUND_HALF_UP))`. -/
def snap (mag : ℚ≥0) : ℕ :=
  let (m,e) := Binary64.decimalOf mag
  ⌊(m : ℚ)*10^e*bpsScale + 1/2⌋₊

/-- A unit-interval probability in basis points, rounding half up. -/
def parseProbabilityBps (value : Json) (field : String) : Except ParseError ℕ := do
  let (neg,mag) ← numeric value field true true
  failIf ((neg = true ∧ mag ≠ 0) ∨ (neg = false ∧ 1 < mag)) (.invalid (.outsideUnit field value))
  pure (snap mag)

/-- A field declared in basis points: integers only. -/
def parseBpsInteger (value : Json) (field : String) : Except ParseError ℕ :=
  match value with
  | .int n => do
    failIf (n < 0 ∨ (bpsScale : ℤ) < n) (.invalid (.outsideBps field value))
    pure n.toNat
  | _ => .error (.invalid (.notBpsInteger field value))

/-- A categorical label index against the committed label dictionary. -/
def parseLabelIndex (value : Json) (field : String) (labelCount : ℕ) : Except ParseError ℕ :=
  match value with
  | .int n => do
    failIf (n < 0 ∨ maxLabelIndex < n) (.invalid (.outsideByte field value))
    failIf (0 < labelCount ∧ (labelCount : ℤ) ≤ n) (.invalid (.outsideLabels field n labelCount))
    pure n.toNat
  | _ => .error (.invalid (.notInteger field value))

/-- `_first_present`: the first of the names with a value other than null. -/
def firstPresent (response : Json) : List String → Option (String × Json)
  | [] => none
  | name::names => match response.get name with
    | some .null => firstPresent response names
    | some v => some (name,v)
    | none => firstPresent response names

/-- `_non_empty_text`. -/
def nonEmptyText (value : Json) (field : String) : Except ParseError String :=
  match value with
  | .str s => do
    failIf (strip s.toList = []) (.invalid (.emptyText field value))
    pure s
  | _ => .error (.invalid (.emptyText field value))

/-- A confidence bound that may be absent or null. -/
def parseBound (response : Json) (field : String) : Except ParseError (Option ℕ) :=
  match response.get field with
  | none => pure none
  | some .null => pure none
  | some v => some <$> parseProbabilityBps v field

def parseNarrativeText (response : Json) : Except ParseError (Option String) :=
  match firstPresent response narrativeFieldNames with
  | some (name,raw) => some <$> nonEmptyText raw name
  | none => pure none

def parseScalarResponse (response : Json) : Except ParseError ParsedScalar := do
  let (name,raw) ← require (firstPresent response scalarFieldNames)
    (.invalid (.missing scalarFieldNames))
  let scalarValueBps ← parseProbabilityBps raw name
  let lower ← parseBound response "confidence_lower"
  let upper ← parseBound response "confidence_upper"
  failIf (lower.any (fun l => upper.any (fun u => decide (u < l))) = true)
    (.invalid (.lowerExceedsUpper (lower.getD 0) (upper.getD 0)))
  let narrativeText ← parseNarrativeText response
  pure ⟨scalarValueBps,lower,upper,narrativeText⟩

def parseCategoricalResponse (response : Json) (labelCount : ℕ) : Except ParseError ℕ := do
  let (name,raw) ← require (firstPresent response labelFieldNames)
    (.invalid (.missing labelFieldNames))
  parseLabelIndex raw name labelCount

/-- `_score_container`: the scores stand in their own object, or in the response itself. -/
def scoreContainer (response : Json) : List String → Except ParseError Json
  | [] => pure response
  | name::names => match response.get name with
    | some container => do
      failIf (container.isObj = false) (.invalid (.containerNotAnObject name container))
      pure container
    | none => scoreContainer response names

/-- One guardrail, present in exactly one form. -/
def parseGuardrail (container : Json) (name : String) : Except ParseError (String × ℕ) :=
  let bpsName := name ++ "_bps"
  match container.get name,container.get bpsName with
  | some _,some _ => .error (.invalid (.guardrailTwice name))
  | some v,none => (fun bps => (bpsName,bps)) <$> parseProbabilityBps v name
  | none,some v => (fun bps => (bpsName,bps)) <$> parseBpsInteger v bpsName
  | none,none => .error (.invalid (.guardrailMissing name))

def parseGuardrailScores (response : Json) : Except ParseError (List (String × ℕ)) := do
  let container ← scoreContainer response scoreContainerNames
  guardrailNames.mapM (parseGuardrail container)

def parseNarrativeResponse (response : Json) : Except ParseError ParsedNarrative := do
  let (name,raw) ← require (firstPresent response scalarFieldNames)
    (.invalid (.missing scalarFieldNames))
  let scalarValueBps ← parseProbabilityBps raw name
  let (textName,text) ← require (firstPresent response narrativeFieldNames)
    (.invalid (.missing narrativeFieldNames))
  let narrativeText ← nonEmptyText text textName
  let scores ← parseGuardrailScores response
  pure ⟨scalarValueBps,narrativeText,scores⟩

/-- `len(value)`, where the value has one. -/
def lengthOf : Json → Option ℕ
  | .str s => some s.toList.length
  | .arr xs => some xs.length
  | .obj fs => some fs.length
  | _ => none

/-- `len(parameters.get("labels") or [])`. -/
def labelCount (parameters : List (String × Json)) : Option ℕ :=
  match parameters.lookup "labels" with
  | some labels => if labels.truthy then lengthOf labels else some 0
  | none => some 0

/-- Dispatch on the branch's declared output kind. -/
def parseModelResponse (branchInput : Protocol.BranchInput) (response : Json) :
    Except ParseError ParsedResponse := do
  failIf (response.isObj = false) (.invalid (.notAnObject response))
  match branchInput.targetOutputKind with
  | .scalar => .scalar <$> parseScalarResponse response
  | .categorical => do
    let count ← require (labelCount branchInput.parameters) .noLength
    .categorical <$> parseCategoricalResponse response count
  | .narrativeWithScalar => .narrative <$> parseNarrativeResponse response

end Kswarm.Worker
