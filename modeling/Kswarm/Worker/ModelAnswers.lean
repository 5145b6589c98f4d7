import Kswarm.Worker.Accepted

/-! What the strict parser does with any model response at all: it accepts, it raises its own error,
or an integer field read as a probability is too wide for a binary64 number and the conversion
raises. Which of the three is decided by the first field the parser does not accept. -/
namespace Kswarm.Worker

/-- An integer past the largest finite binary64 number, as far as rounding goes. -/
def Wide : Json → Prop
  | .int n => 2^1024 ≤ n.natAbs + 2^970
  | _ => False

/-- A sign and magnitude in the unit interval. -/
def Within (neg : Bool) (mag : ℚ≥0) : Prop := mag = 0 ∨ (neg = false ∧ mag ≤ 1)

/-- A probability: a number, or the text of one, in the unit interval. -/
def InUnit [CharData] : Json → Prop
  | .int n => n = 0 ∨ n = 1
  | .float f => ∃ neg mag, f = .finite neg mag ∧ Within neg mag
  | .str s => ∃ neg mag, floatOf (strip s.toList) = some (.finite neg mag) ∧ Within neg mag
  | _ => False

/-- The first of the items that is not accepted is one that overflows. -/
def FirstWide {α : Type} (accepted wide : α → Prop) : List α → Prop
  | [] => False
  | a::as => wide a ∨ (accepted a ∧ FirstWide accepted wide as)

/-- An optional probability of the response. -/
def BoundRead [CharData] (response : Json) (field : String) : Prop :=
  ∀ v, response.get field = some v → v = .null ∨ InUnit v

def BoundWide (response : Json) (field : String) : Prop := ∃ v, response.get field = some v ∧ Wide v

/-- A guardrail in exactly one of its forms, in range. -/
def GuardrailRead [CharData] (container : Json) (name : String) : Prop :=
  (container.get (name ++ "_bps") = none ∧ ∃ v, container.get name = some v ∧ InUnit v) ∨
    (container.get name = none ∧
      ∃ n : ℤ, container.get (name ++ "_bps") = some (.int n) ∧ 0 ≤ n ∧ n ≤ 10000)

def GuardrailWide (container : Json) (name : String) : Prop :=
  container.get (name ++ "_bps") = none ∧ BoundWide container name

/-- A narrative is given, and it is not blank. -/
def TextRead [CharData] (response : Json) : Prop :=
  ∃ name s, firstPresent response narrativeFieldNames = some (name,.str s) ∧ strip s.toList ≠ []

/-- The conversion that raises in a scalar answer. -/
def ScalarOverruns [CharData] (response : Json) : Prop :=
  ∃ name raw, firstPresent response scalarFieldNames = some (name,raw) ∧
    (Wide raw ∨ (InUnit raw ∧ FirstWide (BoundRead response) (BoundWide response)
      ["confidence_lower","confidence_upper"]))

/-- The conversion that raises in a narrative answer. -/
def NarrativeOverruns [CharData] (response : Json) : Prop :=
  ∃ name raw, firstPresent response scalarFieldNames = some (name,raw) ∧
    (Wide raw ∨ (InUnit raw ∧ TextRead response ∧
      ∃ container, scoreContainer response scoreContainerNames = .ok container ∧
        FirstWide (GuardrailRead container) (GuardrailWide container) guardrailNames))

/-- The response makes the conversion to a binary64 number raise. -/
def Overruns [CharData] (kind : OutputKind) (response : Json) : Prop :=
  response.isObj = true ∧
    match kind with
    | .scalar => ScalarOverruns response
    | .categorical => False
    | .narrativeWithScalar => NarrativeOverruns response

section Judging
variable {α β : Type}

/-- The computation overflows exactly when `wide`, and it always finds a length. -/
structure Overflows (wide : Prop) (x : Except ParseError α) : Prop where
  overflow : x = .error .overflow ↔ wide
  measured : x ≠ .error .noLength

/-- The computation accepts exactly when `accepted`, and overflows exactly when `wide`. -/
structure Judged (accepted wide : Prop) (x : Except ParseError α) : Prop
    extends Overflows wide x where
  accepts : Accepts x ↔ accepted

lemma Overflows.of_ok {wide : Prop} {x : Except ParseError α} {a : α} (h : x = .ok a)
    (hw : ¬wide) : Overflows wide x := by
  subst h
  exact ⟨by simp [hw],by simp⟩

lemma Overflows.of_invalid {wide : Prop} {x : Except ParseError α} {e : InvalidModelOutput}
    (h : x = .error (.invalid e)) (hw : ¬wide) : Overflows wide x := by
  subst h
  exact ⟨by simp [hw],by simp⟩

lemma Judged.of_ok {accepted wide : Prop} {x : Except ParseError α} {a : α} (h : x = .ok a)
    (ha : accepted) (hw : ¬wide) : Judged accepted wide x :=
  ⟨.of_ok h hw,iff_of_true ⟨a,h⟩ ha⟩

lemma Judged.of_invalid {accepted wide : Prop} {x : Except ParseError α} {e : InvalidModelOutput}
    (h : x = .error (.invalid e)) (ha : ¬accepted) (hw : ¬wide) : Judged accepted wide x := by
  refine ⟨.of_invalid h hw,iff_of_false ?_ ha⟩
  rintro ⟨a,hok⟩
  rw [h] at hok
  cases hok

lemma Judged.of_overflow {accepted wide : Prop} {x : Except ParseError α}
    (h : x = .error .overflow) (ha : ¬accepted) (hw : wide) : Judged accepted wide x := by
  refine ⟨⟨iff_of_true h hw,by simp [h]⟩,iff_of_false ?_ ha⟩
  rintro ⟨a,hok⟩
  rw [h] at hok
  cases hok

lemma Judged.congr {accepted accepted' wide wide' : Prop} {x : Except ParseError α}
    (h : Judged accepted wide x) (ha : accepted ↔ accepted') (hw : wide ↔ wide') :
    Judged accepted' wide' x :=
  ⟨⟨h.overflow.trans hw,h.measured⟩,h.accepts.trans ha⟩

lemma Overflows.congr {wide wide' : Prop} {x : Except ParseError α} (h : Overflows wide x)
    (hw : wide ↔ wide') : Overflows wide' x :=
  ⟨h.overflow.trans hw,h.measured⟩

/-- A chain overflows in its first link, or behind the value that link returns. -/
lemma Overflows.bind {wide : Prop} {wide' : α → Prop} {x : Except ParseError α}
    {f : α → Except ParseError β} (hx : Overflows wide x)
    (hf : ∀ a, x = .ok a → Overflows (wide' a) (f a)) :
    Overflows (wide ∨ ∃ a, x = .ok a ∧ wide' a) (x >>= f) := by
  have hover := hx.overflow
  cases x with
  | error e =>
    constructor
    · change (Except.error e : Except ParseError β) = .error .overflow ↔ _
      rw [Except.error.injEq] at hover ⊢
      simpa using hover
    · intro h
      have he : e = .noLength := Except.error.inj h
      exact hx.measured (congrArg Except.error he)
  | ok a =>
    have hno : ¬wide := fun hw => by cases hover.mpr hw
    refine ⟨?_,(hf a rfl).measured⟩
    change f a = .error .overflow ↔ _
    rw [(hf a rfl).overflow]
    simp [hno]

lemma Overflows.map {wide : Prop} {x : Except ParseError α} (h : Overflows wide x) (g : α → β) :
    Overflows wide (g <$> x) := by
  rw [map_eq_pure_bind]
  refine (h.bind (fun a _ => .of_ok rfl id)).congr ?_
  simp

/-- What follows an accepted value decides next. -/
lemma Judged.then {accepted wide wide' : Prop} {x : Except ParseError α}
    {f : α → Except ParseError β} (hx : Judged accepted wide x)
    (hf : ∀ a, Overflows wide' (f a)) : Overflows (wide ∨ (accepted ∧ wide')) (x >>= f) := by
  refine (hx.toOverflows.bind (fun a _ => hf a)).congr (or_congr_right ?_)
  rw [exists_and_right]
  exact and_congr_left' hx.accepts

/-- A loop over the items overflows at the first that is not accepted. -/
lemma Overflows.mapM {accepted wide : α → Prop} {f : α → Except ParseError β} {xs : List α}
    (h : ∀ x ∈ xs, Judged (accepted x) (wide x) (f x)) :
    Overflows (FirstWide accepted wide xs) (xs.mapM f) := by
  induction xs with
  | nil => exact .of_ok (a := []) rfl id
  | cons x xs ih =>
    have hrest := ih (fun y hy => h y (by simp [hy]))
    rw [List.mapM_cons]
    refine (h x (by simp)).then (fun y => (hrest.bind (fun ys _ => .of_ok rfl id)).congr ?_)
    simp

end Judging

section Fields

lemma not_outside_iff {neg : Bool} {mag : ℚ≥0} :
    ¬((neg = true ∧ mag ≠ 0) ∨ (neg = false ∧ 1 < mag)) ↔ Within neg mag := by
  unfold Within
  cases neg with
  | true => simp
  | false =>
    simp only [Bool.false_eq_true,false_and,false_or,true_and,not_lt]
    exact ⟨.inr,fun h => h.elim (fun hz => hz ▸ zero_le_one) id⟩

variable [CharData]

/-- A finite number is accepted when it lies in the unit interval, and never overflows. -/
lemma probability_of_numeric {v : Json} {field : String} {neg : Bool} {mag : ℚ≥0}
    (h : numeric v field true true = .ok (neg,mag)) :
    Judged (Within neg mag) False (parseProbabilityBps v field) := by
  by_cases hw : Within neg mag
  · refine .of_ok (a := snap mag) ?_ hw id
    rw [parseProbabilityBps,h,ok_bind]
    dsimp only
    rw [failIf_of_not (not_outside_iff.mpr hw)]
    rfl
  · refine .of_invalid (e := .outsideUnit field v) ?_ hw id
    rw [← not_outside_iff,not_not] at hw
    rw [parseProbabilityBps,h,ok_bind]
    dsimp only
    rw [failIf,if_pos hw]
    rfl

lemma probability_of_invalid {v : Json} {field : String} {e : InvalidModelOutput}
    (h : numeric v field true true = .error (.invalid e)) :
    parseProbabilityBps v field = .error (.invalid e) := by
  rw [parseProbabilityBps,h]
  rfl

lemma probability_int (n : ℤ) (field : String) :
    Judged (n = 0 ∨ n = 1) (Wide (.int n)) (parseProbabilityBps (.int n) field) := by
  rcases Binary64.ofDecimal_nat (decide (n < 0)) n.natAbs with
    ⟨hwide,htwo,hinf⟩ | ⟨hfit,mag,hfin,h0,h1,h2⟩
  · have hn : ¬(n = 0 ∨ n = 1) := by omega
    refine .of_overflow ?_ hn hwide
    rw [parseProbabilityBps,numeric,hinf]
    rfl
  · have hread : numeric (.int n) field true true = .ok (decide (n < 0),mag) := by
      rw [numeric,hfin]
      rfl
    have hiff : Within (decide (n < 0)) mag ↔ n = 0 ∨ n = 1 := by
      unfold Within
      constructor
      · intro hw
        by_contra hn
        have hbig : n.natAbs = 1 ∨ 2 ≤ n.natAbs := by omega
        have hpos : 0 < mag := by
          rcases hbig with hb | hb
          · rw [h1 hb]
            exact one_pos
          · exact one_pos.trans (h2 hb)
        rcases hw with hz | ⟨hneg,hle⟩
        · exact hpos.ne' hz
        · have hnn : 0 ≤ n := by simpa using hneg
          exact absurd (h2 (by omega)) (not_lt.mpr hle)
      · rintro (rfl | rfl)
        · exact .inl (h0 rfl)
        · exact .inr ⟨by simp,(h1 rfl).le⟩
    exact (probability_of_numeric hread).congr hiff (iff_of_false id hfit)

/-- A probability field: accepted in the unit interval, raising on a wide integer. -/
theorem probability_judged (v : Json) (field : String) :
    Judged (InUnit v) (Wide v) (parseProbabilityBps v field) := by
  cases v with
  | null => exact .of_invalid (probability_of_invalid rfl) id id
  | bool b => exact .of_invalid (probability_of_invalid rfl) id id
  | arr xs => exact .of_invalid (probability_of_invalid rfl) id id
  | obj fs => exact .of_invalid (probability_of_invalid rfl) id id
  | int n => exact probability_int n field
  | float f =>
    cases f with
    | finite neg mag =>
      refine (probability_of_numeric (v := .float (.finite neg mag)) rfl).congr ?_ Iff.rfl
      simp [InUnit]
    | inf neg => exact .of_invalid (probability_of_invalid rfl) (by simp [InUnit]) id
    | nan => exact .of_invalid (probability_of_invalid rfl) (by simp [InUnit]) id
  | str s =>
    cases hf : floatOf (strip s.toList) with
    | none =>
      refine .of_invalid (probability_of_invalid (e := .notNumeric field (.str s)) ?_)
        (by simp [InUnit,hf]) id
      simp [numeric,hf]
    | some f =>
      cases f with
      | finite neg mag =>
        have hread : numeric (.str s) field true true = .ok (neg,mag) := by
          simp [numeric,hf,pure,Except.pure]
        refine (probability_of_numeric hread).congr ?_ Iff.rfl
        simp [InUnit,hf]
      | inf neg =>
        refine .of_invalid (probability_of_invalid (e := .notFinite field (.str s)) ?_)
          (by simp [InUnit,hf]) id
        simp [numeric,hf]
      | nan =>
        refine .of_invalid (probability_of_invalid (e := .notFinite field (.str s)) ?_)
          (by simp [InUnit,hf]) id
        simp [numeric,hf]

end Fields

section Responses

/-- A refusal of the parser's own. -/
def IsInvalid (e : ParseError) : Prop := ∃ i, e = .invalid i

/-- A computation that raises nothing but the parser's error. -/
lemma Judged.of_ends {α : Type} {q : α → Prop} {x : Except ParseError α}
    (h : Ends IsInvalid q x) : Judged (Accepts x) False x := by
  cases x with
  | error e =>
    obtain ⟨i,rfl⟩ := h
    refine .of_invalid rfl ?_ id
    rintro ⟨a,ha⟩
    cases ha
  | ok a => exact .of_ok rfl ⟨a,rfl⟩ id

lemma Judged.map {α β : Type} {accepted wide : Prop} {x : Except ParseError α} (g : α → β)
    (h : Judged accepted wide x) : Judged accepted wide (g <$> x) := by
  refine ⟨h.toOverflows.map g,?_⟩
  rw [← h.accepts]
  cases x with
  | error e => exact iff_of_false (by rintro ⟨a,ha⟩; cases ha) (by rintro ⟨a,ha⟩; cases ha)
  | ok a => exact iff_of_true ⟨g a,rfl⟩ ⟨a,rfl⟩

lemma bpsInteger_judged (v : Json) (field : String) :
    Judged (∃ n : ℤ, v = .int n ∧ 0 ≤ n ∧ n ≤ 10000) False (parseBpsInteger v field) := by
  cases v with
  | int n =>
    by_cases hn : n < 0 ∨ (bpsScale : ℤ) < n
    · refine .of_invalid (e := .outsideBps field (.int n)) ?_ ?_ id
      · rw [parseBpsInteger,failIf,if_pos hn]
        rfl
      · rintro ⟨m,hm,hlo,hhi⟩
        obtain rfl := Json.int.inj hm
        rw [bpsScale] at hn
        omega
    · refine .of_ok (a := n.toNat) ?_ ⟨n,rfl,?_⟩ id
      · rw [parseBpsInteger,failIf_of_not hn]
        rfl
      · rw [bpsScale] at hn
        omega
  | _ => exact .of_invalid rfl (by simp) id

lemma scoreContainer_ends (response : Json) (names : List String) :
    Ends IsInvalid (fun _ => True) (scoreContainer response names) := by
  induction names with
  | nil => trivial
  | cons name names ih =>
    unfold scoreContainer
    split
    · exact Ends.bind (Ends.failIf (fun _ => ⟨_,rfl⟩)) (fun _ _ => trivial)
    · exact ih

lemma categorical_overflows (response : Json) (labelCount : ℕ) :
    Overflows False (parseCategoricalResponse response labelCount) := by
  suffices h : Ends IsInvalid (fun _ => True) (parseCategoricalResponse response labelCount) from
    (Judged.of_ends h).toOverflows
  apply Ends.bind (Ends.require (fun _ => ⟨_,rfl⟩) (fun p hp => hp))
  intro p _
  obtain ⟨name,raw⟩ := p
  cases raw with
  | int n =>
    apply Ends.bind (Ends.failIf (fun _ => ⟨_,rfl⟩))
    intro _ _
    exact Ends.bind (Ends.failIf (fun _ => ⟨_,rfl⟩)) (fun _ _ => trivial)
  | _ => exact ⟨_,rfl⟩

variable [CharData]

lemma bound_judged (response : Json) (field : String) :
    Judged (BoundRead response field) (BoundWide response field) (parseBound response field) := by
  cases hg : response.get field with
  | none =>
    refine .of_ok (a := none) (by simp [parseBound,hg]) ?_ ?_
    · simp [BoundRead,hg]
    · simp [BoundWide,hg]
  | some v =>
    by_cases hv : v = .null
    · subst hv
      refine .of_ok (a := none) (by simp [parseBound,hg]) ?_ ?_
      · simp [BoundRead,hg]
      · rintro ⟨v,hv,hw⟩
        rw [hg] at hv
        obtain rfl := Option.some.inj hv
        exact hw
    · have hparse : parseBound response field = some <$> parseProbabilityBps v field := by
        rw [parseBound,hg]
        cases v <;> first | rfl | exact absurd rfl hv
      have hread : BoundRead response field ↔ InUnit v := by simp [BoundRead,hg,hv]
      have hwide : BoundWide response field ↔ Wide v := by simp [BoundWide,hg]
      rw [hparse,hread,hwide]
      exact (probability_judged v field).map some

lemma guardrail_judged (container : Json) (name : String) :
    Judged (GuardrailRead container name) (GuardrailWide container name)
      (parseGuardrail container name) := by
  unfold GuardrailRead GuardrailWide BoundWide parseGuardrail
  dsimp only
  cases hp : container.get name with
  | none =>
    cases hb : container.get (name ++ "_bps") with
    | none => exact .of_invalid (e := .guardrailMissing name) rfl (by simp) (by simp)
    | some v =>
      refine ((bpsInteger_judged v (name ++ "_bps")).map _).congr ?_ ?_
      · simp
      · simp
  | some v =>
    cases hb : container.get (name ++ "_bps") with
    | none =>
      refine ((probability_judged v name).map _).congr ?_ ?_
      · simp
      · simp
    | some w => exact .of_invalid (e := .guardrailTwice name) rfl (by simp) (by simp)

lemma nonEmptyText_judged (v : Json) (field : String) :
    Judged (∃ s, v = .str s ∧ strip s.toList ≠ []) False (nonEmptyText v field) := by
  cases v with
  | str s =>
    by_cases hs : strip s.toList = []
    · refine .of_invalid (e := .emptyText field (.str s)) ?_ (by simp [hs]) id
      rw [nonEmptyText,failIf,if_pos hs]
      rfl
    · refine .of_ok (a := s) ?_ ⟨s,rfl,hs⟩ id
      rw [nonEmptyText,failIf_of_not hs]
      rfl
  | _ => exact .of_invalid rfl (by simp) id

lemma narrativeText_ends (response : Json) :
    Ends IsInvalid (fun _ => True) (parseNarrativeText response) := by
  unfold parseNarrativeText
  split
  · next name raw _ =>
    rw [map_eq_pure_bind]
    refine Ends.bind (q := fun _ => True) ?_ (fun _ _ => trivial)
    cases raw with
    | str s => exact Ends.bind (Ends.failIf (fun _ => ⟨_,rfl⟩)) (fun _ _ => trivial)
    | _ => exact ⟨_,rfl⟩
  · trivial

/-- A scalar answer overflows at the first probability that is not one, if that is wide. -/
theorem scalar_overflows (response : Json) :
    Overflows (ScalarOverruns response) (parseScalarResponse response) := by
  unfold ScalarOverruns parseScalarResponse
  cases hp : firstPresent response scalarFieldNames with
  | none => exact .of_invalid (e := .missing scalarFieldNames) rfl (by simp)
  | some p =>
    obtain ⟨name,raw⟩ := p
    have htail : ∀ (scalar : ℕ) (lower upper : Option ℕ), Ends IsInvalid (fun _ => True) (do
        failIf (lower.any (fun l => upper.any (fun u => decide (u < l))) = true)
          (.invalid (.lowerExceedsUpper (lower.getD 0) (upper.getD 0)))
        let narrativeText ← parseNarrativeText response
        pure (⟨scalar,lower,upper,narrativeText⟩ : ParsedScalar)) := by
      intro scalar lower upper
      apply Ends.bind (Ends.failIf (fun _ => ⟨_,rfl⟩))
      intro _ _
      exact Ends.bind (narrativeText_ends response) (fun _ _ => trivial)
    have hread := (probability_judged raw name).then (fun scalar =>
      (bound_judged response "confidence_lower").then (fun lower =>
        (bound_judged response "confidence_upper").then (fun upper =>
          (Judged.of_ends (htail scalar lower upper)).toOverflows)))
    refine Overflows.congr hread ?_
    simp [FirstWide]

/-- A narrative answer overflows at its probability, or at the first guardrail that is not in
range, if that is wide. -/
theorem narrative_overflows (response : Json) :
    Overflows (NarrativeOverruns response) (parseNarrativeResponse response) := by
  unfold NarrativeOverruns parseNarrativeResponse
  cases hp : firstPresent response scalarFieldNames with
  | none => exact .of_invalid (e := .missing scalarFieldNames) rfl (by simp)
  | some p =>
    obtain ⟨name,raw⟩ := p
    have hguardrails : ∀ container, Overflows
        (FirstWide (GuardrailRead container) (GuardrailWide container) guardrailNames)
        (guardrailNames.mapM (parseGuardrail container)) :=
      fun container => .mapM (fun name _ => guardrail_judged container name)
    have hscores : Overflows (∃ container,
        scoreContainer response scoreContainerNames = .ok container ∧
          FirstWide (GuardrailRead container) (GuardrailWide container) guardrailNames)
        (parseGuardrailScores response) := by
      have hcontainer := Judged.of_ends (scoreContainer_ends response scoreContainerNames)
      refine (hcontainer.toOverflows.bind (fun container _ => hguardrails container)).congr ?_
      rw [false_or]
    have htail : ∀ (scalar : ℕ) (text : String), Overflows (∃ container,
        scoreContainer response scoreContainerNames = .ok container ∧
          FirstWide (GuardrailRead container) (GuardrailWide container) guardrailNames) (do
        let scores ← parseGuardrailScores response
        pure (⟨scalar,text,scores⟩ : ParsedNarrative)) := by
      intro scalar text
      refine (hscores.bind (fun scores _ => .of_ok rfl id)).congr ?_
      simp
    have htext : ∀ scalar : ℕ, Overflows (TextRead response ∧ ∃ container,
        scoreContainer response scoreContainerNames = .ok container ∧
          FirstWide (GuardrailRead container) (GuardrailWide container) guardrailNames) (do
        let found ← require (firstPresent response narrativeFieldNames)
          (.invalid (.missing narrativeFieldNames))
        let narrativeText ← nonEmptyText found.2 found.1
        let scores ← parseGuardrailScores response
        pure (⟨scalar,narrativeText,scores⟩ : ParsedNarrative)) := by
      intro scalar
      unfold TextRead
      cases hn : firstPresent response narrativeFieldNames with
      | none => exact .of_invalid (e := .missing narrativeFieldNames) rfl (by simp)
      | some q =>
        obtain ⟨textName,text⟩ := q
        refine ((nonEmptyText_judged text textName).then (htail scalar)).congr ?_
        simp
    refine ((probability_judged raw name).then htext).congr ?_
    simp

/-- On any response the parser accepts, raises its own error or overflows, and it overflows exactly
on the responses that overrun; only the labels of a categorical branch may have no length. -/
theorem parseModelResponse_overflows {branchInput : Protocol.BranchInput} {response : Json}
    (hlabels : ¬(response.isObj = true ∧ branchInput.targetOutputKind = .categorical ∧
      labelCount branchInput.parameters = none)) :
    Overflows (Overruns branchInput.targetOutputKind response)
      (parseModelResponse branchInput response) := by
  unfold Overruns parseModelResponse
  by_cases hobj : response.isObj = false
  · refine .of_invalid (e := .notAnObject response) ?_ (by simp [hobj])
    rw [failIf,if_pos hobj]
    rfl
  · rw [failIf_of_not hobj,ok_bind]
    have htrue : response.isObj = true := by simpa using hobj
    cases hkind : branchInput.targetOutputKind with
    | scalar =>
      refine ((scalar_overflows response).map ParsedResponse.scalar).congr ?_
      simp [htrue]
    | categorical =>
      dsimp only
      cases hcount : labelCount branchInput.parameters with
      | none => exact absurd ⟨htrue,hkind,hcount⟩ hlabels
      | some labels =>
        refine ((categorical_overflows response labels).map ParsedResponse.categorical).congr ?_
        simp
    | narrativeWithScalar =>
      refine ((narrative_overflows response).map ParsedResponse.narrative).congr ?_
      simp [htrue]

end Responses

end Kswarm.Worker
