import Kswarm.Lib.JsonGrammar
import Kswarm.Lib.Outcome

/-! Recovery of the last JSON object from a model answer that carries its reasoning in front. One
pass over the text matches braces and leaves out those inside quotes; the pass reads the prose by
the rules of JSON strings as well, so an open quote in the prose hides the object after it. -/
namespace Kswarm.Worker

/-- The variables of the scanning loop. -/
structure Scan where
  depth : ℕ := 0
  start : Option ℕ := none
  inStr : Bool := false
  esc : Bool := false
  spans : List (List Char) := []
deriving DecidableEq, Repr

/-- `text[i:j]`. -/
def slice (text : List Char) (i j : ℕ) : List Char := (text.take j).drop i

/-- A closing brace at positive depth. -/
def closeBrace (text : List Char) (s : Scan) (i : ℕ) : Scan :=
  let s := { s with depth := s.depth-1 }
  if s.depth = 0 then
    match s.start with
    | none => s
    | some start => { s with spans := s.spans ++ [slice text start (i+1)],start := none }
  else s

def scanStep (text : List Char) (s : Scan) (p : Char × ℕ) : Scan :=
  let (ch,i) := p
  if s.inStr then
    if s.esc then { s with esc := false }
    else if ch = '\\' then { s with esc := true }
    else if ch = '"' then { s with inStr := false }
    else s
  else if ch = '"' then { s with inStr := true }
  else if ch = '{' then
    { s with start := if s.depth = 0 then some i else s.start,depth := s.depth+1 }
  else if ch = '}' ∧ 0 < s.depth then closeBrace text s i
  else s

/-- The loop over the characters `cs`, the first of which is at position `i`. -/
def scanFrom (text : List Char) (s : Scan) (i : ℕ) (cs : List Char) : Scan :=
  (cs.zipIdx i).foldl (scanStep text) s

/-- The brace-matched pieces of the text, in the order they end. -/
def spans (text : List Char) : List (List Char) := (scanFrom text {} 0 text).spans

/-- `_salvage_json_object`. The parser returns a dictionary or another value, or fails. -/
def salvageJsonObject {Dict Other : Type} (loads : List Char → Option (Dict ⊕ Other)) :
    Option (List Char) → Option Dict
  | none => none
  | some text =>
    if text = [] then none
    else (spans text).reverse.findSome? (fun candidate => (loads candidate).bind Sum.getLeft?)

/-- The payload of `chat_json_with_metadata`: the cleaned answer where it parses, else what is
salvaged from the raw one. The error quotes the cleaned answer. -/
def chatJsonPayload {Dict Other : Type} (loads : List Char → Option (Dict ⊕ Other))
    (content cleaned : List Char) : Except (List Char) (Dict ⊕ Other) :=
  match loads cleaned with
  | some payload => .ok payload
  | none => (require (salvageJsonObject loads (some content)) cleaned).map Sum.inl

/-- Whether a double quote is open at the end of the text, a backslash inside an open quote
skipping the character after it. -/
def quoteOpen : Bool → List Char → Bool
  | inside,[] => inside
  | false,c::r => quoteOpen (c == '"') r
  | true,c::r =>
    if c = '\\' then
      match r with
      | [] => true
      | _::r => quoteOpen true r
    else quoteOpen (c != '"') r

section Scanning
open Json

variable {text cs : List Char} {s : Scan} {i : ℕ}

@[simp] lemma scanFrom_nil : scanFrom text s i [] = s := rfl

lemma scanFrom_cons (c : Char) :
    scanFrom text s i (c::cs) = scanFrom text (scanStep text s (c,i)) (i+1) cs := rfl

lemma scanFrom_append (a b : List Char) :
    scanFrom text s i (a ++ b) = scanFrom text (scanFrom text s i a) (i+a.length) b := by
  unfold scanFrom
  rw [List.zipIdx_append,List.foldl_append]

/-- A loop that leaves its state alone at every character leaves it alone. -/
lemma scanFrom_fixed (h : ∀ c ∈ cs, ∀ j, scanStep text s (c,j) = s) :
    scanFrom text s i cs = s := by
  induction cs generalizing i with
  | nil => rfl
  | cons c cs ih =>
    rw [scanFrom_cons,h c (by simp)]
    exact ih (fun d hd => h d (List.mem_cons_of_mem c hd))

lemma scanFrom_inert (hs : s.inStr = false) (h : ∀ c ∈ cs, Inert c) :
    scanFrom text s i cs = s := by
  apply scanFrom_fixed
  intro c hc j
  obtain ⟨hquote,hopen,hclose⟩ := h c hc
  simp [scanStep,hs,hquote,hopen,hclose]

/-- Inside a string only a quote or a backslash is acted on. -/
lemma scanStep_inside {c : Char} (hs : s.inStr = true) (he : s.esc = false) (hquote : c ≠ '"')
    (hback : c ≠ '\\') : scanStep text s (c,i) = s := by
  simp [scanStep,hs,he,hquote,hback]

/-- A backslash takes the character after it out of the scan. -/
lemma scanFrom_escape (c : Char) (hs : s.inStr = true) (he : s.esc = false) :
    scanFrom text s i ('\\'::c::cs) = scanFrom text s (i+2) cs := by
  rw [scanFrom_cons,scanFrom_cons]
  have hstep : scanStep text (scanStep text s ('\\',i)) (c,i+1) = s := by
    cases s
    simp_all [scanStep]
  rw [hstep]

lemma hexValue_ne {c : Char} (h : (hexValue c).isSome) : c ≠ '"' ∧ c ≠ '\\' := by
  constructor
  all_goals
    intro hc
    subst hc
    revert h
    decide

/-- The scan stays inside a string up to its closing quote. -/
lemma scanFrom_body (h : StringBody cs) (hs : s.inStr = true) (he : s.esc = false) :
    scanFrom text s i cs = s := by
  induction h generalizing i with
  | nil => rfl
  | char _ hquote hback _ ih => rw [scanFrom_cons,scanStep_inside hs he hquote hback,ih]
  | escape _ _ ih => rw [scanFrom_escape _ hs he,ih]
  | @unicode a b c d r hhex _ ih =>
    have hdigits : scanFrom text s (i+2) [a,b,c,d] = s := by
      apply scanFrom_fixed
      intro x hx j
      exact scanStep_inside hs he (hexValue_ne (hhex x hx)).1 (hexValue_ne (hhex x hx)).2
    have hsplit : scanFrom text s (i+2) ([a,b,c,d] ++ r) = s := by
      rw [scanFrom_append,hdigits,ih]
    rw [scanFrom_escape _ hs he]
    exact hsplit

lemma scanFrom_quoted {body : List Char} (h : StringBody body) (hs : s.inStr = false)
    (he : s.esc = false) : scanFrom text s i (quoted body) = s := by
  have hopen : scanStep text s ('"',i) = { s with inStr := true } := by simp [scanStep,hs]
  have hclose : scanStep text { s with inStr := true } ('"',i+1+body.length) = s := by
    cases s
    simp_all [scanStep]
  have hbody : scanFrom text { s with inStr := true } (i+1) body = { s with inStr := true } :=
    scanFrom_body h rfl he
  unfold quoted
  rw [scanFrom_cons,hopen,scanFrom_append,hbody,scanFrom_cons,hclose]
  rfl

/-- Inside a pair of braces a text with matched braces leaves the state as it was. -/
lemma scanFrom_balanced (h : Balanced cs) (hs : s.inStr = false) (he : s.esc = false)
    (hd : 0 < s.depth) : scanFrom text s i cs = s := by
  induction h generalizing s i with
  | inert h => exact scanFrom_inert hs h
  | string h => exact scanFrom_quoted h hs he
  | @braces inner _ ih =>
    have hopen : scanStep text s ('{',i) = { s with depth := s.depth+1 } := by
      simp [scanStep,hs,hd.ne']
    have hclose (j : ℕ) : scanStep text { s with depth := s.depth+1 } ('}',j) = s := by
      obtain ⟨depth,start,inStr,esc,found⟩ := s
      have hdepth : depth ≠ 0 := hd.ne'
      simp only at hs
      simp [scanStep,closeBrace,hs,hdepth]
    have hinner : scanFrom text { s with depth := s.depth+1 } (i+1) inner =
        { s with depth := s.depth+1 } := ih hs he (Nat.succ_pos s.depth)
    rw [scanFrom_cons,hopen,scanFrom_append,hinner,scanFrom_cons,hclose]
    rfl
  | append _ _ iha ihb => rw [scanFrom_append,iha hs he hd,ihb hs he hd]

/-- An object at depth zero adds its own text to the pieces found. -/
lemma scanFrom_braced (text : List Char) (i : ℕ) {inner : List Char} (h : Balanced inner)
    (found : List (List Char)) :
    scanFrom text { spans := found } i ('{' :: (inner ++ ['}'])) =
      { spans := found ++ [slice text i (i+(inner.length+2))] } := by
  have hopen : scanStep text { spans := found } ('{',i) =
      { depth := 1,start := some i,spans := found } := rfl
  have hinner : scanFrom text { depth := 1,start := some i,spans := found } (i+1) inner =
      { depth := 1,start := some i,spans := found } := scanFrom_balanced h rfl rfl Nat.one_pos
  have hclose : scanStep text { depth := 1,start := some i,spans := found }
      ('}',i+1+inner.length) = { spans := found ++ [slice text i (i+1+inner.length+1)] } := rfl
  have hend : i+1+inner.length+1 = i+(inner.length+2) := by omega
  rw [scanFrom_cons,hopen,scanFrom_append,hinner,scanFrom_cons,hclose,hend]
  rfl

lemma slice_append (a t b : List Char) : slice (a ++ (t ++ b)) a.length (a.length+t.length) = t := by
  unfold slice
  rw [List.take_length_add_append,List.drop_left,List.take_left]

/-- Text without braces only moves the quote and escape flags, and outside a quote no escape is
pending. -/
lemma scanFrom_prose (text : List Char) (i : ℕ) (prose : List Char) (inside : Bool)
    (hprose : ∀ c ∈ prose, c ≠ '{' ∧ c ≠ '}') :
    ∃ esc, scanFrom text { inStr := inside } i prose =
        { inStr := quoteOpen inside prose,esc := esc } ∧
      (quoteOpen inside prose = false → esc = false) := by
  fun_induction quoteOpen inside prose generalizing i with
  | case1 inside => exact ⟨false,rfl,fun _ => rfl⟩
  | case2 c r ih =>
    obtain ⟨hopen,hclose⟩ := hprose c (by simp)
    have hstep : scanStep text { inStr := false } (c,i) = { inStr := c == '"' } := by
      by_cases hquote : c = '"'
      · subst hquote; rfl
      · simp [scanStep,hquote,hopen,hclose]
    rw [scanFrom_cons,hstep]
    exact ih _ (fun d hd => hprose d (List.mem_cons_of_mem c hd))
  | case3 => exact ⟨true,rfl,fun h => nomatch h⟩
  | case4 c r ih =>
    rw [scanFrom_escape c rfl rfl]
    exact ih _ (fun d hd => hprose d (List.mem_cons_of_mem _ (List.mem_cons_of_mem c hd)))
  | case5 c r hback ih =>
    have hstep : scanStep text { inStr := true } (c,i) = { inStr := c != '"' } := by
      by_cases hquote : c = '"'
      · subst hquote; rfl
      · simp [scanStep,hquote,hback]
    rw [scanFrom_cons,hstep]
    exact ih _ (fun d hd => hprose d (List.mem_cons_of_mem c hd))

/-- Every piece found or begun starts after position `k`, and none is as long as `n`. -/
structure Later (k n : ℕ) (s : Scan) : Prop where
  start : ∀ j, s.start = some j → k < j
  spans : ∀ p ∈ s.spans, p.length < n

lemma length_slice_le (text : List Char) (i j : ℕ) : (slice text i j).length ≤ j-i := by
  unfold slice
  rw [List.length_drop,List.length_take]
  omega

lemma Later.closeBrace {k n : ℕ} (h : Later k n s) (hk : k < i) (hi : i+1 ≤ k+n) :
    Later k n (closeBrace text s i) := by
  unfold Worker.closeBrace
  by_cases hdepth : s.depth-1 = 0
  · cases hstart : s.start with
    | none =>
      simp only [hdepth,if_true]
      exact ⟨by simp,h.spans⟩
    | some start =>
      have hlater := h.start start hstart
      have hlength := length_slice_le text start (i+1)
      simp only [hdepth,if_true]
      refine ⟨by simp,fun p hp => ?_⟩
      cases List.mem_append.mp hp with
      | inl hp => exact h.spans p hp
      | inr hp =>
        rw [List.mem_singleton.mp hp]
        omega
  · simp only [hdepth,if_false]
    exact ⟨h.start,h.spans⟩

lemma Later.step {k n : ℕ} (h : Later k n s) (c : Char) (hk : k < i) (hi : i+1 ≤ k+n) :
    Later k n (scanStep text s (c,i)) := by
  unfold scanStep
  dsimp only
  split_ifs with hin hesc hback hquote hquote' hopen hdepth hclose
  · exact ⟨h.start,h.spans⟩
  · exact ⟨h.start,h.spans⟩
  · exact ⟨h.start,h.spans⟩
  · exact h
  · exact ⟨h.start,h.spans⟩
  · exact ⟨fun j hj => Option.some.inj hj ▸ hk,h.spans⟩
  · exact ⟨h.start,h.spans⟩
  · exact h.closeBrace hk hi
  · exact h

lemma Later.run {k n : ℕ} (h : Later k n s) (hk : k < i) (hi : i+cs.length ≤ k+n) :
    Later k n (scanFrom text s i cs) := by
  induction cs generalizing s i with
  | nil => exact h
  | cons c cs ih =>
    rw [List.length_cons] at hi
    rw [scanFrom_cons]
    exact ih (h.step c hk (by omega)) (by omega) (by omega)

/-- Only a closing brace completes a piece. -/
lemma spans_scanFrom_unclosed (h : ∀ c ∈ cs, c ≠ '}') :
    (scanFrom text s i cs).spans = s.spans := by
  induction cs generalizing s i with
  | nil => rfl
  | cons c cs ih =>
    have hstep : (scanStep text s (c,i)).spans = s.spans := by
      have hc := h c (by simp)
      unfold scanStep
      dsimp only
      split_ifs
      all_goals first | rfl | simp_all
    rw [scanFrom_cons,ih (fun d hd => h d (List.mem_cons_of_mem c hd)),hstep]

end Scanning

section Recovery
open Json

variable {prose t blank : List Char} (hprose : ∀ c ∈ prose, c ≠ '{' ∧ c ≠ '}')
  (ht : Derives .object t) (hblank : Blank blank)
include hprose ht hblank

/-- Where the prose leaves no quote open the object is the one piece found. -/
theorem spans_closed (hclosed : quoteOpen false prose = false) :
    spans (prose ++ (t ++ blank)) = [t] := by
  obtain ⟨inner,hinner,hbraces⟩ := ht.braced
  obtain ⟨esc,hscan,hesc⟩ := scanFrom_prose (prose ++ (t ++ blank)) 0 prose false hprose
  rw [hclosed] at hscan hesc
  rw [hesc rfl] at hscan
  have hlength : inner.length+2 = t.length := by simp [hbraces]
  have hobject := scanFrom_braced (prose ++ (t ++ blank)) prose.length hinner []
  rw [← hbraces,hlength,slice_append] at hobject
  unfold spans
  rw [scanFrom_append,hscan,Nat.zero_add,scanFrom_append,hobject,scanFrom_inert rfl hblank.inert]
  rfl

/-- Where the prose leaves a quote open the object's own text is not among the pieces: each of
them is shorter. -/
theorem spans_open (hopen : quoteOpen false prose = true) :
    ∀ p ∈ spans (prose ++ (t ++ blank)), p.length < t.length := by
  obtain ⟨inner,_,hbraces⟩ := ht.braced
  obtain ⟨esc,hscan,_⟩ := scanFrom_prose (prose ++ (t ++ blank)) 0 prose false hprose
  rw [hopen] at hscan
  have hbrace : ∃ esc', scanStep (prose ++ (t ++ blank)) { inStr := true,esc := esc }
      ('{',prose.length) = { inStr := true,esc := esc' } := by
    cases esc <;> exact ⟨_,rfl⟩
  obtain ⟨esc',hbrace⟩ := hbrace
  have hlength : (inner ++ ['}']).length+1 = t.length := by simp [hbraces]
  have hlater : Later prose.length t.length (scanFrom (prose ++ (t ++ blank))
      { inStr := true,esc := esc' } (prose.length+1) (inner ++ ['}'])) := by
    apply Later.run
    · exact ⟨fun j hj => (nomatch hj),fun p hp => (nomatch hp)⟩
    · omega
    · omega
  have hunclosed : ∀ c ∈ blank, c ≠ '}' := fun c hc => (hblank.inert c hc).2.2
  have hspans : spans (prose ++ (t ++ blank)) = (scanFrom (prose ++ (t ++ blank))
      { inStr := true,esc := esc' } (prose.length+1) (inner ++ ['}'])).spans := by
    unfold spans
    rw [scanFrom_append,hscan,Nat.zero_add,scanFrom_append,spans_scanFrom_unclosed hunclosed]
    conv_lhs => rw [hbraces,scanFrom_cons]
    rw [← hbraces,hbrace]
  rw [hspans]
  exact hlater.spans

omit ht hblank in
/-- Both braces of an empty object are read as text of the open quote. -/
lemma spans_empty_object (hopen : quoteOpen false prose = true) :
    spans (prose ++ ['{','}']) = [] := by
  obtain ⟨esc,hscan,_⟩ := scanFrom_prose (prose ++ ['{','}']) 0 prose false hprose
  rw [hopen] at hscan
  unfold spans
  rw [scanFrom_append,hscan]
  cases esc <;> rfl

variable {Dict Other : Type} {loads : List Char → Option (Dict ⊕ Other)}

omit hprose hblank in
lemma salvageJsonObject_text :
    salvageJsonObject loads (some (prose ++ (t ++ blank))) =
      (spans (prose ++ (t ++ blank))).reverse.findSome?
        (fun candidate => (loads candidate).bind Sum.getLeft?) := by
  obtain ⟨inner,_,hbraces⟩ := ht.braced
  have hne : prose ++ (t ++ blank) ≠ [] := by simp [hbraces]
  exact if_neg hne

/-- The object is recovered behind prose that leaves no quote open. -/
lemma salvageJsonObject_closed {parsed : Dict} (hloads : loads t = some (.inl parsed))
    (hclosed : quoteOpen false prose = false) :
    salvageJsonObject loads (some (prose ++ (t ++ blank))) = some parsed := by
  rw [salvageJsonObject_text ht,spans_closed hprose ht hblank hclosed]
  simp [hloads]

/-- The chat call then answers with the object, where the whole answer does not parse. -/
theorem chatJsonPayload_closed {cleaned : List Char} {parsed : Dict}
    (hcleaned : loads cleaned = none) (hloads : loads t = some (.inl parsed))
    (hclosed : quoteOpen false prose = false) :
    chatJsonPayload loads (prose ++ (t ++ blank)) cleaned = .ok (.inl parsed) := by
  have hsalvaged := salvageJsonObject_closed hprose ht hblank hloads hclosed
  unfold chatJsonPayload
  rw [hcleaned,hsalvaged]
  rfl

/-- Behind prose that leaves a quote open, whatever is returned was read from a shorter piece. -/
theorem salvageJsonObject_open {parsed : Dict}
    (hsalvaged : salvageJsonObject loads (some (prose ++ (t ++ blank))) = some parsed)
    (hopen : quoteOpen false prose = true) :
    ∃ p ∈ spans (prose ++ (t ++ blank)), p.length < t.length ∧ loads p = some (.inl parsed) := by
  rw [salvageJsonObject_text ht] at hsalvaged
  obtain ⟨p,hp,hread⟩ := List.exists_of_findSome?_eq_some hsalvaged
  obtain ⟨v,hv,hleft⟩ := Option.bind_eq_some_iff.mp hread
  have hmem := List.mem_reverse.mp hp
  have hparsed : v = .inl parsed := Sum.getLeft?_eq_some_iff.mp hleft
  exact ⟨p,hmem,spans_open hprose ht hblank hopen p hmem,hparsed ▸ hv⟩

end Recovery

section Prose
open Json

/-- `json.loads` with the dictionaries told apart. -/
def loadsDict (text : List Char) : Option (List (String × Json) ⊕ Json) :=
  (loads text).map (fun v => match v with
    | .obj fields => .inl fields
    | v => .inr v)

lemma loadsDict_render {fields : List (String × Json)} (h : (Json.obj fields).Plain) :
    loadsDict (render (.obj fields)) = some (.inl fields) := by
  unfold loadsDict
  rw [loads_render _ h]
  rfl

lemma loadsDict_empty : loadsDict ['{','}'] = some (.inl []) := by
  have hplain : (Json.obj []).Plain := by simp [Json.Plain,PlainFields]
  have hempty := loadsDict_render hplain
  have htext : render (.obj []) = ['{','}'] := by simp [render]
  rwa [htext] at hempty

lemma braceless_of_all (prose : List Char)
    (h : prose.all (fun c => decide (c ≠ '{' ∧ c ≠ '}')) = true) :
    ∀ c ∈ prose, c ≠ '{' ∧ c ≠ '}' :=
  fun c hc => of_decide_eq_true (List.all_eq_true.mp h c hc)

def scoreAnswer : List (String × Json) := [("score",.int 7)]

lemma scoreAnswer_plain : (Json.obj scoreAnswer).Plain :=
  ⟨by simp [scoreAnswer],trivial,trivial⟩

/-- Which prose an object can follow: every object text behind it is recovered, as the parser
reads it, exactly when the prose leaves no double quote open. -/
theorem salvageJsonObject_prose_iff {Dict Other : Type} (loads : List Char → Option (Dict ⊕ Other))
    {empty : Dict} (hempty : loads ['{','}'] = some (.inl empty))
    (prose : List Char) (hprose : ∀ c ∈ prose, c ≠ '{' ∧ c ≠ '}') :
    (∀ t blank parsed, Derives .object t → Blank blank → loads t = some (.inl parsed) →
      salvageJsonObject loads (some (prose ++ (t ++ blank))) = some parsed) ↔
    quoteOpen false prose = false := by
  constructor
  · intro hall
    cases hquote : quoteOpen false prose with
    | false => rfl
    | true =>
      have hderives : Derives .object ['{','}'] := .emptyObject blank_nil
      have hsalvaged := hall ['{','}'] [] empty hderives blank_nil hempty
      rw [salvageJsonObject_text hderives,List.append_nil,spans_empty_object hprose hquote]
        at hsalvaged
      exact absurd hsalvaged (by simp)
  · intro hclosed t blank parsed ht hblank hloads
    exact salvageJsonObject_closed hprose ht hblank hloads hclosed

theorem score_after_closed_quotes :
    salvageJsonObject loadsDict (some ("It is \"best\": ".toList ++
      (render (.obj scoreAnswer) ++ ['\n']))) = some scoreAnswer := by
  have hprose := braceless_of_all "It is \"best\": ".toList (by decide +kernel)
  have hclosed : quoteOpen false "It is \"best\": ".toList = false := by decide +kernel
  have hblank : Blank ['\n'] := List.forall_mem_singleton.mpr rfl
  have hall := (salvageJsonObject_prose_iff loadsDict loadsDict_empty _ hprose).mpr hclosed
  exact hall (render (.obj scoreAnswer)) ['\n'] scoreAnswer
    (derives_renderObject _ scoreAnswer_plain.2) hblank (loadsDict_render scoreAnswer_plain)

/-- The mark for inches is an open quote, and nothing is recovered. -/
theorem score_after_inches :
    ∃ prose t parsed, (∀ c ∈ prose, c ≠ '{' ∧ c ≠ '}') ∧ Derives .object t ∧
      loadsDict t = some (.inl parsed) ∧ salvageJsonObject loadsDict (some (prose ++ t)) = none :=
  ⟨"The 6\" option scores best: ".toList,render (.obj scoreAnswer),scoreAnswer,
    braceless_of_all _ (by decide +kernel),derives_renderObject _ scoreAnswer_plain.2,
    loadsDict_render scoreAnswer_plain,by decide +kernel⟩

end Prose

end Kswarm.Worker
