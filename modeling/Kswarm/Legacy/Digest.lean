import Kswarm.Legacy.Journal

/-! What the two byte strings behind a reducer digest bind. The score and the counts sit at the end
in fields of a known shape and are always bound; the ids in front of them are one text, cut where
no byte says. -/
namespace Kswarm.Legacy

namespace Node

/-- The bytes `computeReducerDigest` hands to its hasher. -/
def reducerDigestInput (fields : Argument) : Except ProofBindingError Bytes := do
  let branchKey ← requireString fields.branchKey "branch_key"
  let childJobId ← requireString fields.childJobId "child_job_id"
  let parentRequestId ← requireString fields.parentRequestId "parent_request_id"
  let scoreHex ← requireString fields.scoreHex "score_hex"
  let lineCount ← requireU32 fields.lineCount "line_count"
  let wordCount ← requireU32 fields.wordCount "word_count"
  pure (bufferFromUtf8 branchKey ++ bufferFromUtf8 childJobId ++ bufferFromUtf8 parentRequestId ++
    bufferFromUtf8 scoreHex ++ u32LittleEndian lineCount ++ u32LittleEndian wordCount)

/-- Mirrors the hash the off-chain guest commits as `reducer_digest`. -/
def computeReducerDigest (fields : Argument) : Except ProofBindingError String := do
  let input ← reducerDigestInput fields
  pure (Reducer.encodeHex (sha256 input).val)

end Node

/-- What a digest commits to, with ids in the texts of one language and a score that decodes. -/
structure Tuple (τ : Type) where
  branchKey : τ
  childJobId : τ
  parentRequestId : τ
  score : List Char
  accepted : IsScore score
  lineCount : UInt32
  wordCount : UInt32

namespace Tuple
variable {τ : Type} (read : τ → List Char) (sep : List Char)

/-- The ids as the one text they are written as. -/
def ids (t : Tuple τ) : List Char :=
  read t.branchKey ++ sep ++ read t.childJobId ++ sep ++ read t.parentRequestId

/-- Another tuple whose ids are the same text cut elsewhere. -/
structure Recut (t t' : Tuple τ) : Prop where
  distinct : t ≠ t'
  score : t.score = t'.score
  lineCount : t.lineCount = t'.lineCount
  wordCount : t.wordCount = t'.wordCount
  ids : t.ids read sep = t'.ids read sep

variable {read sep}

/-- Bytes that determine the score, the counts and the text of the ids, and nothing else, tell two
tuples apart except where one recuts the other. -/
lemma differ_iff {α : Type} (bytes : Tuple τ → α) {t t' : Tuple τ}
    (h : bytes t = bytes t' ↔ t.ids read sep = t'.ids read sep ∧ t.score = t'.score ∧
      t.lineCount = t'.lineCount ∧ t.wordCount = t'.wordCount) :
    (t ≠ t' → bytes t ≠ bytes t') ↔ ¬Recut read sep t t' := by
  constructor
  · intro hbind hcut
    exact hbind hcut.distinct (h.mpr ⟨hcut.ids,hcut.score,hcut.lineCount,hcut.wordCount⟩)
  · intro hcut hne heq
    obtain ⟨hids,hscore,hline,hword⟩ := h.mp heq
    exact hcut ⟨hne,hscore,hline,hword,hids⟩

/-- The tuple as the argument object of the binding checks. -/
def argument (t : Tuple CodeUnits) : Node.Argument where
  branchKey := .text t.branchKey
  childJobId := .text t.childJobId
  parentRequestId := .text t.parentRequestId
  scoreHex := .text (utf16 t.score)
  lineCount := .number (.finite false t.lineCount.toNat)
  wordCount := .number (.finite false t.wordCount.toNat)

/-- The canonical bytes of the guest. -/
def guestBytes (t : Tuple String) : Bytes :=
  Guest.reducerCanonicalBytes t.branchKey t.childJobId t.parentRequestId (String.ofList t.score)
    t.lineCount t.wordCount

end Tuple

lemma append_first_inj {α : Type} {c : α} {x y x' y' : List α} (hx : c ∉ x) (hx' : c ∉ x')
    (h : x ++ c::y = x' ++ c::y') : x = x' ∧ y = y' := by
  induction x generalizing x' with
  | nil =>
    cases x' with
    | nil => exact ⟨rfl,(List.cons.inj h).2⟩
    | cons d x' => exact absurd (by rw [(List.cons.inj h).1]; simp) hx'
  | cons d x ih =>
    cases x' with
    | nil => exact absurd (by rw [(List.cons.inj h).1]; simp) hx
    | cons d' x' =>
      obtain ⟨rfl,hrest⟩ := List.cons.inj h
      obtain ⟨rfl,rfl⟩ := ih (fun hc => hx (List.mem_cons_of_mem _ hc))
        (fun hc => hx' (List.mem_cons_of_mem _ hc)) hrest
      exact ⟨rfl,rfl⟩

/-- What follows the last separator is bound, and so is what precedes it. -/
lemma append_last_inj {α : Type} {c : α} {x y x' y' : List α} (hy : c ∉ y) (hy' : c ∉ y')
    (h : x ++ c::y = x' ++ c::y') : x = x' ∧ y = y' := by
  have hrev : y.reverse ++ c::x.reverse = y'.reverse ++ c::x'.reverse := by
    simpa using congrArg List.reverse h
  obtain ⟨h1,h2⟩ := append_first_inj (by simpa using hy) (by simpa using hy') hrev
  exact ⟨List.reverse_injective h2,List.reverse_injective h1⟩

lemma bar_not_mem_decimal (n : ℕ) : '|' ∉ decimal n := by
  intro h
  exact absurd (isDigit_of_mem_decimal h) (by decide)

lemma IsScore.bar_not_mem {digits : List Char} (h : IsScore digits) : '|' ∉ digits :=
  fun hc => absurd (h.lower _ hc) (by decide)

/-- From the right, every field of the canonical text but the ids is bound. -/
lemma canonical_inj {ids ids' score score' : List Char} {l w l' w' : UInt32} (hs : IsScore score)
    (hs' : IsScore score')
    (h : ids ++ '|' :: (score ++ '|' :: (decimal l.toNat ++ '|' :: decimal w.toNat)) =
      ids' ++ '|' :: (score' ++ '|' :: (decimal l'.toNat ++ '|' :: decimal w'.toNat))) :
    ids = ids' ∧ score = score' ∧ l = l' ∧ w = w' := by
  have hcut : ∀ (i s : List Char) (m n : UInt32),
      i ++ '|' :: (s ++ '|' :: (decimal m.toNat ++ '|' :: decimal n.toNat)) =
        (i ++ '|' :: (s ++ '|' :: decimal m.toNat)) ++ '|' :: decimal n.toNat := by
    intro i s m n
    simp
  have hcut' : ∀ (i s : List Char) (m : UInt32),
      i ++ '|' :: (s ++ '|' :: decimal m.toNat) = (i ++ '|' :: s) ++ '|' :: decimal m.toNat := by
    intro i s m
    simp
  rw [hcut,hcut] at h
  obtain ⟨h,hw⟩ := append_last_inj (bar_not_mem_decimal _) (bar_not_mem_decimal _) h
  rw [hcut',hcut'] at h
  obtain ⟨h,hl⟩ := append_last_inj (bar_not_mem_decimal _) (bar_not_mem_decimal _) h
  obtain ⟨rfl,rfl⟩ := append_last_inj hs.bar_not_mem hs'.bar_not_mem h
  exact ⟨rfl,rfl,UInt32.toNat_inj.mp (decimal_injective hl),
    UInt32.toNat_inj.mp (decimal_injective hw)⟩

namespace Tuple

/-- A score is ASCII, so its bytes are as many as its digits. -/
lemma score_length (t : Tuple CodeUnits) : (utf8 t.score).length = 64 := by
  rw [utf8_hexDigits_length t.accepted.lower]
  exact t.accepted.length

lemma digestInput_eq (t : Tuple CodeUnits) : Node.reducerDigestInput t.argument =
    .ok (utf8 (t.ids scalars []) ++ (utf8 t.score ++ (leBytes 4 t.lineCount.toNat ++
      leBytes 4 t.wordCount.toNat))) := by
  simp only [Node.reducerDigestInput,argument,Node.requireString,ok_bind,Node.requireU32_natCast,
    Node.bufferFromUtf8,scalars_utf16,ids,utf8_append,List.append_nil,List.append_assoc]
  rfl

/-- `computeReducerDigest` binds the score, the counts and the text of the ids. -/
lemma digestInput_eq_iff (t t' : Tuple CodeUnits) :
    Node.reducerDigestInput t.argument = Node.reducerDigestInput t'.argument ↔
      t.ids scalars [] = t'.ids scalars [] ∧ t.score = t'.score ∧
        t.lineCount = t'.lineCount ∧ t.wordCount = t'.wordCount := by
  rw [digestInput_eq,digestInput_eq,Except.ok.injEq]
  constructor
  · intro h
    have hl : ∀ n : UInt32, n.toNat < 256^4 := fun n => n.toNat_lt
    obtain ⟨hids,htail⟩ := List.append_inj' h (by
      simp only [List.length_append,score_length,leBytes_length])
    obtain ⟨hscore,hcounts⟩ := List.append_inj htail (by rw [score_length,score_length])
    obtain ⟨hline,hword⟩ := List.append_inj hcounts (by rw [leBytes_length,leBytes_length])
    exact ⟨utf8_injective hids,utf8_injective hscore,
      UInt32.toNat_inj.mp (leBytes_inj (hl _) (hl _) hline),
      UInt32.toNat_inj.mp (leBytes_inj (hl _) (hl _) hword)⟩
  · rintro ⟨hids,hscore,hline,hword⟩
    rw [hids,hscore,hline,hword]

lemma bar_units : utf16 ['|'] = [124] := by decide

/-- Joined with bars, the texts keep the scalar values they have alone. -/
lemma scalars_bar (a b : CodeUnits) :
    scalars (a ++ (utf16 ['|'] ++ b)) = scalars a ++ '|' :: scalars b := by
  rw [bar_units,List.singleton_append,scalars,codePoints_append_cons (by decide) (by decide),
    List.map_append,List.map_cons]
  rfl

lemma canonicalBytes_eq (t : Tuple CodeUnits) :
    Node.bonsolReducerCanonicalBytes t.argument =
      .ok (utf8 (t.ids scalars ['|'] ++ '|' :: (t.score ++ '|' ::
        (decimal t.lineCount.toNat ++ '|' :: decimal t.wordCount.toNat)))) := by
  simp only [Node.bonsolReducerCanonicalBytes,argument,Node.requireString,ok_bind,
    Node.requireU32_natCast,Node.bufferFromUtf8,Node.joinBar,List.intercalate_cons_cons,
    List.intercalate_singleton,List.append_assoc,scalars_bar,scalars_utf16,ids,List.cons_append,
    List.nil_append]
  rfl

lemma canonicalBytes_eq_iff (t t' : Tuple CodeUnits) :
    Node.bonsolReducerCanonicalBytes t.argument = Node.bonsolReducerCanonicalBytes t'.argument ↔
      t.ids scalars ['|'] = t'.ids scalars ['|'] ∧ t.score = t'.score ∧
        t.lineCount = t'.lineCount ∧ t.wordCount = t'.wordCount := by
  rw [canonicalBytes_eq,canonicalBytes_eq,Except.ok.injEq]
  constructor
  · intro h
    exact canonical_inj t.accepted t'.accepted (utf8_injective h)
  · rintro ⟨hids,hscore,hline,hword⟩
    rw [hids,hscore,hline,hword]

lemma guestBytes_eq (t : Tuple String) : t.guestBytes =
    utf8 (t.ids String.toList ['|'] ++ '|' :: (t.score ++ '|' ::
      (decimal t.lineCount.toNat ++ '|' :: decimal t.wordCount.toNat))) := by
  simp only [guestBytes,Guest.reducerCanonicalBytes,String.toList_ofList,ids,List.append_assoc,
    List.cons_append,List.nil_append]

lemma guestBytes_eq_iff (t t' : Tuple String) : t.guestBytes = t'.guestBytes ↔
    t.ids String.toList ['|'] = t'.ids String.toList ['|'] ∧ t.score = t'.score ∧
      t.lineCount = t'.lineCount ∧ t.wordCount = t'.wordCount := by
  rw [guestBytes_eq,guestBytes_eq]
  constructor
  · intro h
    exact canonical_inj t.accepted t'.accepted (utf8_injective h)
  · rintro ⟨hids,hscore,hline,hword⟩
    rw [hids,hscore,hline,hword]

/-- Without a bar in the two ids behind the first, the canonical bytes bind every field. -/
theorem guestBytes_injective_of_no_bar {t t' : Tuple String}
    (hc : '|' ∉ t.childJobId.toList) (hp : '|' ∉ t.parentRequestId.toList)
    (hc' : '|' ∉ t'.childJobId.toList) (hp' : '|' ∉ t'.parentRequestId.toList)
    (h : t.guestBytes = t'.guestBytes) : t = t' := by
  obtain ⟨hids,hscore,hline,hword⟩ := (guestBytes_eq_iff t t').mp h
  simp only [ids,List.append_assoc,List.singleton_append] at hids
  rw [← List.append_assoc,← List.append_assoc] at hids
  obtain ⟨hfront,hparent⟩ := append_last_inj hp hp' hids
  obtain ⟨hbranch,hchild⟩ := append_last_inj hc hc' hfront
  obtain ⟨b,c,p,s,a,l,w⟩ := t
  obtain ⟨b',c',p',s',a',l',w'⟩ := t'
  obtain rfl := String.toList_inj.mp hbranch
  obtain rfl := String.toList_inj.mp hchild
  obtain rfl := String.toList_inj.mp hparent
  obtain rfl := hscore
  obtain rfl := hline
  obtain rfl := hword
  rfl

/-- A tuple that carries the score one and no counts. -/
def cut {τ : Type} (branchKey childJobId parentRequestId : τ) : Tuple τ where
  branchKey := branchKey
  childJobId := childJobId
  parentRequestId := parentRequestId
  score := scoreOne
  accepted := isScore_one
  lineCount := 0
  wordCount := 0

end Tuple

/-- The digest and the canonical bytes bind every field exactly up to where the ids are cut. -/
theorem reducerDigest_binds_iff (t t' : Tuple CodeUnits) (u u' : Tuple String) :
    ((t ≠ t' → Node.reducerDigestInput t.argument ≠ Node.reducerDigestInput t'.argument) ↔
      ¬Tuple.Recut scalars [] t t') ∧
    ((t ≠ t' → Node.bonsolReducerCanonicalBytes t.argument ≠
        Node.bonsolReducerCanonicalBytes t'.argument) ↔ ¬Tuple.Recut scalars ['|'] t t') ∧
    ((u ≠ u' → u.guestBytes ≠ u'.guestBytes) ↔ ¬Tuple.Recut String.toList ['|'] u u') := by
  refine ⟨?_,?_,?_⟩
  · exact Tuple.differ_iff (fun t => Node.reducerDigestInput t.argument)
      (Tuple.digestInput_eq_iff t t')
  · exact Tuple.differ_iff (fun t => Node.bonsolReducerCanonicalBytes t.argument)
      (Tuple.canonicalBytes_eq_iff t t')
  · exact Tuple.differ_iff Tuple.guestBytes (Tuple.guestBytes_eq_iff u u')

theorem reducerDigest_binds_parent_request :
    Node.reducerDigestInput (Tuple.cut (utf16 ['a']) (utf16 ['b']) (utf16 ['c'])).argument ≠
      Node.reducerDigestInput (Tuple.cut (utf16 ['a']) (utf16 ['b']) (utf16 ['d'])).argument := by
  refine (reducerDigest_binds_iff _ _ (.cut "a" "b" "c") (.cut "a" "b" "d")).1.mpr (fun h => ?_)
    (fun h => ?_)
  · exact absurd h.ids (by decide)
  · exact absurd (congrArg Tuple.parentRequestId h) (by decide)

/-- A character moved from one id to the next changes no byte of the digest, a bar moved so none of
the canonical bytes. -/
theorem reducerDigest_recut :
    (Tuple.cut (utf16 ['a','b']) (utf16 ['c']) (utf16 ['p']) ≠
        Tuple.cut (utf16 ['a']) (utf16 ['b','c']) (utf16 ['p']) ∧
      Node.reducerDigestInput
          (Tuple.cut (utf16 ['a','b']) (utf16 ['c']) (utf16 ['p'])).argument =
        Node.reducerDigestInput
          (Tuple.cut (utf16 ['a']) (utf16 ['b','c']) (utf16 ['p'])).argument) ∧
    (Tuple.cut (utf16 ['a','|','b']) (utf16 ['c']) (utf16 ['p']) ≠
        Tuple.cut (utf16 ['a']) (utf16 ['b','|','c']) (utf16 ['p']) ∧
      Node.bonsolReducerCanonicalBytes
          (Tuple.cut (utf16 ['a','|','b']) (utf16 ['c']) (utf16 ['p'])).argument =
        Node.bonsolReducerCanonicalBytes
          (Tuple.cut (utf16 ['a']) (utf16 ['b','|','c']) (utf16 ['p'])).argument) ∧
    (Tuple.cut "a|b" "c" "p" ≠ Tuple.cut "a" "b|c" "p" ∧
      (Tuple.cut "a|b" "c" "p").guestBytes = (Tuple.cut "a" "b|c" "p").guestBytes) := by
  refine ⟨⟨?_,?_⟩,⟨?_,?_⟩,?_,?_⟩
  · exact fun he => absurd (congrArg Tuple.branchKey he) (by decide)
  · exact (Tuple.digestInput_eq_iff _ _).mpr ⟨by decide,rfl,rfl,rfl⟩
  · exact fun he => absurd (congrArg Tuple.branchKey he) (by decide)
  · exact (Tuple.canonicalBytes_eq_iff _ _).mpr ⟨by decide,rfl,rfl,rfl⟩
  · exact fun he => absurd (congrArg Tuple.branchKey he) (by decide)
  · exact (Tuple.guestBytes_eq_iff _ _).mpr ⟨by decide,rfl,rfl,rfl⟩

end Kswarm.Legacy
