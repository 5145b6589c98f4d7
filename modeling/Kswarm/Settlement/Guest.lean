import Kswarm.Mirror.Agreement
import Kswarm.Mirror.BranchReceipt

/-! The aggregate guest around the reducer (`main.rs`) on the 32-bit target: it reads the length
prefix and the artifact off its input stream, hashes both and commits the journal. The prefix is
hashed as its eight bytes and counted as a `usize`. -/
namespace Kswarm.Reducer

/-- Why a run leaves no receipt. -/
inductive GuestAbort where
  | inputExhausted
  | capacityOverflow
  | outOfMemory
  | artifactRejected (error : AggregateError)
  deriving DecidableEq

/-- `isize::MAX` of the target, the most bytes one vector holds. -/
def isizeMax : ℕ := 2^31 - 1

/-- `as usize` on the 32-bit target. -/
def asUsize (n : ℕ) : ℕ := n % 2^32

/-- `env::read_slice`: the slice is filled from the stream, or the guest aborts. -/
def readSlice (n : ℕ) (stream : Bytes) : Except GuestAbort (Bytes × Bytes) := do
  failIf (stream.length < n) .inputExhausted
  pure (stream.take n,stream.drop n)

/-- A vector of `n` bytes out of the heap that is left, and the heap after it. -/
def allocate (heap n : ℕ) : Except GuestAbort ℕ := do
  failIf (isizeMax < n) .capacityOverflow
  failIf (heap < n) .outOfMemory
  pure (heap - n)

/-- What a completed run passed to the reducer and committed. -/
structure GuestRun where
  publicBytes : Bytes
  journal : AggregateJournal
  deriving DecidableEq

/-- The two `commit_slice` calls. -/
def GuestRun.committed (run : GuestRun) : Bytes :=
  run.journal.inputDigest.val ++ run.journal.committedOutputs

/-- `main` on a target with `heap` bytes for the two input buffers. -/
def guestMain (heap : ℕ) (fromSlice : Bytes → Option Json) (stream : Bytes) :
    Except GuestAbort GuestRun := do
  let (publicLenBytes,rest) ← readSlice 8 stream
  let publicLen := asUsize (ofLe publicLenBytes)
  let left ← allocate heap publicLen
  let (publicBytes,_) ← readSlice publicLen rest
  let _ ← allocate left (publicLenBytes.length + publicBytes.length)
  let inputDigest := sha256 (publicLenBytes ++ publicBytes)
  let reduction ← (reduceAggregateArtifact fromSlice publicBytes).mapError .artifactRejected
  pure ⟨publicBytes,⟨inputDigest,reduction⟩⟩

section Stream

/-- The number the first eight bytes spell. -/
def declaredLength (stream : Bytes) : ℕ := ofLe (stream.take 8)

/-- The bytes the guest takes for the artifact. -/
def artifactBytes (stream : Bytes) : Bytes :=
  (stream.drop 8).take (asUsize (declaredLength stream))

variable {heap : ℕ} {fromSlice : Bytes → Option Json} {stream : Bytes} {run : GuestRun}

@[simp] theorem readSlice_eq_ok {n : ℕ} {p : Bytes × Bytes} :
    readSlice n stream = .ok p ↔ n ≤ stream.length ∧ (stream.take n,stream.drop n) = p := by
  simp only [readSlice,bind_eq_ok,failIf_eq_ok,pure_eq_ok,not_lt,exists_const]

@[simp] theorem allocate_eq_ok {n left : ℕ} :
    allocate heap n = .ok left ↔ n ≤ isizeMax ∧ n ≤ heap ∧ heap - n = left := by
  simp only [allocate,bind_eq_ok,failIf_eq_ok,pure_eq_ok,not_lt,exists_const]

/-- What a completed run read, and what it hashed. -/
lemma guestMain_reads (h : guestMain heap fromSlice stream = .ok run) :
    8 ≤ stream.length ∧ run.publicBytes = artifactBytes stream ∧
    run.publicBytes.length = asUsize (declaredLength stream) ∧
    run.journal.inputDigest = sha256 (stream.take 8 ++ artifactBytes stream) ∧
    reduceAggregateArtifact fromSlice run.publicBytes = .ok run.journal.reduction := by
  simp only [guestMain,bind_eq_ok,readSlice_eq_ok,allocate_eq_ok,ok_of_mapError,pure_eq_ok] at h
  obtain ⟨_,⟨h8,rfl⟩,_,-,_,⟨hlen,rfl⟩,_,-,reduction,hred,rfl⟩ := h
  refine ⟨h8,rfl,?_,rfl,hred⟩
  exact List.length_take_of_le hlen

/-- The eight prefix bytes are the frame's exactly when the number they spell was not narrowed. -/
lemma prefix_frames_iff (h8 : 8 ≤ stream.length)
    (hlen : (artifactBytes stream).length = asUsize (declaredLength stream)) :
    stream.take 8 ++ artifactBytes stream = framedInput (artifactBytes stream) ↔
      declaredLength stream < 2^32 := by
  have htake : (stream.take 8).length = 8 := List.length_take_of_le h8
  have hspell : leBytes 8 (declaredLength stream) = stream.take 8 := by
    have := leBytes_ofLe (stream.take 8)
    rwa [htake] at this
  have hbound : declaredLength stream < 256^8 := by
    have := ofLe_lt (stream.take 8)
    rwa [htake] at this
  have hnarrow : asUsize (declaredLength stream) < 2^32 := Nat.mod_lt _ (by decide)
  rw [framedInput,hlen,List.append_left_inj,← hspell]
  constructor
  · intro he
    rw [leBytes_inj hbound (by omega) he]
    exact hnarrow
  · intro hsmall
    rw [asUsize,Nat.mod_eq_of_lt hsmall]

/-- A stream that opens with a prefix of the artifact's length modulo `2^32` runs through: the
artifact is reduced, and the digest is of the bytes as they stand. -/
lemma guestMain_stream {n : ℕ} {artifact : Bytes} (rest : Bytes) {reduction : AggregateReduction}
    (hn : n < 256^8) (hlen : asUsize n = artifact.length) (hfits : 8 + artifact.length ≤ isizeMax)
    (hheap : 8 + 2*artifact.length ≤ heap)
    (hred : reduceAggregateArtifact fromSlice artifact = .ok reduction) :
    guestMain heap fromSlice (leBytes 8 n ++ (artifact ++ rest)) =
      .ok ⟨artifact,⟨sha256 (leBytes 8 n ++ artifact),reduction⟩⟩ := by
  have htake : (leBytes 8 n ++ (artifact ++ rest)).take 8 = leBytes 8 n :=
    List.take_left' (leBytes_length 8 n)
  have hdrop : (leBytes 8 n ++ (artifact ++ rest)).drop 8 = artifact ++ rest :=
    List.drop_left' (leBytes_length 8 n)
  simp only [guestMain,bind_eq_ok,readSlice_eq_ok,allocate_eq_ok,ok_of_mapError,pure_eq_ok]
  refine ⟨_,⟨by simp,rfl⟩,_,⟨?_,?_,rfl⟩,_,⟨?_,rfl⟩,_,⟨?_,?_,rfl⟩,reduction,?_⟩ <;>
    simp only [htake,hdrop,ofLe_leBytes_of_lt hn,hlen,List.take_left',leBytes_length]
  · omega
  · omega
  · simp
  · exact hfits
  · omega
  · exact ⟨hred,trivial⟩

/-- On a framed artifact the guest commits the journal of the library's `aggregate_journal`. -/
theorem guestMain_framed {artifact : Bytes} (rest : Bytes) {journal : AggregateJournal}
    (hfits : 8 + artifact.length ≤ isizeMax) (hheap : 8 + 2*artifact.length ≤ heap)
    (hj : aggregateJournal fromSlice artifact = .ok journal) :
    guestMain heap fromSlice (framedInput artifact ++ rest) = .ok ⟨artifact,journal⟩ := by
  simp only [aggregateJournal,bind_eq_ok,pure_eq_ok] at hj
  obtain ⟨reduction,hred,rfl⟩ := hj
  have hsmall : artifact.length < 2^32 := by
    simp only [isizeMax] at hfits
    omega
  rw [framedInput,List.append_assoc]
  exact guestMain_stream rest (hsmall.trans (by decide)) (Nat.mod_eq_of_lt hsmall) hfits hheap hred

/-- The committed digest is that of the reduced artifact, framed, exactly when the length prefix
fits the target's `usize`; a wider prefix is hashed as it stands, so the two digests then agree
only as a collision. -/
theorem inputDigest_framed_iff (h : guestMain heap fromSlice stream = .ok run) :
    run.journal.inputDigest = framedInputDigest run.publicBytes ↔
      declaredLength stream < 2^32 ∨
        Collision sha256
          [stream.take 8 ++ artifactBytes stream,framedInput (artifactBytes stream)] := by
  obtain ⟨h8,hbytes,hlen,hdigest,-⟩ := guestMain_reads h
  rw [hbytes] at hlen
  rw [hdigest,hbytes,collision_pair,← prefix_frames_iff h8 hlen,framedInputDigest]
  constructor
  · intro he
    by_cases hsame : stream.take 8 ++ artifactBytes stream = framedInput (artifactBytes stream)
    · exact .inl hsame
    · exact .inr ⟨hsame,he⟩
  · intro hor
    cases hor with
    | inl hsame => rw [hsame]
    | inr hcol => exact hcol.2

end Stream

section SmallArtifact
open Mirror

/-- The text of an artifact with one scalar branch. -/
def smallArtifact : Bytes := utf8 (Json.render (singleBranch 1 1))

lemma smallArtifact_length : smallArtifact.length = 336 := by decide +kernel

lemma smallArtifact_short : 8 + smallArtifact.length ≤ isizeMax := by
  rw [smallArtifact_length]
  decide

lemma smallArtifact_room : 8 + 2*smallArtifact.length ≤ 2^20 := by
  rw [smallArtifact_length]
  decide

lemma smallArtifact_reduces :
    ∃ reduction, reduceAggregateArtifact jsonOfBytes smallArtifact = .ok reduction := by
  have hplain : (singleBranch 1 1).Plain := by
    simp [singleBranch,Json.Plain,Json.PlainFields,Json.PlainElems]
  have hread : jsonOfBytes smallArtifact = some (singleBranch 1 1) := by
    rw [jsonOfBytes,smallArtifact,decodeUtf8_utf8,Option.bind_some,Json.loads_render _ hplain]
    rfl
  obtain ⟨a,hspell,-,ht,hd,he⟩ := singleBranch_spells (.inl rfl) Nat.one_pos (fun _ => rfl)
  have hfits : a.Fits := by
    refine ⟨by omega,by omega,fun e h => ?_⟩
    rw [he] at h
    obtain rfl := List.mem_singleton.mp h
    exact (by decide : 1 < 2^64)
  have hred := guest_reduceValue.mpr ⟨a,hspell,hfits,rfl⟩
  exact ⟨a.guestReduction,bind_eq_ok.mpr ⟨_,require_eq_ok.mpr hread,hred⟩⟩

/-- The framed artifact of one branch: the guest commits the digest of what it reduced. -/
theorem small_artifact_digest :
    ∃ run, guestMain (2^20) jsonOfBytes (framedInput smallArtifact) = .ok run ∧
      run.publicBytes = smallArtifact ∧
      run.journal.inputDigest = framedInputDigest run.publicBytes := by
  obtain ⟨reduction,hred⟩ := smallArtifact_reduces
  have hj : aggregateJournal jsonOfBytes smallArtifact =
      .ok ⟨framedInputDigest smallArtifact,reduction⟩ := by
    rw [aggregateJournal,hred]
    rfl
  have hrun := guestMain_framed [] smallArtifact_short smallArtifact_room hj
  rw [List.append_nil] at hrun
  have hsmall : declaredLength (framedInput smallArtifact) < 2^32 := by
    rw [declaredLength,framedInput,List.take_left' (leBytes_length 8 _),smallArtifact_length]
    decide
  exact ⟨_,hrun,rfl,(inputDigest_framed_iff hrun).mpr (.inl hsmall)⟩

/-- The same artifact behind a prefix with one bit set above the low 32: the guest reads the same
bytes and commits another digest. -/
theorem wide_prefix_digest :
    ∃ run, guestMain (2^20) jsonOfBytes
        (leBytes 8 (2^32 + smallArtifact.length) ++ smallArtifact) = .ok run ∧
      run.publicBytes = smallArtifact ∧
      run.journal.inputDigest ≠ framedInputDigest run.publicBytes := by
  obtain ⟨reduction,hred⟩ := smallArtifact_reduces
  have hwide : 2^32 + smallArtifact.length < 256^8 := by
    rw [smallArtifact_length]
    decide
  have hsame : asUsize (2^32 + smallArtifact.length) = smallArtifact.length := by
    rw [smallArtifact_length]
    decide
  have hrun := guestMain_stream [] hwide hsame smallArtifact_short smallArtifact_room hred
  rw [List.append_nil] at hrun
  have hne : sha256 (leBytes 8 (2^32 + smallArtifact.length) ++ smallArtifact) ≠
      framedInputDigest smallArtifact := by decide +kernel
  exact ⟨_,hrun,rfl,hne⟩

end SmallArtifact
end Kswarm.Reducer
