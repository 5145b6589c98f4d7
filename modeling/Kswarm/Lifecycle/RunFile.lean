import Kswarm.Lib.Disk
import Kswarm.Lifecycle.Chain

/-! How a run file is replaced (`save_run_manifest`, and `save` of `run_store.py`): a temporary file
is written and synced, renamed over the run file, and the directory is synced. Wherever a save stops
and whenever the power is lost, the run file is a whole document, and what the commands are told of
it is true. The entry of the directory itself is not synced, so one that a save had to make can be
lost with all that is in it. Saves here come one after another. -/
namespace Kswarm.Lifecycle
open Disk

abbrev Saving (α : Type) := Process Disk.Op Disk.Ans OsError α

def tempName (name : String) : String := "." ++ name ++ ".tmp"

/-- What both writers do to their temporary file. -/
def writeAndReplace (file : ℕ) (temp name : String) (payload : Bytes) : Saving Unit := do
  let written ← .query (.write file payload)
  .lift written
  let synced ← .query (.fsync file)
  .lift synced
  let replaced ← .query (.replace temp name)
  .lift replaced

def syncDirectory : Saving Unit := do
  let synced ← .query .fsyncDirectory
  .lift synced

/-- `save_run_manifest`. -/
def saveRunFile (name : String) (payload : Bytes) : Saving Unit := do
  let made ← .query .mkdir
  .lift made
  let created ← .query (.create (tempName name))
  let file ← .lift created
  writeAndReplace file (tempName name) name payload
  syncDirectory

/-- What is raised after a try to remove the temporary file. That it is not there is no error. -/
def raisedAfter (e : OsError) : Except OsError Unit → OsError
  | .error (.other text) => .other text
  | _ => e

def removeTemp (temp : String) (e : OsError) : Saving Unit := do
  let removed ← .query (.unlink temp)
  .raise (raisedAfter e removed)

/-- `RunStore.save`. -/
def storeRunFile (name : String) (payload : Bytes) : Saving Unit := do
  let made ← .query .mkstemp
  let temp ← .lift made
  (writeAndReplace temp.2 temp.1 name payload).recover (removeTemp temp.1)
  syncDirectory

/-- The command line and the runner. -/
inductive Writer where
  | command
  | runner

def Writer.save (name : String) (payload : Bytes) : Writer → Saving Unit
  | .command => saveRunFile name payload
  | .runner => storeRunFile name payload

/-- The runner saves run files that it has found. -/
def Writer.Ready (d : Disk) (name : String) : Writer → Prop
  | .command => True
  | .runner => d.view name ≠ none

/-- The old document or the new one. -/
def OldOrNew (old : Option Bytes) (payload : Bytes) (found : Option Bytes) : Prop :=
  found = old ∨ found = some payload

lemma ne_tempName (name : String) : name ≠ tempName name := by
  intro h
  have hlength := congrArg String.length h
  simp only [tempName,String.length_append] at hlength
  have htemp : (".tmp" : String).length = 4 := rfl
  omega

/-- What holds while a document is saved. What a power loss can leave is good, though it may be
older than what is read. -/
structure Sound (name : String) (good : Option Bytes → Prop) (old : Option Bytes) (payload : Bytes)
    (d : Disk) : Prop where
  intact : d.Intact name good
  separate : d.Separate (tempName name) name
  read : OldOrNew old payload (d.view name)

section Safety
variable {d : Disk} {name temp : String} {file : ℕ} {payload : Bytes} {old : Option Bytes}
  {good : Option Bytes → Prop}

namespace Sound

theorem put (h : Sound name good old payload d) (hapart : d.Apart name file) (bytes : Bytes) :
    Sound name good old payload (d.put file bytes) where
  intact := h.intact.put hapart bytes
  separate := ⟨h.separate.now,h.separate.ever⟩
  read := by
    rw [view_put hapart]
    exact h.read

theorem flush (h : Sound name good old payload d) : Sound name good old payload (d.flush file) where
  intact := h.intact.flush
  separate := ⟨h.separate.now,h.separate.ever⟩
  read := h.read

theorem make (h : Sound name good old payload d) : Sound name good old payload d.make :=
  ⟨h.intact.make,h.separate.make,h.read⟩

theorem settle (h : Sound name good old payload d) : Sound name good old payload d.settle :=
  ⟨h.intact.settle,h.separate.settle,h.read⟩

theorem enter_update (h : Sound name good old payload d) (hne : name ≠ temp) {entry : Option ℕ}
    (hentry : ∀ file, entry = some file → d.Apart name file) :
    Sound name good old payload (d.enter (Function.update d.entries temp entry)) where
  intact := h.intact.enter_update hne entry
  separate := h.separate.enter_update hne hentry
  read := by
    rw [view_enter_update hne]
    exact h.read

/-- A new file under another name. -/
theorem fresh (h : Sound name good old payload d) (hne : name ≠ temp) (hfile : d.Apart name file) :
    Sound name good old payload
      ((d.enter (Function.update d.entries temp (some file))).put file []) := by
  refine (h.enter_update hne ?_).put (hfile.enter_update hne (some file)) []
  rintro other hother
  obtain rfl := Option.some.inj hother
  exact hfile

/-- The synced temporary file takes the run file's name. -/
theorem replace (h : Sound name good old payload d) (hgood : good (some payload))
    (hbytes : d.contents file = payload) (hsynced : d.synced file = true)
    (hother : temp = tempName name ∨ d.entries (tempName name) ≠ some file) :
    Sound name good old payload
      (d.enter (Function.update (Function.update d.entries temp none) name (some file))) := by
  have hview : (d.enter (Function.update (Function.update d.entries temp none) name
      (some file))).view name = some payload := by
    rw [view_enter_self,hbytes]
  refine ⟨h.intact.enter ⟨?_,?_⟩,h.separate.enter ?_,.inr hview⟩
  · rw [← hview] at hgood
    exact hgood
  · intro other hmoved
    rw [Function.update_self] at hmoved
    obtain rfl := Option.some.inj hmoved
    exact hsynced
  · intro other hleft
    rw [Function.update_of_ne (ne_tempName name).symm] at hleft
    rcases eq_or_ne (tempName name) temp with rfl | hne
    · rw [Function.update_self] at hleft
      cases hleft
    · rw [Function.update_of_ne hne] at hleft
      refine ⟨h.separate.now other hleft,?_⟩
      rw [Function.update_self]
      intro hsame
      exact (hother.resolve_left hne.symm) (hleft.trans hsame.symm)

end Sound

/-- The new document is in place, or an error was raised. -/
def Placed (name : String) (payload : Bytes) (r : Except OsError Unit) (d : Disk) : Prop :=
  r = .ok () → d.view name = some payload

/-- The new document is there, and a power loss leaves it or takes the whole directory along, which is
not on the device then; or an error was raised. -/
def Durable (name : String) (payload : Bytes) (r : Except OsError Unit) (d : Disk) : Prop :=
  r = .ok () → d.view name = some payload ∧
    ∀ d', d.Loses d' → d'.view name = some payload ∨ (d.standing ≠ .kept ∧ d'.standing = .missing)

lemma writeAndReplace_safe (hold : Sound name good old payload d) (hgood : good (some payload))
    (hapart : d.Apart name file) (hentry : d.entries temp = some file)
    (hempty : d.contents file = [])
    (hother : temp = tempName name ∨ d.entries (tempName name) ≠ some file) :
    Safe device (Sound name good old payload) (fun _ _ => True) (Placed name payload)
      (writeAndReplace file temp name payload) d := by
  unfold writeAndReplace
  apply Safe.stillQuery device_still hold trivial
  intro written d1 hwrite
  obtain ⟨part,rfl,hpart⟩ : ∃ part, d1 = d.put file part ∧ (written = .ok () → part = payload) := by
    rcases hwrite with ⟨-,rfl⟩ | ⟨e,part,rfl,-,rfl⟩
    · exact ⟨_,rfl,fun _ => by rw [hempty]; rfl⟩
    · exact ⟨_,rfl,fun h => nomatch h⟩
  have h1 := hold.put hapart part
  apply Safe.lift ?_ (fun e _ => Safe.stillRaise device_still h1 (fun h => nomatch h))
  rintro ⟨⟩ rfl
  obtain rfl : payload = part := (hpart rfl).symm
  apply Safe.stillQuery device_still h1 trivial
  intro synced d2 hsync
  have h2 : Sound name good old payload d2 := by
    rcases hsync with ⟨-,rfl⟩ | ⟨e,-,rfl⟩
    · exact h1.flush
    · exact h1
  apply Safe.lift ?_ (fun e _ => Safe.stillRaise device_still h2 (fun h => nomatch h))
  rintro ⟨⟩ rfl
  obtain rfl : d2 = (d.put file payload).flush file := by
    rcases hsync with ⟨-,rfl⟩ | ⟨e,h,-⟩
    · rfl
    · cases h
  apply Safe.stillQuery device_still h2 trivial
  intro replaced d3 hreplace
  rcases hreplace with ⟨rfl,moved,hmoved,rfl⟩ | ⟨e,rfl,rfl⟩
  · obtain rfl : file = moved := Option.some.inj (hentry.symm.trans hmoved)
    have hbytes : ((d.put file payload).flush file).contents file = payload :=
      Function.update_self ..
    refine Safe.stillLift device_still
      (h2.replace hgood hbytes (Function.update_self ..) hother) (fun _ => ?_)
    rw [view_enter_self,hbytes]
  · exact Safe.stillLift device_still h2 (fun h => nomatch h)

/-- A new temporary file, under a name that may be the one the commands use. -/
lemma writeFresh_safe (hold : Sound name good old payload d) (hgood : good (some payload))
    (hne : name ≠ temp) (hfresh : ∀ name, d.Apart name file) :
    Safe device (Sound name good old payload) (fun _ _ => True) (Placed name payload)
      (writeAndReplace file temp name payload)
      ((d.enter (Function.update d.entries temp (some file))).put file []) := by
  have hother : temp = tempName name ∨
      Function.update d.entries temp (some file) (tempName name) ≠ some file := by
    rcases eq_or_ne temp (tempName name) with rfl | htemp
    · exact .inl rfl
    · right
      rw [Function.update_of_ne htemp.symm]
      exact hfresh (tempName name) _ List.mem_cons_self
  exact writeAndReplace_safe (hold.fresh hne (hfresh name)) hgood
    ((hfresh name).enter_update hne (some file)) (Function.update_self ..)
    (Function.update_self ..) hother

lemma syncDirectory_safe (hold : Sound name good old payload d)
    (hview : d.view name = some payload) :
    Safe device (Sound name good old payload) (fun _ _ => True) (Durable name payload)
      syncDirectory d := by
  unfold syncDirectory
  apply Safe.stillQuery device_still hold trivial
  intro synced d1 hsync
  rcases hsync with ⟨rfl,rfl⟩ | ⟨e,rfl,rfl⟩
  · refine Safe.stillLift device_still hold.settle (fun _ => ⟨hview,?_⟩)
    intro d' hl
    exact (hold.intact.lasts hl).imp_left (fun hsame => hsame.trans hview)
  · exact Safe.stillLift device_still hold (fun h => nomatch h)

lemma removeTemp_safe (hold : Sound name good old payload d) (hne : name ≠ temp) (e : OsError) :
    Safe device (Sound name good old payload) (fun _ _ => True) (Placed name payload)
      (removeTemp temp e) d := by
  unfold removeTemp
  apply Safe.stillQuery device_still hold trivial
  intro removed d1 hunlink
  rcases hunlink with ⟨-,rfl⟩ | ⟨_,-,rfl⟩
  · exact Safe.stillRaise device_still (hold.enter_update hne (fun _ h => nomatch h))
      (fun h => nomatch h)
  · exact Safe.stillRaise device_still hold (fun h => nomatch h)

/-- The directory is synced once the document is in place. -/
lemma thenSync_safe {p : Saving Unit}
    (h : Safe device (Sound name good old payload) (fun _ _ => True) (Placed name payload) p d) :
    Safe device (Sound name good old payload) (fun _ _ => True) (Durable name payload)
      (p >>= fun _ => syncDirectory) d :=
  h.andThen (fun _ _ hinv hplaced => syncDirectory_safe hinv (hplaced rfl))
    (fun _ _ _ _ h => nomatch h)

lemma saveRunFile_safe (hold : Sound name good old payload d) (hgood : good (some payload)) :
    Safe device (Sound name good old payload) (fun _ _ => True) (Durable name payload)
      (saveRunFile name payload) d := by
  unfold saveRunFile
  apply Safe.stillQuery device_still hold trivial
  intro made d0 hmkdir
  have hold : Sound name good old payload d0 := by
    rcases hmkdir with ⟨-,rfl⟩ | ⟨e,-,rfl⟩
    · exact hold.make
    · exact hold
  apply Safe.lift ?_ (fun e _ => Safe.stillRaise device_still hold (fun h => nomatch h))
  rintro ⟨⟩ -
  apply Safe.stillQuery device_still hold trivial
  intro created d1 hcreate
  rcases hcreate with ⟨-,file,rfl,⟨hentry,rfl⟩ | ⟨-,hfresh,rfl⟩⟩ | ⟨e,rfl,rfl⟩
  · -- a temporary file that an earlier save left behind is written over
    have hapart := hold.separate.now file hentry
    exact thenSync_safe (writeAndReplace_safe (hold.put hapart []) hgood hapart hentry
      (Function.update_self ..) (.inl rfl))
  · exact thenSync_safe (writeFresh_safe hold hgood (ne_tempName name) hfresh)
  · exact Safe.stillRaise device_still hold (fun h => nomatch h)

lemma storeRunFile_safe (hold : Sound name good old payload d) (hgood : good (some payload))
    (hready : Writer.runner.Ready d name) :
    Safe device (Sound name good old payload) (fun _ _ => True) (Durable name payload)
      (storeRunFile name payload) d := by
  unfold storeRunFile
  apply Safe.stillQuery device_still hold trivial
  intro made d1 hmade
  rcases hmade with ⟨-,temp,file,rfl,hnew,hfresh,rfl⟩ | ⟨e,rfl,rfl⟩
  · have hne : name ≠ temp := by
      rintro rfl
      exact hready (by rw [Disk.view,hnew]; rfl)
    apply thenSync_safe
    apply Safe.recover
    apply (writeFresh_safe hold hgood hne hfresh).weaken
    intro r v hinv hplaced
    cases r with
    | ok u => exact hplaced
    | error e => exact removeTemp_safe hinv hne e
  · apply Safe.stillRaise device_still hold
    rintro ⟨⟩

lemma save_safe (writer : Writer) (hold : Sound name good old payload d)
    (hgood : good (some payload)) (hready : writer.Ready d name) :
    Safe device (Sound name good old payload) (fun _ _ => True) (Durable name payload)
      (writer.save name payload) d := by
  cases writer with
  | command => exact saveRunFile_safe hold hgood
  | runner => exact storeRunFile_safe hold hgood hready

end Safety

/-- The life of a run file: saves of offered documents, each stopped anywhere or run to its end, and
power losses. -/
inductive Life (name : String) (offered : Bytes → Prop) (d₀ : Disk) : Disk → Prop where
  | start : Life name offered d₀ d₀
  | save {d d' : Disk} {rest : Saving Unit} (writer : Writer) (payload : Bytes) :
      Life name offered d₀ d → offered payload → writer.Ready d name →
      Reaches device d (writer.save name payload) d' rest → Life name offered d₀ d'
  | lose {d d' : Disk} : Life name offered d₀ d → d.Loses d' → Life name offered d₀ d'

/-- The document that was there first, or one that was offered since. -/
def Kept (old : Option Bytes) (offered : Bytes → Prop) (found : Option Bytes) : Prop :=
  found = old ∨ ∃ payload, offered payload ∧ found = some payload

lemma Life.sound {name : String} {offered : Bytes → Prop} {d₀ d : Disk} {old : Option Bytes}
    (hstart : d₀.Intact name (fun found => found = old))
    (hseparate : d₀.Separate (tempName name) name) (h : Life name offered d₀ d) :
    d.Intact name (Kept old offered) ∧ d.Separate (tempName name) name := by
  induction h with
  | start => exact ⟨hstart.imp (fun _ => .inl),hseparate⟩
  | save writer payload _ hoffered hready hrun ih =>
    have hinv := ((save_safe writer ⟨ih.1,ih.2,.inl rfl⟩ (.inr ⟨payload,hoffered,rfl⟩)
      hready).reaches hrun).invariant
    exact ⟨hinv.intact,hinv.separate⟩
  | lose _ hl ih => exact ⟨ih.1.loses hl,ih.2.loses hl⟩

/-- Through saves that stop anywhere and power losses, a run file is always a whole document: the
first one or one that was offered. From there a save leaves the document it found or its own; one
that returns has left its own, which a power loss leaves there unless it takes the directory along;
and however it ends, that is an answer to the question that the commands ask. -/
theorem run_file_never_torn {name : String} {offered : Bytes → Prop} {d₀ d : Disk}
    {old : Option Bytes} (hstart : d₀.Intact name (fun found => found = old))
    (hseparate : d₀.Separate (tempName name) name) (hlife : Life name offered d₀ d) :
    Kept old offered (d.view name) ∧
    ∀ (writer : Writer) (payload : Bytes) (d' : Disk) (rest : Saving Unit),
      writer.Ready d name → Reaches device d (writer.save name payload) d' rest →
      OldOrNew (d.view name) payload (d'.view name) ∧
      (rest = .done () → d'.view name = some payload ∧ ∀ d'', d'.Loses d'' →
        d''.view name = some payload ∨ (d'.standing ≠ .kept ∧ d''.standing = .missing)) ∧
      ∀ (P : Program) (read : Bytes → Option Cli.RunManifest) (run : Cli.RunManifest) (w : World) r,
        read payload = some run → w.file = (d.view name).bind read → rest = .lift r →
        answers P (.save run) w (r.mapError OsError.text)
          { w with file := (d'.view name).bind read } := by
  obtain ⟨hintact,hsep⟩ := hlife.sound hstart hseparate
  refine ⟨hintact.view,?_⟩
  intro writer payload d' rest hready hrun
  have hsound : Sound name (fun found => Kept old offered found ∨ found = some payload)
      (d.view name) payload d := ⟨hintact.imp (fun _ => .inl),hsep,.inl rfl⟩
  have hsafe := (save_safe writer hsound (.inr rfl) hready).reaches hrun
  have hread := hsafe.invariant.read
  refine ⟨hread,?_,?_⟩
  · rintro rfl
    exact hsafe.outcome rfl
  · rintro P read run w r hpayload hfile rfl
    have hdurable : Durable name payload r d' := hsafe.ended
    cases r with
    | ok u =>
      have hview : d'.view name = some payload := (hdurable rfl).1
      exact .inl ⟨rfl,by rw [hview,Option.bind_some,hpayload]; rfl⟩
    | error e =>
      refine .inr ⟨e.text,rfl,?_⟩
      rcases hread with hview | hview
      · exact .inl (by rw [hview,← hfile])
      · exact .inr (by rw [hview,Option.bind_some,hpayload]; rfl)

/-- A directory with a run file only. -/
def savedDisk : Disk where
  standing := .kept
  entries name := if name = "run.json" then some 0 else none
  past := []
  contents _ := [1]
  synced file := decide (file = 0)

/-- A save stopped with its temporary file half written does not hinder the next. -/
theorem run_file_never_torn_after_stop :
    ∃ d d', (∃ rest, Reaches device savedDisk (Writer.command.save "run.json" [2,3]) d rest) ∧
      d.entries (tempName "run.json") = some 1 ∧ d.view "run.json" = some [1] ∧
      Reaches device d (Writer.command.save "run.json" [4]) d' (.done ()) ∧
      ∀ d'', d'.Loses d'' → d''.view "run.json" = some [4] := by
  have hstart : savedDisk.Intact "run.json" (fun found => found = some [1]) := by
    intro dir hdir
    obtain rfl := List.mem_singleton.mp hdir
    refine ⟨rfl,?_⟩
    rintro file hfile
    obtain rfl : 0 = file := Option.some.inj hfile
    rfl
  have hseparate : savedDisk.Separate (tempName "run.json") "run.json" := by
    constructor
    · intro file hfile
      cases hfile
    · intro dir hdir file hfile
      obtain rfl := List.mem_singleton.mp hdir
      cases hfile
  have hfresh : ∀ name, savedDisk.make.Apart name 1 := by
    intro name dir hdir
    rw [make_directories] at hdir
    obtain rfl := List.mem_singleton.mp hdir
    simp only [savedDisk]
    split <;> simp
  obtain ⟨d,rest,hstop,hentry,hview,hkept⟩ : ∃ d rest, Reaches device savedDisk
      (Writer.command.save "run.json" [2,3]) d rest ∧
      d.entries (tempName "run.json") = some 1 ∧ d.view "run.json" = some [1] ∧
      d.standing = .kept :=
    ⟨_,_,.step (a := .ok ()) (.inl ⟨rfl,rfl⟩) <|
      .step (a := .ok 1) (.inl ⟨by decide,1,rfl,.inr ⟨rfl,hfresh,rfl⟩⟩) <|
      .step (a := .ok ()) (.inl ⟨rfl,rfl⟩) .start,rfl,rfl,rfl⟩
  have hthere : d.make.standing ≠ .missing := by simp [make,hkept]
  obtain ⟨d',hrun,hkept'⟩ : ∃ d', Reaches device d (Writer.command.save "run.json" [4]) d'
      (.done ()) ∧ d'.standing = d.make.standing :=
    ⟨_,.step (a := .ok ()) (.inl ⟨rfl,rfl⟩) <|
      .step (a := .ok 1) (.inl ⟨hthere,1,rfl,.inl ⟨hentry,rfl⟩⟩) <|
      .step (a := .ok ()) (.inl ⟨rfl,rfl⟩) <| .step (a := .ok ()) (.inl ⟨rfl,rfl⟩) <|
      .step (a := .ok ()) (.inl ⟨rfl,1,hentry,rfl⟩) <|
      .step (a := .ok ()) (.inl ⟨rfl,rfl⟩) .start,rfl⟩
  have hlife : Life "run.json" (fun payload => payload = [2,3]) savedDisk d :=
    .save .command [2,3] .start rfl trivial hstop
  have hnext := (run_file_never_torn hstart hseparate hlife).2 .command [4] d' _ trivial hrun
  refine ⟨d,d',⟨rest,hstop⟩,hentry,hview,hrun,?_⟩
  intro d'' hl
  refine ((hnext.2.1 rfl).2 d'' hl).resolve_right ?_
  rintro ⟨hlost,-⟩
  exact hlost (hkept'.trans (by simp [make,hkept]))

end Kswarm.Lifecycle
