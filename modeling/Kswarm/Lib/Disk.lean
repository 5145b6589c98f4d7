import Kswarm.Lib.Process
import Kswarm.Lib.Sha256
import Mathlib.Logic.Function.Basic

/-! A directory on a device that can lose power. What is written goes to a cache first: the bytes
of a file are on the device once the file is synced, and its names once the directory is. A power
loss leaves some directory since the last sync, and anything at all in files not synced; and a
directory that was made since the last one may be gone, since nothing syncs its own entry. -/
namespace Kswarm

/-- Which file a name is for. -/
abbrev Directory := String → Option ℕ

/-- The directory itself: not there, made since the last power loss, or on the device. -/
inductive Standing where
  | missing
  | made
  | kept
  deriving DecidableEq

structure Disk where
  standing : Standing
  entries : Directory
  /-- The directories before this one, back to the last sync. -/
  past : List Directory
  contents : ℕ → Bytes
  synced : ℕ → Bool

namespace Disk
variable {d : Disk} {name : String} {file : ℕ} {good other : Option Bytes → Prop}

/-- The directories that a power loss can leave; none at all counts as the empty one. -/
def directories (d : Disk) : List Directory :=
  d.entries :: (d.past ++ if d.standing = .kept then [] else [fun _ => none])

/-- What a reader finds under a name. -/
def view (d : Disk) (name : String) : Option Bytes := (d.entries name).map d.contents

/-- What a power loss can leave: some directory, or none where it is not on the device, and of every
file what was synced of it. -/
def Loses (d d' : Disk) : Prop :=
  ((d'.standing = .kept ∧ d.standing ≠ .missing ∧ d'.entries ∈ d.entries :: d.past) ∨
    (d'.standing = .missing ∧ d.standing ≠ .kept ∧ d'.entries = fun _ => none)) ∧
    d'.past = [] ∧ (∀ file, d.synced file = true → d'.contents file = d.contents file) ∧
    ∀ file, d'.synced file = true

/-- Making the directory, where it is not there. -/
def make (d : Disk) : Disk :=
  { d with standing := if d.standing = .missing then .made else d.standing }

def enter (d : Disk) (dir : Directory) : Disk :=
  { d with entries := dir, past := d.entries :: d.past }

def put (d : Disk) (file : ℕ) (bytes : Bytes) : Disk :=
  { d with
    contents := Function.update d.contents file bytes
    synced := Function.update d.synced file false }

def flush (d : Disk) (file : ℕ) : Disk := { d with synced := Function.update d.synced file true }

def settle (d : Disk) : Disk := { d with past := [] }

@[simp] lemma make_directories (d : Disk) : d.make.directories = d.directories := by
  cases h : d.standing <;> simp [make,directories,h]
@[simp] lemma put_contents (d : Disk) (file : ℕ) (bytes : Bytes) :
    (d.put file bytes).contents = Function.update d.contents file bytes := rfl
@[simp] lemma put_synced (d : Disk) (file : ℕ) (bytes : Bytes) :
    (d.put file bytes).synced = Function.update d.synced file false := rfl
@[simp] lemma flush_synced (d : Disk) (file : ℕ) :
    (d.flush file).synced = Function.update d.synced file true := rfl
@[simp] lemma enter_entries (d : Disk) (dir : Directory) : (d.enter dir).entries = dir := rfl

lemma entries_mem (d : Disk) : d.entries ∈ d.directories := List.mem_cons_self

lemma mem_of_settle {dir : Directory} (h : dir ∈ d.settle.directories) : dir ∈ d.directories := by
  rcases List.mem_cons.mp h with rfl | h
  · exact d.entries_mem
  · exact List.mem_cons_of_mem _ (List.mem_append_right _ h)

/-- Only what could be left is left. -/
lemma Loses.mem {d' : Disk} (h : d.Loses d') : d'.entries ∈ d.directories := by
  rcases h.1 with ⟨-,-,hmem⟩ | ⟨-,hkept,hempty⟩
  · rw [directories,← List.cons_append]
    exact List.mem_append_left _ hmem
  · rw [directories,if_neg hkept,hempty]
    simp

/-- After a power loss there is one directory. -/
lemma Loses.only {d' : Disk} (h : d.Loses d') {dir : Directory} (hdir : dir ∈ d'.directories) :
    dir = d'.entries := by
  rcases List.mem_cons.mp hdir with rfl | hdir
  · rfl
  · rw [h.2.1,List.nil_append] at hdir
    rcases h.1 with ⟨hkept,-,-⟩ | ⟨-,-,hempty⟩
    · simp [hkept] at hdir
    · split at hdir
      · cases hdir
      · rw [List.mem_singleton.mp hdir,hempty]

/-- No directory has the file under this name. -/
def Apart (d : Disk) (name : String) (file : ℕ) : Prop :=
  ∀ dir ∈ d.directories, dir name ≠ some file

/-- The file of one name is not, and under no directory was, the file of the other as well. -/
structure Separate (d : Disk) (temp name : String) : Prop where
  now : ∀ file, d.entries temp = some file → d.Apart name file
  ever : ∀ dir ∈ d.directories, ∀ file, dir temp = some file → dir name ≠ some file

/-- The calls of an operating system. -/
inductive Op where
  | mkdir
  | create (name : String)
  | mkstemp
  | write (file : ℕ) (bytes : Bytes)
  | fsync (file : ℕ)
  | replace (source target : String)
  | unlink (name : String)
  | fsyncDirectory

inductive OsError where
  | notFound
  | other (text : String)

def OsError.text : OsError → String
  | .notFound => "No such file or directory"
  | .other text => text

@[reducible] def Ans : Op → Type
  | .create _ => Except OsError ℕ
  | .mkstemp => Except OsError (String × ℕ)
  | _ => Except OsError Unit

/-- The effect of a call that succeeds. A file that is opened to be written is emptied, and a new
one is in no directory yet. -/
def Succeeds (d : Disk) : (o : Op) → Ans o → Disk → Prop
  | .mkdir,answer,d' => answer = .ok () ∧ d' = d.make
  | .create name,answer,d' => d.standing ≠ .missing ∧ ∃ file, answer = .ok file ∧
      ((d.entries name = some file ∧ d' = d.put file []) ∨
        d.entries name = none ∧ (∀ name, d.Apart name file) ∧
          d' = (d.enter (Function.update d.entries name (some file))).put file [])
  | .mkstemp,answer,d' => d.standing ≠ .missing ∧ ∃ name file, answer = .ok (name,file) ∧
      d.entries name = none ∧ (∀ name, d.Apart name file) ∧
      d' = (d.enter (Function.update d.entries name (some file))).put file []
  | .write file bytes,answer,d' => answer = .ok () ∧ d' = d.put file (d.contents file ++ bytes)
  | .fsync file,answer,d' => answer = .ok () ∧ d' = d.flush file
  | .replace source target,answer,d' => answer = .ok () ∧ ∃ file, d.entries source = some file ∧
      d' = d.enter (Function.update (Function.update d.entries source none) target (some file))
  | .unlink name,answer,d' => answer = .ok () ∧
      d' = d.enter (Function.update d.entries name none)
  | .fsyncDirectory,answer,d' => answer = .ok () ∧ d' = d.settle

/-- A call that fails changes nothing, except that a write may have come part of the way. -/
def Fails (d : Disk) : (o : Op) → Ans o → Disk → Prop
  | .mkdir,answer,d' => ∃ e, answer = .error e ∧ d' = d
  | .create _,answer,d' => ∃ e, answer = .error e ∧ d' = d
  | .mkstemp,answer,d' => ∃ e, answer = .error e ∧ d' = d
  | .write file bytes,answer,d' => ∃ e part, answer = .error e ∧ part <+: bytes ∧
      d' = d.put file (d.contents file ++ part)
  | .fsync _,answer,d' => ∃ e, answer = .error e ∧ d' = d
  | .replace _ _,answer,d' => ∃ e, answer = .error e ∧ d' = d
  | .unlink _,answer,d' => ∃ e, answer = .error e ∧ d' = d
  | .fsyncDirectory,answer,d' => ∃ e, answer = .error e ∧ d' = d

/-- The device, used by one program. -/
def device : Service Op Ans Disk where
  serves o d answer d' := d.Succeeds o answer d' ∨ d.Fails o answer d'
  drifts d d' := d = d'
  drifts_refl _ := rfl
  drifts_trans _ _ _ h h' := h.trans h'

lemma device_still : device.Still := fun _ _ h => h

/-- Under every directory that can be left, the name is for a synced file or for none, with contents
of a good kind. -/
def Intact (d : Disk) (name : String) (good : Option Bytes → Prop) : Prop :=
  ∀ dir ∈ d.directories, good ((dir name).map d.contents) ∧
    ∀ file, dir name = some file → d.synced file = true

namespace Intact

theorem imp (h : d.Intact name good) (hgood : ∀ v, good v → other v) : d.Intact name other :=
  fun dir hdir => ⟨hgood _ (h dir hdir).1,(h dir hdir).2⟩

/-- What is read is good. -/
theorem view (h : d.Intact name good) : good (d.view name) := (h _ List.mem_cons_self).1

/-- What a power loss leaves is good, and is on the device. -/
theorem loses (h : d.Intact name good) {d' : Disk} (hl : d.Loses d') : d'.Intact name good := by
  obtain ⟨hcontents,hsynced⟩ := hl.2.2
  intro dir hmem
  obtain rfl := hl.only hmem
  obtain ⟨hgood,hfiles⟩ := h _ hl.mem
  refine ⟨?_,fun file _ => hsynced file⟩
  cases hname : d'.entries name with
  | none => simpa [hname] using hgood
  | some file => simpa [hname,hcontents file (hfiles file hname)] using hgood

/-- Writing to a file that the name was never for. -/
theorem put (h : d.Intact name good) (hapart : d.Apart name file) (bytes : Bytes) :
    (d.put file bytes).Intact name good := by
  intro dir hdir
  obtain ⟨hgood,hsynced⟩ := h dir hdir
  have hne : ∀ other, dir name = some other → other ≠ file := by
    rintro other hother rfl
    exact hapart dir hdir hother
  constructor
  · cases hname : dir name with
    | none => simpa [hname] using hgood
    | some other => simpa [hname,Function.update_of_ne (hne other hname)] using hgood
  · intro other hother
    rw [put_synced,Function.update_of_ne (hne other hother)]
    exact hsynced other hother

theorem flush (h : d.Intact name good) : (d.flush file).Intact name good := by
  intro dir hdir
  refine ⟨(h dir hdir).1,?_⟩
  intro other hother
  rcases eq_or_ne other file with rfl | hne
  · exact Function.update_self ..
  · rw [flush_synced,Function.update_of_ne hne]
    exact (h dir hdir).2 other hother

theorem enter (h : d.Intact name good) {dir : Directory}
    (hnew : good ((dir name).map d.contents) ∧
      ∀ file, dir name = some file → d.synced file = true) :
    (d.enter dir).Intact name good := by
  intro dir' hdir
  rcases List.mem_cons.mp hdir with rfl | hdir
  · exact hnew
  · exact h dir' hdir

/-- Another name may come and go. -/
theorem enter_update (h : d.Intact name good) {temp : String} (hne : name ≠ temp)
    (entry : Option ℕ) : (d.enter (Function.update d.entries temp entry)).Intact name good := by
  apply h.enter
  rw [Function.update_of_ne hne]
  exact h _ List.mem_cons_self

/-- Syncing the directory forgets the ones before it. -/
theorem settle (h : d.Intact name good) : d.settle.Intact name good :=
  fun dir hdir => h dir (mem_of_settle hdir)

theorem make (h : d.Intact name good) : d.make.Intact name good := by
  intro dir hdir
  rw [make_directories] at hdir
  exact h dir hdir

/-- Once the directory is synced, a power loss leaves what is there, or takes a directory along that
is not on the device. -/
theorem lasts (h : d.Intact name good) {d' : Disk} (hl : d.settle.Loses d') :
    d'.view name = d.view name ∨ (d.standing ≠ .kept ∧ d'.standing = .missing) := by
  obtain ⟨hstanding,-,hcontents,-⟩ := hl
  rcases hstanding with ⟨-,-,hentries⟩ | ⟨hmissing,hnew,-⟩
  · left
    have hsame : d'.entries = d.entries := List.mem_singleton.mp hentries
    rw [Disk.view,Disk.view,hsame]
    cases hname : d.entries name with
    | none => rfl
    | some file => exact congrArg some (hcontents file ((h _ d.entries_mem).2 file hname))
  · exact .inr ⟨hnew,hmissing⟩

end Intact

lemma view_put (h : d.Apart name file) (bytes : Bytes) :
    (d.put file bytes).view name = d.view name := by
  have hne : d.entries name ≠ some file := h _ List.mem_cons_self
  change (d.entries name).map (Function.update d.contents file bytes) =
    (d.entries name).map d.contents
  cases hname : d.entries name with
  | none => rfl
  | some other =>
    have hother : other ≠ file := by
      rintro rfl
      exact hne hname
    simp [Function.update_of_ne hother]

lemma view_enter_update {temp : String} (hne : name ≠ temp) (entry : Option ℕ) :
    (d.enter (Function.update d.entries temp entry)).view name = d.view name := by
  change (Function.update d.entries temp entry name).map d.contents = _
  rw [Function.update_of_ne hne]
  rfl

/-- A name is read in the file that it was given. -/
lemma view_enter_self (dir : Directory) :
    (d.enter (Function.update dir name (some file))).view name = some (d.contents file) := by
  rw [view,enter_entries,Function.update_self]
  rfl

/-- A file under another name. -/
lemma Apart.enter_update (h : d.Apart name file) {temp : String} (hne : name ≠ temp)
    (entry : Option ℕ) : (d.enter (Function.update d.entries temp entry)).Apart name file := by
  intro dir hdir
  rcases List.mem_cons.mp hdir with rfl | hdir
  · rw [enter_entries,Function.update_of_ne hne]
    exact h _ List.mem_cons_self
  · exact h dir hdir

namespace Separate
variable {temp : String}

theorem loses (h : d.Separate temp name) {d' : Disk} (hl : d.Loses d') : d'.Separate temp name := by
  have hnow := h.ever _ hl.mem
  constructor
  · intro file hfile dir hmem
    obtain rfl := hl.only hmem
    exact hnow file hfile
  · intro dir hmem
    obtain rfl := hl.only hmem
    exact hnow

theorem make (h : d.Separate temp name) : d.make.Separate temp name := by
  constructor
  · intro file hfile dir hdir
    rw [make_directories] at hdir
    exact h.now file hfile dir hdir
  · intro dir hdir
    rw [make_directories] at hdir
    exact h.ever dir hdir

/-- A directory whose entries are separate follows. -/
theorem enter (h : d.Separate temp name) {dir : Directory}
    (hnew : ∀ file, dir temp = some file → d.Apart name file ∧ dir name ≠ some file) :
    (d.enter dir).Separate temp name := by
  constructor
  · intro file hfile dir' hmem
    rcases List.mem_cons.mp hmem with rfl | hmem
    · exact (hnew file hfile).2
    · exact (hnew file hfile).1 dir' hmem
  · intro dir' hmem file hfile
    rcases List.mem_cons.mp hmem with rfl | hmem
    · exact (hnew file hfile).2
    · exact h.ever dir' hmem file hfile

/-- A third name, or the first, comes for a file that the second never had, or goes. -/
theorem enter_update (h : d.Separate temp name) {other : String} (hne : name ≠ other)
    {entry : Option ℕ} (hentry : ∀ file, entry = some file → d.Apart name file) :
    (d.enter (Function.update d.entries other entry)).Separate temp name := by
  apply h.enter
  intro file hfile
  have hapart : d.Apart name file := by
    rcases eq_or_ne temp other with rfl | hother
    · rw [Function.update_self] at hfile
      exact hentry file hfile
    · rw [Function.update_of_ne hother] at hfile
      exact h.now file hfile
  refine ⟨hapart,?_⟩
  rw [Function.update_of_ne hne]
  exact hapart _ List.mem_cons_self

theorem settle (h : d.Separate temp name) : d.settle.Separate temp name := by
  constructor
  · exact fun file hfile dir hdir => h.now file hfile dir (mem_of_settle hdir)
  · exact fun dir hdir => h.ever dir (mem_of_settle hdir)

end Separate

end Disk
end Kswarm
