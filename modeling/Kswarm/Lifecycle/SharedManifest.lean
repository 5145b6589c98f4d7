import Kswarm.Lib.Interleaving
import Kswarm.Lifecycle.Resume
import Kswarm.Settlement.SubmittedReceipt

/-! The run file between the commands and the aggregate runner. Each side loads the whole document
and later writes it back whole, and only the runner takes the lock, so a side that writes over what
the other wrote since it loaded loses it; where that does not happen nothing is lost. -/
namespace Kswarm.Lifecycle
open Cli Worker

section Table

/-- The two writers of a run file. -/
inductive Side where
  | cli
  | runner
  deriving DecidableEq

def Side.other : Side → Side
  | .cli => .runner
  | .runner => .cli

@[simp] theorem Side.other_other (side : Side) : side.other.other = side := by cases side <;> rfl
@[simp] theorem Side.other_ne (side : Side) : side.other ≠ side := by cases side <;> decide
@[simp] theorem Side.ne_other (side : Side) : side ≠ side.other := by cases side <;> decide

lemma Side.eq_other {side side' : Side} (h : side' ≠ side) : side' = side.other := by
  cases side <;> cases side' <;> simp_all [Side.other]

/-- The documents agree on what a side records: the runner its own keys, the commands the rest. -/
def SameFields : Side → RunManifest → RunManifest → Prop
  | .cli,m,m' => {m with record := {}} = {m' with record := {}}
  | .runner,m,m' => m.record = m'.record

lemma SameFields.refl (side : Side) (m : RunManifest) : SameFields side m m := by
  cases side <;> rfl

lemma SameFields.symm {side : Side} {m m' : RunManifest} (h : SameFields side m m') :
    SameFields side m' m := by
  cases side <;> exact Eq.symm h

lemma SameFields.trans {side : Side} {m m' m'' : RunManifest} (h : SameFields side m m')
    (h' : SameFields side m' m'') : SameFields side m m'' := by
  cases side <;> exact Eq.trans h h'

/-- How far a status has come. -/
def stage : EntryStatus → ℕ
  | .jobOpened => 1
  | .jobCommitted => 2
  | .jobCancelled => 3
  | _ => 0

/-- An entry that is as it was or has come further: it keeps the signatures of its steps. -/
structure Advanced (e e' : JobEntry) : Prop where
  terms : terms e' = terms e
  status : e'.entryStatus = e.entryStatus ∨ stage e.entryStatus < stage e'.entryStatus
  opened : stage .jobOpened ≤ stage e.entryStatus → e'.openSignature = e.openSignature
  committed : stage .jobCommitted ≤ stage e.entryStatus → e'.commitSignature = e.commitSignature

namespace Advanced
variable {e e' e'' : JobEntry}

lemma refl (e : JobEntry) : Advanced e e := ⟨rfl,.inl rfl,fun _ => rfl,fun _ => rfl⟩

lemma stage_le (h : Advanced e e') : stage e.entryStatus ≤ stage e'.entryStatus := by
  rcases h.status with hs | hs
  · rw [hs]
  · exact hs.le

lemma trans (h : Advanced e e') (h' : Advanced e' e'') : Advanced e e'' where
  terms := h'.terms.trans h.terms
  status := by
    rcases h.status with hs | hs
    · rcases h'.status with hs' | hs'
      · exact .inl (hs'.trans hs)
      · exact .inr (hs ▸ hs')
    · exact .inr (hs.trans_le h'.stage_le)
  opened hstage := (h'.opened (hstage.trans h.stage_le)).trans (h.opened hstage)
  committed hstage := (h'.committed (hstage.trans h.stage_le)).trans (h.committed hstage)

end Advanced

/-- A value that was put on record is still there. -/
def Stays {α : Type} (loaded saved final : α) : Prop := saved ≠ loaded → final = saved

lemma Stays.refl {α : Type} (loaded saved : α) : Stays loaded saved saved := fun _ => rfl

lemma Stays.unsaved {α : Type} (loaded final : α) : Stays loaded loaded final := fun h => absurd rfl h

/-- The runner's keys that a save put on record, over what was loaded, are still there. -/
structure Recorded (loaded saved final : RunnerRecord) : Prop where
  claimed : Stays loaded.aggregateClaimedAtUnix saved.aggregateClaimedAtUnix
    final.aggregateClaimedAtUnix
  submitted : Stays loaded.aggregateSubmitted saved.aggregateSubmitted final.aggregateSubmitted
  outputCid : Stays loaded.aggregateOutputCid saved.aggregateOutputCid final.aggregateOutputCid
  resultHash : Stays loaded.aggregateResultHash saved.aggregateResultHash final.aggregateResultHash
  journal : Stays loaded.aggregateJournal saved.aggregateJournal final.aggregateJournal
  execution : Stays loaded.aggregateBonsolExecution saved.aggregateBonsolExecution
    final.aggregateBonsolExecution

lemma Recorded.refl (loaded saved : RunnerRecord) : Recorded loaded saved saved :=
  ⟨.refl _ _,.refl _ _,.refl _ _,.refl _ _,.refl _ _,.refl _ _⟩

/-- What a side put on record with a save is in a later document: the runner its keys, the commands
the status and the signatures of every entry, which may have come further since. -/
def Retains : Side → RunManifest → RunManifest → RunManifest → Prop
  | .cli,_,saved,final => List.Forall₂ Advanced saved.runJobEntries final.runJobEntries
  | .runner,loaded,saved,final => Recorded loaded.record saved.record final.record

lemma Retains.refl (side : Side) (loaded saved : RunManifest) :
    Retains side loaded saved saved := by
  cases side with
  | cli => exact List.forall₂_same.mpr (fun e _ => Advanced.refl e)
  | runner => exact Recorded.refl _ _

lemma Retains.same {side : Side} {loaded saved last final : RunManifest}
    (h : Retains side loaded saved last) (hs : SameFields side last final) :
    Retains side loaded saved final := by
  cases side with
  | cli =>
    have hsame : {last with record := {}} = {final with record := {}} := hs
    have hentries : final.runJobEntries = last.runJobEntries := by
      have hlists := congrArg RunManifest.runJobEntries hsame
      exact hlists.symm
    change List.Forall₂ Advanced _ _
    rw [hentries]
    exact h
  | runner =>
    have hrecord : last.record = final.record := hs
    change Recorded _ _ final.record
    rw [← hrecord]
    exact h

/-- What a side loaded last and every document it wrote. -/
structure Memory where
  loaded : Option RunManifest
  written : List RunManifest

def Memory.saves (l : Memory) (run : RunManifest) : Memory := {l with written := l.written ++ [run]}

/-- The memory of a side, and whether the other wrote since it loaded. -/
structure Seat extends Memory where
  stale : Bool

/-- The world with what the two sides did to the run file. -/
structure Table where
  world : World
  seat : Side → Seat

namespace Table

def loads (t : Table) (side : Side) : Table where
  world := t.world
  seat := Function.update t.seat side {t.seat side with loaded := t.world.file, stale := false}

def writes (t : Table) (side : Side) (run : RunManifest) : Table where
  world := t.world.store run
  seat := Function.update (Function.update t.seat side
    {t.seat side with written := (t.seat side).written ++ [run]})
    side.other {t.seat side.other with stale := true}

/-- Nobody touched the file yet. -/
def start (w : World) : Table := ⟨w,fun _ => ⟨⟨none,[]⟩,false⟩⟩

variable {t : Table} {side side' : Side} {run : RunManifest}

@[simp] theorem loads_world : (t.loads side).world = t.world := rfl
@[simp] theorem writes_world : (t.writes side run).world = t.world.store run := rfl

@[simp] theorem loads_self : (t.loads side).seat side =
    {t.seat side with loaded := t.world.file, stale := false} := Function.update_self _ _ _

@[simp] theorem loads_of_ne (h : side' ≠ side) : (t.loads side).seat side' = t.seat side' :=
  Function.update_of_ne h _ _

@[simp] theorem writes_self : (t.writes side run).seat side =
    {t.seat side with written := (t.seat side).written ++ [run]} :=
  (Function.update_of_ne (Side.ne_other side) _ _).trans (Function.update_self _ _ _)

@[simp] theorem writes_other : (t.writes side run).seat side.other =
    {t.seat side.other with stale := true} := Function.update_self _ _ _

end Table

/-- A question of one side. A write takes place if it is `allowed` for a side that is stale or
not; a write that raises may have taken place. -/
def turn (P : Program) (allowed : Bool → Prop) (side : Side) : (o : Op) → Table → Ans o → Table → Prop
  | .load,t,answer,t' => answer = t.world.file ∧ t' = t.loads side
  | .save run,t,answer,t' => (allowed (t.seat side).stale ∧ t' = t.writes side run) ∨
      ∃ text : String, answer = .error text ∧ t' = t
  | o,t,answer,t' => ∃ w, answers P o t.world answer w ∧ t' = {t with world := w}

/-- One side of the table. Everything but the file may change at any time. -/
def seatService (P : Program) (allowed : Bool → Prop) (side : Side) : Service Op Ans Table where
  serves := turn P allowed side
  drifts t t' := t'.seat = t.seat ∧ t'.world.file = t.world.file
  drifts_refl _ := ⟨rfl,rfl⟩
  drifts_trans _ _ _ h h' := ⟨h'.1.trans h.1,h'.2.trans h.2⟩

/-- Only a save touches the file. -/
lemma answers_file {P : Program} {o : Op} {w v : World} {a : Ans o} (h : answers P o w a v)
    (ho : ∀ run, o ≠ .save run) : v.file = w.file := by
  cases o with
  | save run => exact absurd rfl (ho run)
  | send transaction =>
    rcases h with ⟨_,_,c,-,rfl⟩ | ⟨_,_,rfl | ⟨c,-,rfl⟩⟩ <;> rfl
  | load =>
    obtain ⟨_,rfl⟩ := h
    rfl
  | fetchJob job =>
    obtain ⟨rfl,_⟩ := h
    rfl
  | accountInfos jobs =>
    obtain ⟨rfl,_⟩ := h
    rfl
  | hook command payload =>
    obtain rfl : v = _ := h
    rfl
  | _ =>
    obtain rfl : v = w := h
    rfl

/-- What a side loaded and nobody overwrote is still what the file has of the other side, what a
side wrote last is what the file has of it, and its last document retains what it put on record. -/
structure Coherent (t : Table) : Prop where
  fresh : ∀ side m, (t.seat side).stale = false → (t.seat side).loaded = some m →
    ∃ f, t.world.file = some f ∧ SameFields side.other m f
  kept : ∀ side d, (t.seat side).written.getLast? = some d →
    ∃ f, t.world.file = some f ∧ SameFields side d f
  retained : ∀ side, ∀ d ∈ (t.seat side).written, ∃ m last, (t.seat side).loaded = some m ∧
    (t.seat side).written.getLast? = some last ∧ Retains side m d last

namespace Coherent
variable {t t' : Table} {side : Side}

lemma start (w : World) : Coherent (.start w) :=
  ⟨by simp [Table.start],by simp [Table.start],by simp [Table.start]⟩

lemma same (h : Coherent t) (hseat : t'.seat = t.seat) (hfile : t'.world.file = t.world.file) :
    Coherent t' := by
  constructor
  · rw [hseat,hfile]
    exact h.fresh
  · rw [hseat,hfile]
    exact h.kept
  · rw [hseat]
    exact h.retained

/-- A side loads before it writes. -/
lemma loads (h : Coherent t) (hfirst : (t.seat side).written = []) : Coherent (t.loads side) := by
  constructor
  · intro side' m hfresh hloaded
    by_cases hs : side' = side
    · subst hs
      rw [Table.loads_self] at hloaded
      exact ⟨m,hloaded,.refl _ m⟩
    · rw [Table.loads_of_ne hs] at hfresh hloaded
      exact h.fresh side' m hfresh hloaded
  · intro side' d hwritten
    apply h.kept side' d
    by_cases hs : side' = side
    · subst hs
      rwa [Table.loads_self] at hwritten
    · rwa [Table.loads_of_ne hs] at hwritten
  · intro side' d hd
    by_cases hs : side' = side
    · subst hs
      rw [Table.loads_self] at hd
      simp [hfirst] at hd
    · rw [Table.loads_of_ne hs] at hd ⊢
      exact h.retained side' d hd

/-- A save of what is not stale, that keeps the other side's fields and retains what its own side
put on record, loses nothing. -/
lemma writes {run m : RunManifest} (h : Coherent t) (hfresh : (t.seat side).stale = false)
    (hloaded : (t.seat side).loaded = some m) (hkeeps : SameFields side.other m run)
    (hretains : ∀ d ∈ (t.seat side).written, Retains side m d run) :
    Coherent (t.writes side run) := by
  constructor
  · intro side' m' hfresh' hloaded'
    refine ⟨run,rfl,?_⟩
    by_cases hs : side' = side
    · subst hs
      rw [Table.writes_self] at hloaded'
      obtain rfl := Option.some.inj (hloaded.symm.trans hloaded')
      exact hkeeps
    · obtain rfl := Side.eq_other hs
      simp at hfresh'
  · intro side' d hwritten
    refine ⟨run,rfl,?_⟩
    by_cases hs : side' = side
    · subst hs
      rw [Table.writes_self,List.getLast?_concat] at hwritten
      obtain rfl := Option.some.inj hwritten
      exact .refl _ _
    · obtain rfl := Side.eq_other hs
      rw [Table.writes_other] at hwritten
      obtain ⟨f,hfile,hd⟩ := h.kept _ d hwritten
      obtain ⟨f',hfile',hm⟩ := h.fresh side m hfresh hloaded
      obtain rfl := Option.some.inj (hfile.symm.trans hfile')
      exact hd.trans (hm.symm.trans hkeeps)
  · intro side' d hd
    by_cases hs : side' = side
    · subst hs
      rw [Table.writes_self] at hd ⊢
      refine ⟨m,run,hloaded,List.getLast?_concat,?_⟩
      rcases List.mem_append.mp hd with hold | hnew
      · exact hretains d hold
      · obtain rfl := List.mem_singleton.mp hnew
        exact .refl _ _ _
    · obtain rfl := Side.eq_other hs
      rw [Table.writes_other] at hd ⊢
      exact h.retained _ d hd

/-- Everything a side put on record is in the file. -/
lemma recorded (h : Coherent t) {d : RunManifest} (hd : d ∈ (t.seat side).written) :
    ∃ m f, (t.seat side).loaded = some m ∧ t.world.file = some f ∧ Retains side m d f := by
  obtain ⟨m,last,hloaded,hlast,hretains⟩ := h.retained side d hd
  obtain ⟨f,hfile,hsame⟩ := h.kept side last hlast
  exact ⟨m,f,hloaded,hfile,hretains.same hsame⟩

end Coherent

end Table

section Frames
variable {ε α β : Type} {side : Side} {l : Memory}

/-- The memory of one side: the document it loaded last and those it wrote. A write that raises
may have taken place. -/
def remembers : Service Op Ans Memory where
  serves
    | .load,l,answer,l' => l' = {l with loaded := answer}
    | .save run,l,answer,l' => l' = l.saves run ∨ ∃ text : String, answer = .error text ∧ l' = l
    | _,l,_,l' => l' = l
  drifts := Eq
  drifts_refl _ := rfl
  drifts_trans _ _ _ := Eq.trans

/-- A side loads first, and saves the other's fields as it loaded them and its own with all it put on
record. -/
def keepsRecords (side : Side) : Op → Memory → Prop
  | .load,l => l.written = []
  | .save run,l => ∃ m, l.loaded = some m ∧ SameFields side.other m run ∧
      ∀ d ∈ l.written, Retains side m d run
  | _,_ => True

/-- The program keeps the other side's fields, and what it put on record, in everything it saves. -/
abbrev Frames (side : Side) (p : Process Op Ans ε α) (l : Memory) (post : α → Memory → Prop) : Prop :=
  Safe remembers (fun _ => True) (keepsRecords side) (fun r l' => ∀ a, r = .ok a → post a l') p l

namespace Frames

lemma done {a : α} {post : α → Memory → Prop} (h : post a l) :
    Frames side (.done a : Process Op Ans ε α) l post := by
  intro l' hd
  obtain rfl : l = l' := hd
  refine ⟨trivial,?_⟩
  intro a' ha'
  obtain rfl := Except.ok.inj ha'
  exact h

lemma raise {e : ε} {post : α → Memory → Prop} :
    Frames side (.raise e : Process Op Ans ε α) l post := by
  intro l' hd
  exact ⟨trivial,by simp⟩

lemma lift {x : Except ε α} {f : α → Process Op Ans ε β} {post : β → Memory → Prop}
    (h : ∀ a, x = .ok a → Frames side (f a) l post) :
    Frames side (Process.lift x >>= f) l post :=
  Safe.lift h (fun _ _ => raise)

/-- A question that is neither a load nor a save. -/
lemma query {o : Op} {f : Ans o → Process Op Ans ε β} {post : β → Memory → Prop}
    (hmay : keepsRecords side o l) (hquiet : ∀ a l', remembers.serves o l a l' → l' = l)
    (h : ∀ a, Frames side (f a) l post) : Frames side (Process.query o >>= f) l post := by
  intro l' hd
  obtain rfl : l = l' := hd
  refine ⟨trivial,hmay,?_⟩
  intro a u hs
  obtain rfl := hquiet a u hs
  exact h a

lemma load {f : Option RunManifest → Process Op Ans ε β} {post : β → Memory → Prop}
    (hfirst : l.written = []) (h : ∀ file, Frames side (f file) ⟨file,[]⟩ post) :
    Frames side (Process.query Op.load >>= f) l post := by
  intro l' hd
  obtain rfl : l = l' := hd
  refine ⟨trivial,hfirst,?_⟩
  intro a u hs
  obtain rfl : u = {l with loaded := a} := hs
  rw [hfirst]
  exact h a

/-- A save that returns has taken place. -/
lemma save {run : RunManifest} {f : Except String Unit → Process Op Ans ε β}
    {post : β → Memory → Prop} (hmay : keepsRecords side (.save run) l)
    (hok : Frames side (f (.ok ())) (l.saves run) post)
    (herror : ∀ text l', Frames side (f (.error text)) l' post) :
    Frames side (Process.query (Op.save run) >>= f) l post := by
  intro l' hd
  obtain rfl : l = l' := hd
  refine ⟨trivial,hmay,?_⟩
  intro answer u hs
  cases answer with
  | error text => exact herror text u
  | ok _ =>
    rcases hs with rfl | ⟨_,hraised,_⟩
    · exact hok
    · cases hraised

lemma andThen {p : Process Op Ans ε α} {f : α → Process Op Ans ε β}
    {post : α → Memory → Prop} {next : β → Memory → Prop}
    (h : Frames side p l post) (hok : ∀ a l', post a l' → Frames side (f a) l' next) :
    Frames side (p >>= f) l next :=
  Safe.andThen h (fun a l' _ hr => hok a l' (hr a rfl)) (by simp)

end Frames

end Frames

section Commands
variable {s : Session} {signer : Digest} {l : Memory} {m run : RunManifest} {put : Put}
  {e e' : JobEntry}

/-- Nothing but the keys of the entry changes. -/
lemma Slot.record (h : Slot put) (e e' : JobEntry) : (put e').record = (put e).record := by
  cases h <;> rfl

lemma Slot.advances (h : Slot put) (he : Advanced e e') :
    List.Forall₂ Advanced (put e).runJobEntries (put e').runJobEntries := by
  obtain ⟨before,after,hentries⟩ := h.entries
  rw [hentries,hentries]
  refine List.rel_append (List.forall₂_same.mpr (fun x _ => Advanced.refl x)) (.cons he ?_)
  exact List.forall₂_same.mpr (fun x _ => Advanced.refl x)

/-- The document in memory still has the runner's keys as they were loaded, and all that the command
put on record. -/
def FromLoad (m : RunManifest) (l : Memory) : Prop :=
  ∃ m₀, l.loaded = some m₀ ∧ m₀.record = m.record ∧ ∀ d ∈ l.written, Retains .cli m₀ d m

/-- A command that has not saved yet. -/
def Unsaved (m : RunManifest) (l : Memory) : Prop :=
  l.written = [] ∧ ∃ m₀, l.loaded = some m₀ ∧ m₀.record = m.record

lemma Unsaved.fromLoad (h : Unsaved m l) : FromLoad m l := by
  obtain ⟨hnone,m₀,hl,hrecord⟩ := h
  exact ⟨m₀,hl,hrecord,by simp [hnone]⟩

/-- The document as it is saved is on record. -/
lemma FromLoad.saves (h : FromLoad m l) : FromLoad m (l.saves m) := by
  obtain ⟨m₀,hl,hrecord,hretains⟩ := h
  refine ⟨m₀,hl,hrecord,fun d hd => ?_⟩
  rcases List.mem_append.mp hd with hold | hnew
  · exact hretains d hold
  · obtain rfl := List.mem_singleton.mp hnew
    exact .refl _ _ _

lemma FromLoad.advance (hslot : Slot put) (h : FromLoad (put e) l) (he : Advanced e e') :
    FromLoad (put e') l := by
  obtain ⟨m₀,hl,hrecord,hretains⟩ := h
  refine ⟨m₀,hl,hrecord.trans (hslot.record e' e),fun d hd => ?_⟩
  have hd : List.Forall₂ Advanced d.runJobEntries (put e).runJobEntries := hretains d hd
  refine (forall₂_join hd.flip (hslot.advances he)).imp ?_
  rintro x z ⟨y,hxy,hyz⟩
  exact Advanced.trans hxy hyz

/-- The status of the run is no entry's. -/
lemma FromLoad.status (h : FromLoad m l) (status : Option RunStatus) :
    FromLoad {m with status} l := h

lemma saveRunManifest_frames (h : FromLoad m l) :
    Frames .cli (saveRunManifest m) l (fun _ l' => FromLoad m l') := by
  obtain ⟨m₀,hl,hrecord,hretains⟩ := h
  refine Frames.save ⟨m₀,hl,hrecord,hretains⟩ (Frames.done ?_) (fun _ _ => Frames.raise)
  exact FromLoad.saves ⟨m₀,hl,hrecord,hretains⟩

lemma sendAndSave_frames {record : String → JobEntry} {transaction : Transaction} (hslot : Slot put)
    (h : FromLoad (put e) l) (hrecord : ∀ signature, Advanced e (record signature)) :
    Frames .cli (sendAndSave put record transaction) l (fun e' l' => FromLoad (put e') l') := by
  refine Frames.query trivial (fun _ _ h => h) ?_
  intro answer
  apply Frames.lift
  intro signature _
  refine (saveRunManifest_frames (h.advance hslot (hrecord signature))).andThen ?_
  intro _ l' hl'
  exact Frames.done hl'

lemma advanced_opened (h : e.entryStatus = .jobPlanned) (signature : String) :
    Advanced e (recordOpened e signature) := by
  have hstage : stage e.entryStatus = 0 := by rw [h]; rfl
  refine ⟨rfl,.inr ?_,?_,?_⟩
  · rw [hstage]
    exact Nat.zero_lt_one
  · rw [hstage]
    simp [stage]
  · rw [hstage]
    simp [stage]

lemma advanced_committed (h : e.entryStatus = .jobOpened) (signature : String) :
    Advanced e (recordCommitted e signature) := by
  have hstage : stage e.entryStatus = 1 := by rw [h]; rfl
  refine ⟨rfl,.inr ?_,fun _ => rfl,?_⟩
  · rw [hstage]
    exact Nat.one_lt_two
  · rw [hstage]
    simp [stage]

lemma advanced_cancelled (e : JobEntry) : Advanced e {e with status := some .jobCancelled} := by
  refine ⟨rfl,?_,fun _ => rfl,fun _ => rfl⟩
  by_cases h : e.entryStatus = .jobCancelled
  · exact .inl h.symm
  · right
    change stage e.entryStatus < 3
    cases hs : e.entryStatus with
    | jobCancelled => exact absurd hs h
    | _ => simp [stage]

lemma openIfPlanned_frames (hslot : Slot put) (h : FromLoad (put e) l) :
    Frames .cli (openIfPlanned s signer put e) l (fun e' l' => FromLoad (put e') l') := by
  unfold openIfPlanned openPlannedJob
  split
  · rename_i hplanned
    split
    · exact Frames.raise
    · exact Frames.lift (fun args _ => sendAndSave_frames hslot h (advanced_opened hplanned))
  · exact Frames.done h

lemma driveEntry_frames (hslot : Slot put) (h : FromLoad (put e) l) :
    Frames .cli (driveEntry s signer put e) l (fun e' l' => FromLoad (put e') l') := by
  refine (openIfPlanned_frames hslot h).andThen ?_
  intro opened l' hopened
  unfold commitOpenedJob
  split
  · rename_i hstatus
    exact Frames.lift (fun _ _ => sendAndSave_frames hslot hopened (advanced_committed hstatus))
  · exact Frames.done hopened

lemma reconcileEntry_frames (hslot : Slot put) (h : Unsaved (put e) l) :
    Frames .cli (reconcileEntry put e) l (fun e' l' => Unsaved (put e') l') := by
  have hput : ∀ e', Unsaved (put e') l := by
    obtain ⟨hnone,m₀,hl,hrecord⟩ := h
    exact fun e' => ⟨hnone,m₀,hl,hrecord.trans (hslot.record e' e)⟩
  unfold reconcileEntry
  split
  · exact Frames.done h
  · refine Frames.query trivial (fun _ _ h => h) ?_
    intro answer
    apply Frames.lift
    intro found _
    cases found with
    | none => exact Frames.done (hput _)
    | some job =>
      dsimp only
      split_ifs
      · exact Frames.raise
      · exact Frames.done (hput _)
      · exact Frames.done (hput _)

lemma cancelEntry_frames (hslot : Slot put) (h : FromLoad (put e) l) :
    Frames .cli (cancelEntry signer put e) l (fun e' l' => FromLoad (put e') l') := by
  refine Frames.query trivial (fun _ _ h => h) ?_
  intro answer
  apply Frames.lift
  intro found _
  cases found with
  | none =>
    dsimp only
    split_ifs
    · exact Frames.done (h.advance hslot (advanced_cancelled e))
    · exact Frames.done h
  | some job =>
    dsimp only
    split_ifs
    · exact sendAndSave_frames hslot h (fun _ => advanced_cancelled e)
    · exact Frames.done h

lemma walkEntries_frames {turn : Put → JobEntry → Command JobEntry}
    {A : RunManifest → Memory → Prop}
    (hturn : ∀ put e l, Slot put → A (put e) l →
      Frames .cli (turn put e) l (fun e' l' => A (put e') l'))
    (h : A run l) : Frames .cli (walkEntries turn run) l A := by
  have hturns : Turns remembers (fun _ => True) (keepsRecords .cli) turn A (fun _ _ => True) := by
    intro put e l hslot hl
    refine (hturn put e l hslot hl).weaken ?_
    intro r l' _ hr e' he'
    exact ⟨hr e' he',trivial,fun _ _ => trivial⟩
  have hinv : Invariants remembers (fun _ => True) A (fun _ _ => True) := by
    refine ⟨?_,fun _ _ _ _ h => h,fun _ _ _ => trivial⟩
    intro m l l' hd hl
    obtain rfl : l = l' := hd
    exact hl
  refine (walkEntries_safe hturns hinv h).weaken ?_
  intro r l' _ hr m hm
  exact (hr m hm).1

lemma driveRunOpen_frames (h : FromLoad run l) :
    Frames .cli (driveRunOpen s signer run) l (fun _ _ => True) := by
  refine (walkEntries_frames (fun put e l => driveEntry_frames) h).andThen ?_
  intro driven l' hdriven
  refine (saveRunManifest_frames (hdriven.status _)).andThen ?_
  intro _ _ _
  exact Frames.done trivial

lemma getMultipleAccountInfos_frames (chunks : List (List Digest)) :
    Frames .cli (getMultipleAccountInfos chunks) l (fun _ l' => l' = l) := by
  induction chunks with
  | nil => exact Frames.done rfl
  | cons chunk chunks ih =>
    refine Frames.query trivial (fun _ _ h => h) ?_
    intro answer
    apply Frames.lift
    intro values _
    split
    · exact Frames.raise
    · apply ih.andThen
      rintro out l' rfl
      exact Frames.done rfl

lemma assertJobsAbsent_frames (jobs : List Digest) :
    Frames .cli (assertJobsAbsent jobs) l (fun _ l' => l' = l) := by
  refine (getMultipleAccountInfos_frames _).andThen ?_
  rintro infos l' rfl
  split
  · exact Frames.raise
  · exact Frames.done rfl

lemma loadPredictRun_frames {f : RunManifest → Command RunManifest} (hfirst : l.written = [])
    (h : ∀ m, Frames .cli (f m) ⟨some m,[]⟩ (fun _ _ => True)) :
    Frames .cli (loadPredictRun >>= f) l (fun _ _ => True) := by
  apply Frames.load hfirst
  intro file
  cases file with
  | none => exact Frames.raise
  | some m => exact h m

lemma runSigner_frames {wallet : Option String} {f : Digest → Command RunManifest}
    (h : ∀ signer, Frames .cli (f signer) l (fun _ _ => True)) :
    Frames .cli (runSigner s wallet m >>= f) l (fun _ _ => True) := by
  have hsigner : Frames .cli (runSigner s wallet m) l (fun _ l' => l' = l) := by
    apply Frames.lift
    intro signer _
    split
    · exact Frames.raise
    · exact Frames.done rfl
  apply hsigner.andThen
  rintro signer l' rfl
  exact h signer

/-- The document as it was loaded. -/
lemma unsaved_loaded (m : RunManifest) : Unsaved m ⟨some m,[]⟩ := ⟨rfl,m,rfl,rfl⟩

lemma predictCancel_frames (s : Session) (wallet : String) (hfirst : l.written = []) :
    Frames .cli (predictCancel s wallet) l (fun _ _ => True) := by
  apply Frames.lift
  intro signer _
  apply loadPredictRun_frames hfirst
  intro m
  refine (walkEntries_frames (fun put e l => cancelEntry_frames)
    (unsaved_loaded m).fromLoad).andThen ?_
  intro walked l' hwalked
  refine (saveRunManifest_frames (hwalked.status _)).andThen ?_
  intro _ _ _
  exact Frames.done trivial

lemma predictResume_frames (s : Session) (wallet : Option String) (hfirst : l.written = []) :
    Frames .cli (predictResume s wallet) l (fun _ _ => True) := by
  apply loadPredictRun_frames hfirst
  intro m
  split
  · exact Frames.done trivial
  · exact Frames.raise
  · split
    · exact Frames.raise
    · apply runSigner_frames
      intro signer
      refine (walkEntries_frames (fun put e l => reconcileEntry_frames) (unsaved_loaded m)).andThen ?_
      intro reconciled l' hreconciled
      refine (saveRunManifest_frames hreconciled.fromLoad).andThen ?_
      intro _ l'' hsaved
      exact driveRunOpen_frames hsaved

lemma bindAggregateRun_frames (s : Session) (wallet : Option String) (imageId : Digest)
    (allowCompleted : Bool) (hfirst : l.written = []) :
    Frames .cli (bindAggregateRun s wallet imageId allowCompleted) l (fun _ _ => True) := by
  apply loadPredictRun_frames hfirst
  intro m
  split
  · exact Frames.raise
  · split
    · exact Frames.raise
    · split
      · exact Frames.done trivial
      · split
        · exact Frames.raise
        · apply runSigner_frames
          intro signer
          refine Frames.query trivial (fun _ _ h => h) (fun answer => Frames.lift ?_)
          intro host _
          apply Frames.lift
          intro bound _
          refine Frames.query trivial (fun _ _ h => h) (fun added => Frames.lift ?_)
          intro inputCid _
          apply Frames.lift
          intro journalHash _
          refine Frames.andThen (saveRunManifest_frames ?_) ?_
          · exact ⟨m,rfl,rfl,by simp⟩
          intro _ l' hsaved
          refine (assertJobsAbsent_frames _).andThen ?_
          rintro _ l' rfl
          exact driveRunOpen_frames hsaved

end Commands

section Runner
variable {c : RunnerConfig} {m run : RunManifest} {job : Job} {binding : AggregateBinding}
  {receipt : Bytes} {report : Json} {l : Memory}

/-- The runner's document: the commands' fields as they were loaded, and all that the runner put on
record. -/
structure FromLock (m run : RunManifest) (l : Memory) : Prop where
  loaded : l.loaded = some m
  commands : SameFields .cli m run
  retains : ∀ d ∈ l.written, Retains .runner m d run

lemma save_frames (h : FromLock m run l) :
    Frames .runner (Worker.save run) l (fun _ l' => l' = l.saves run) := by
  refine Frames.save ⟨m,h.loaded,h.commands,h.retains⟩ (Frames.done rfl) (fun _ _ => Frames.raise)

lemma branchOutputsForReport_frames (branches : List Json) :
    Frames .runner (branchOutputsForReport branches) l (fun _ l' => l' = l) := by
  induction branches with
  | nil => exact Frames.done rfl
  | cons branch branches ih =>
    refine Frames.query trivial (fun _ _ h => h) ?_
    intro output
    split
    · exact Frames.raise
    · apply ih.andThen
      rintro outputs l' rfl
      exact Frames.done rfl

lemma bindAggregateJob_frames : Frames .runner (bindAggregateJob job) l (fun _ l' => l' = l) := by
  refine Frames.query trivial (fun _ _ h => h) (fun answer => Frames.lift ?_)
  intro host _
  apply Frames.lift
  intro binding _
  apply Frames.lift
  intro resultBytes _
  apply Frames.lift
  intro branches _
  refine (branchOutputsForReport_frames branches).andThen ?_
  rintro outputs l' rfl
  exact Frames.done rfl

/-- The claim's save puts the time of the claim on record. -/
lemma claimAggregate_frames :
    Frames .runner (claimAggregate c m job) ⟨some m,[]⟩
      (fun r l' => l'.loaded = some m ∧ ∀ claimed, r = some claimed →
        (∃ at', claimed = {m with record := {m.record with aggregateClaimedAtUnix := at'}}) ∧
        (l'.written = [] ∨ l'.written = [claimed])) := by
  unfold claimAggregate
  split
  · refine Frames.done ⟨rfl,?_⟩
    intro claimed hclaimed
    obtain rfl := Option.some.inj hclaimed
    exact ⟨⟨_,rfl⟩,.inl rfl⟩
  · refine Frames.query trivial (fun _ _ h => h) ?_
    intro answer
    cases answer with
    | error _ => exact Frames.done ⟨rfl,by simp⟩
    | ok _ =>
      refine Frames.query trivial (fun _ _ h => h) ?_
      intro now
      have hlock : FromLock m {m with record :=
          {m.record with aggregateClaimedAtUnix := some now}} ⟨some m,[]⟩ := ⟨rfl,rfl,by simp⟩
      refine (save_frames hlock).andThen ?_
      rintro _ l' rfl
      refine Frames.done ⟨rfl,?_⟩
      intro claimed hclaimed
      obtain rfl := Option.some.inj hclaimed
      exact ⟨⟨_,rfl⟩,.inr rfl⟩

/-- The submission's save keeps the claim's. -/
lemma submitAggregate_frames {branchOutputs : List Json} {claimed : RunManifest} {claimedAt : Option ℕ}
    (hloaded : l.loaded = some m)
    (hclaimed : claimed = {m with record := {m.record with aggregateClaimedAtUnix := claimedAt}})
    (hwritten : l.written = [] ∨ l.written = [claimed]) :
    Frames .runner (submitAggregate c claimed job binding receipt report branchOutputs) l
      (fun submitted l' => ∀ execution, FromLock m {submitted with
        record := {submitted.record with aggregateBonsolExecution := execution}} l') := by
  refine Frames.query trivial (fun _ _ h => h) (fun added => Frames.lift ?_)
  intro resultCid _
  refine Frames.query trivial (fun _ _ h => h) (fun answer => Frames.lift ?_)
  intro signature _
  subst hclaimed
  have hold : ∀ run : RunManifest, run.record.aggregateClaimedAtUnix = claimedAt →
      ∀ d ∈ l.written, Retains .runner m d run := by
    intro run hrun d hd
    rcases hwritten with hnone | hone
    · simp [hnone] at hd
    · rw [hone] at hd
      obtain rfl := List.mem_singleton.mp hd
      exact ⟨fun _ => hrun,.unsaved _ _,.unsaved _ _,.unsaved _ _,.unsaved _ _,.unsaved _ _⟩
  refine Frames.andThen (save_frames ⟨hloaded,rfl,?_⟩) ?_
  · exact hold _ rfl
  rintro _ l' rfl
  refine Frames.done (fun execution => ⟨hloaded,rfl,fun d hd => ?_⟩)
  rcases List.mem_append.mp hd with hd | hnew
  · exact hold _ rfl d hd
  · obtain rfl := List.mem_singleton.mp hnew
    exact ⟨.refl _ _,.refl _ _,.refl _ _,.refl _ _,.refl _ _,.unsaved _ _⟩

lemma proveBonsol_frames :
    Frames .runner (proveBonsol c run job binding receipt report) l (fun _ l' => l' = l) := by
  unfold proveBonsol
  split
  · exact Frames.raise
  · refine Frames.query trivial (fun _ _ h => h) (fun answer => Frames.lift ?_)
    intro stdout _
    apply Frames.lift
    intro execution _
    apply Frames.lift
    intro _ _
    exact Frames.done rfl

lemma executeAggregate_frames {branchOutputs : List Json} :
    Frames .runner (executeAggregate c m job binding receipt branchOutputs) ⟨some m,[]⟩
      (fun _ _ => True) := by
  refine claimAggregate_frames.andThen ?_
  rintro claim l' ⟨hloaded,hclaim⟩
  cases claim with
  | none => exact Frames.done trivial
  | some claimed =>
    obtain ⟨⟨claimedAt,hclaimed⟩,hwritten⟩ := hclaim claimed rfl
    apply Frames.lift
    intro report _
    refine (submitAggregate_frames hloaded hclaimed hwritten).andThen ?_
    intro submitted l' hsubmitted
    split
    · exact Frames.done trivial
    · apply proveBonsol_frames.andThen
      rintro execution l' rfl
      refine (save_frames (hsubmitted _)).andThen ?_
      intro _ _ _
      exact Frames.done trivial

lemma tryAggregate_frames (c : RunnerConfig) (run : RunManifest) :
    Frames .runner (tryAggregate c run) ⟨some run,[]⟩ (fun _ _ => True) := by
  refine Frames.query trivial (fun _ _ h => h) (fun answer => Frames.lift ?_)
  intro found _
  split
  · exact Frames.done trivial
  · split
    · exact Frames.done trivial
    · apply bindAggregateJob_frames.andThen
      rintro bound l' rfl
      exact executeAggregate_frames

lemma runOnce_frames (c : RunnerConfig) (hfirst : l.written = []) :
    Frames .runner (runOnce c) l (fun _ _ => True) := by
  refine Frames.query trivial (fun _ _ h => h) ?_
  intro locked
  split
  · apply Frames.load hfirst
    intro file
    cases file with
    | none => exact Frames.raise
    | some run =>
      dsimp only
      split
      · exact Frames.done trivial
      · apply Safe.recover
        refine (tryAggregate_frames c run).weaken ?_
        intro r l' _ _
        cases r with
        | ok _ => exact fun _ _ => trivial
        | error _ => exact Frames.done trivial
  · exact Frames.done trivial

end Runner

section Steps
variable {P : Program} {allowed : Bool → Prop} {side : Side} {t : Table} {m : RunManifest}
  {signer : Digest} {turn : Put → JobEntry → Command JobEntry}

/-- A loop whose turns leave everything as it is. -/
lemma walkBranches_rests {S : Service Op Ans Table} (run : RunManifest) (before rest : List JobEntry)
    (h : ∀ e ∈ rest, ∀ put, Reaches S t (turn put e) t (.done e)) :
    Reaches S t (walkBranches turn run before rest) t
      (.done {run with branchJobs := before ++ rest}) := by
  induction rest generalizing before with
  | nil =>
    rw [List.append_nil]
    exact .start
  | cons e rest ih =>
    refine (Reaches.bind (h e List.mem_cons_self _)).trans ?_
    have hrest := ih (before ++ [e]) (fun e' he' => h e' (List.mem_cons_of_mem _ he'))
    rw [List.append_assoc] at hrest
    exact hrest

lemma walkEntries_rests {S : Service Op Ans Table} {a : JobEntry} (hagg : m.aggregate = some a)
    (h : ∀ e ∈ m.runJobEntries, ∀ put, Reaches S t (turn put e) t (.done e)) :
    Reaches S t (walkEntries turn m) t (.done m) := by
  have hmem : a ∈ m.runJobEntries := by simp [RunManifest.runJobEntries,hagg]
  have hput : {m with aggregate := some a} = m := by rw [← hagg]
  have hbranches := walkBranches_rests m [] m.branchJobs
    (fun e he => h e (List.mem_append_left _ he))
  refine (walkEntries_last hbranches hagg).trans ?_
  refine (Reaches.bind (h a hmem _)).trans ?_
  change Reaches S t (.done {m with aggregate := some a}) t _
  rw [hput]
  exact .start

/-- A job that is past its claim is left alone. -/
lemma cancelEntry_rests {put : Put} {e : JobEntry} {job : Job} (hjob : t.world.chain e.job = some job)
    (hpast : ¬(job.status = jobStatusAwaitingArtifact ∨ job.status = jobStatusOpen)) :
    Reaches (seatService P allowed side) t (cancelEntry signer put e) t (.done e) := by
  refine .step (a := .ok (some job)) ⟨t.world,⟨rfl,.inl (by rw [hjob])⟩,rfl⟩ ?_
  change Reaches _ _ (if _ then _ else _) _ _
  rw [if_neg hpast]
  exact .start

/-- `predict cancel`, from what it loaded. -/
def cancelLoaded (signer : Digest) (m : RunManifest) : Command RunManifest := do
  let walked ← walkEntries (cancelEntry signer) m
  let cancelled := {walked with status := some .runCancelled}
  saveRunManifest cancelled
  pure cancelled

lemma predictCancel_loads {s : Session} {wallet : String} (hwallet : s.wallets wallet = some signer)
    (hfile : t.world.file = some m) :
    Reaches (seatService P allowed .cli) t (predictCancel s wallet) (t.loads .cli)
      (cancelLoaded signer m) := by
  unfold predictCancel loadWallet
  rw [hwallet]
  exact .step (a := some m) ⟨hfile.symm,rfl⟩ .start

/-- A cancel that finds every job past its claim only marks the run. -/
lemma cancelLoaded_marks {a : JobEntry} (hagg : m.aggregate = some a)
    (hallowed : allowed (t.seat .cli).stale)
    (hpast : ∀ e ∈ m.runJobEntries, ∃ job, t.world.chain e.job = some job ∧
      ¬(job.status = jobStatusAwaitingArtifact ∨ job.status = jobStatusOpen)) :
    Reaches (seatService P allowed .cli) t (cancelLoaded signer m)
      (t.writes .cli {m with status := some .runCancelled})
      (.done {m with status := some .runCancelled}) := by
  refine (Reaches.bind (walkEntries_rests hagg ?_)).trans ?_
  · intro e he put
    obtain ⟨job,hjob,hstatus⟩ := hpast e he
    exact cancelEntry_rests hjob hstatus
  · exact .step (a := .ok ()) (.inl ⟨hallowed,rfl⟩) .start

/-- The keys of a run that was just claimed. -/
def claimedAt (run : RunManifest) (now : ℕ) : RunManifest :=
  {run with record := {run.record with aggregateClaimedAtUnix := some now}}

/-- A pass over an artifact that claims the job, records it and fails afterwards. -/
lemma runOnce_claims {c : RunnerConfig} {job : Job} {host : Runner} {binding : AggregateBinding}
    {outputs : Bytes} {branches : List Json} {chain : Chain} (now : ℕ) (hfile : t.world.file = some m)
    (hfirst : m.record.aggregateSubmitted = false) (hallowed : allowed false)
    (hjob : t.world.chain m.aggregateJob = some job) (heligible : eligible c job = true)
    (hours : ours c job = false) (hbind : bindCommittedArtifact host job = .ok binding)
    (hpacked : binding.journal.committedOutputs = some outputs)
    (hrecords : branchRecords binding.artifact = some branches)
    (hlands : P.executes t.world.chain (.claimJob c.wallet m.aggregateJob) chain) :
    Reaches (seatService P allowed .runner) t (runOnce c)
      (({t.loads .runner with
        world := t.world.land (.claimJob c.wallet m.aggregateJob) chain}).writes .runner
          (claimedAt m now)) (.done false) := by
  refine .step (a := true) ⟨t.world,rfl,rfl⟩ ?_
  refine .step (a := some m) ⟨hfile.symm,rfl⟩ ?_
  change Reaches _ _ (if m.record.aggregateSubmitted = true then _ else _) _ _
  rw [if_neg (by simp [hfirst])]
  have hfetch : (seatService P allowed .runner).serves (.fetchJob m.aggregateJob) (t.loads .runner)
      (.ok (some job)) (t.loads .runner) := ⟨t.world,⟨rfl,.inl (by rw [Table.loads_world,hjob])⟩,rfl⟩
  have hhost : (seatService P allowed .runner).serves .runnerHost (t.loads .runner)
      (.ok host) (t.loads .runner) := ⟨t.world,rfl,rfl⟩
  have houtputs : Reaches (seatService P allowed .runner) (t.loads .runner)
      (branchOutputsForReport branches) (t.loads .runner) _ :=
    Settlement.branchOutputs_reaches branches (fun _ _ => ⟨t.world,rfl,rfl⟩)
  refine (Reaches.recover (Settlement.tryAggregate_reaches c m (t.loads .runner) heligible hbind
    hpacked hrecords hfetch hhost houtputs)).trans ?_
  unfold executeAggregate claimAggregate
  rw [if_neg (by simp [hours])]
  refine .step (a := .ok "signature") ⟨_,.inl ⟨_,rfl,chain,hlands,rfl⟩,rfl⟩ ?_
  refine .step (a := now) ⟨_,rfl,rfl⟩ ?_
  refine .step (a := .ok ()) (.inl ⟨?_,rfl⟩) ?_
  · change allowed ((t.loads .runner).seat .runner).stale
    rw [Table.loads_self]
    exact hallowed
  · change Reaches _ _ ((Process.bind (Process.lift (require
      (resultReport (claimedAt m now) binding) PassError.malformed)) _).recover _) _ _
    cases resultReport (claimedAt m now) binding with
    | none => exact .start
    | some report => exact .step (a := .error "ipfs add failed") ⟨_,rfl,rfl⟩ .start

end Steps

section Sample
open Settlement

/-- The entry of a committed job of the sample run. -/
def sharedEntry (branchIndex : Option ℕ) (nonce : ℕ) (capability : Capability) (job : Job) :
    JobEntry where
  branchIndex := branchIndex
  nonce := nonce
  job := natKey nonce
  inputCid := some job.inputCid
  inputBundleHash := some job.inputBundleHash
  expectedResultHash := some job.expectedResultHash
  jobClass := job.jobClass
  requiredCapability := capability
  requiredSoftwareDigest := job.requiredSoftwareDigest
  rewardAmount := 100
  requiredStake := 500
  challengeBond := 500
  status := some .jobCommitted

/-- The machine of the sample run's customer. -/
def sharedSession : Session := {sampleSession with wallets := fun _ => some (natKey 3)}

/-- The entry of a branch of the panel. -/
def branchEntry (e : Mirror.Entry) : JobEntry :=
  sharedEntry (some e.index) (20 + e.index) .workerProof (sampleBranchJob jobStatusSettled e)

/-- A run whose branches are settled and whose aggregate was bound. -/
def sharedRun (artifact outputs : Bytes) : RunManifest :=
  {sampleManifest with
    aggregate := some (sharedEntry none 9 .branchAggregatorBonsol (openSampleJob artifact outputs))
    branchJobs := samplePanel.entries.map branchEntry }

/-- Its accounts, before the aggregate job is claimed. -/
def sharedChain (artifact outputs : Bytes) : Chain :=
  Function.update settledChain (natKey 9) (some (openSampleJob artifact outputs))

def sharedWorld (artifact outputs : Bytes) : World :=
  ⟨some (sharedRun artifact outputs),sharedChain artifact outputs,[],[]⟩

lemma sharedChain_aggregate (artifact outputs : Bytes) :
    sharedChain artifact outputs (natKey 9) = some (openSampleJob artifact outputs) :=
  Function.update_self _ _ _

lemma sampleKey_ne_aggregate (e : Mirror.Entry) : sampleKey e ≠ natKey 9 := by
  intro h
  have hnat := congrArg keyNat h
  have hindex := e.index_lt
  rw [sampleKey,keyNat_natKey (by omega),keyNat_natKey (by omega)] at hnat
  omega

/-- The sample runner claims the job of the sample run and records it. -/
lemma sharedRun_claimed (allowed : Bool → Prop) {artifact outputs : Bytes} {t : Table}
    (h : Sample artifact outputs) (hallowed : allowed false)
    (hworld : t.world = sharedWorld artifact outputs) (hfirst : (t.seat .runner).written = []) :
    ∃ t', Reaches (seatService sampleProgram allowed .runner) t (runOnce sampleConfig) t'
        (.done false) ∧
      (t'.seat .runner).written = [claimedAt (sharedRun artifact outputs) 1757000000] ∧
      t'.world.file = some (claimedAt (sharedRun artifact outputs) 1757000000) ∧
      Transaction.claimJob (natKey 4) (natKey 9) ∈ t'.world.landed ∧
      ∀ e ∈ (sharedRun artifact outputs).runJobEntries, ∃ job, t'.world.chain e.job = some job ∧
        ¬(job.status = jobStatusAwaitingArtifact ∨ job.status = jobStatusOpen) := by
  have hbind : bindCommittedArtifact (sampleRunner artifact settledChain)
      (openSampleJob artifact outputs) =
        .ok ⟨artifact,⟨framedInputDigest artifact,samplePanel.cliReduction⟩⟩ := h.binds
  have hpacks := h.packs
  generalize samplePanel.cliReduction = reduction at hbind hpacks
  have hchain : t.world.chain = sharedChain artifact outputs := congrArg World.chain hworld
  have hjob : t.world.chain (natKey 9) = some (openSampleJob artifact outputs) :=
    hchain ▸ sharedChain_aggregate artifact outputs
  obtain ⟨c,hlands,⟨job,hclaimed,hstatus⟩,hbranches⟩ : ∃ c,
      sampleProgram.executes t.world.chain (.claimJob (natKey 4) (natKey 9)) c ∧
      (∃ job, c (natKey 9) = some job ∧ job.status = jobStatusClaimed) ∧
      ∀ e ∈ samplePanel.entries, c (sampleKey e) = some (sampleBranchJob jobStatusSettled e) := by
    refine ⟨_,sample_claims (natKey 4) hjob rfl,⟨_,Function.update_self _ _ _,rfl⟩,?_⟩
    intro e he
    have hne := sampleKey_ne_aggregate e
    rw [Function.update_of_ne hne,hchain,sharedChain,Function.update_of_ne hne]
    exact sampleChain_key (fun _ => jobStatusSettled) he
  have hclaims := runOnce_claims (m := sharedRun artifact outputs) (c := sampleConfig) 1757000000
    (congrArg World.file hworld) rfl hallowed hjob rfl rfl hbind hpacks h.records hlands
  refine ⟨_,hclaims,?_,rfl,List.mem_concat_self,?_⟩
  · rw [Table.writes_self]
    change ((t.loads .runner).seat .runner).written ++ _ = _
    rw [Table.loads_self,hfirst,List.nil_append]
  · intro e he
    rcases List.mem_append.mp he with hbranch | hagg
    · obtain ⟨b,hb,rfl⟩ := List.mem_map.mp hbranch
      exact ⟨_,hbranches b hb,by simp [sampleBranchJob,jobStatusSettled,
        jobStatusAwaitingArtifact,jobStatusOpen]⟩
    · obtain rfl := List.mem_singleton.mp hagg
      exact ⟨job,hclaimed,by rw [hstatus]; decide⟩

end Sample

section Interleaved
variable {P : Program}

/-- The commands that share the run file with the aggregate runner. -/
inductive SharesFile : Command RunManifest → Prop
  | cancel (s : Session) (wallet : String) : SharesFile (predictCancel s wallet)
  | resume (s : Session) (wallet : Option String) : SharesFile (predictResume s wallet)
  | bindAggregate (s : Session) (wallet : Option String) (imageId : Digest)
      (allowCompleted : Bool) : SharesFile (bindAggregateRun s wallet imageId allowCompleted)

lemma SharesFile.frames {p : Command RunManifest} (h : SharesFile p) :
    Frames .cli p ⟨none,[]⟩ (fun _ _ => True) := by
  cases h with
  | cancel s wallet => exact predictCancel_frames s wallet rfl
  | resume s wallet => exact predictResume_frames s wallet rfl
  | bindAggregate s wallet imageId allowCompleted =>
    exact bindAggregateRun_frames s wallet imageId allowCompleted rfl

/-- One turn of a side that is not stale keeps the table coherent, and is a turn of its memory. -/
lemma turn_coherent {side : Side} {o : Op} {t t' : Table} {a : Ans o}
    (hs : turn P (· = false) side o t a t') (ht : Coherent t)
    (hmay : keepsRecords side o (t.seat side).toMemory) :
    remembers.serves o (t.seat side).toMemory a (t'.seat side).toMemory ∧
      (t'.seat side.other).toMemory = (t.seat side.other).toMemory ∧ Coherent t' := by
  have hquiet : ∀ w, w.file = t.world.file → Coherent {t with world := w} :=
    fun w hw => ht.same rfl hw
  cases o with
  | load =>
    obtain ⟨ha,rfl⟩ := hs
    refine ⟨?_,?_,ht.loads hmay⟩
    · rw [Table.loads_self]
      subst ha
      rfl
    · rw [Table.loads_of_ne (Side.other_ne side)]
  | save run =>
    rcases hs with ⟨hfresh,rfl⟩ | ⟨text,htext,rfl⟩
    · obtain ⟨m,hloaded,hkeeps,hretains⟩ := hmay
      refine ⟨.inl ?_,?_,ht.writes hfresh hloaded hkeeps hretains⟩
      · rw [Table.writes_self]
        rfl
      · rw [Table.writes_other]
    · exact ⟨.inr ⟨text,htext,rfl⟩,rfl,ht⟩
  | _ =>
    obtain ⟨w,hw,rfl⟩ := hs
    exact ⟨rfl,rfl,hquiet w (answers_file hw (by simp))⟩

/-- No update of the run file is lost between a command and a pass of the runner, in any
interleaving of their steps in which neither side saves over what the other saved since it loaded:
everything that a side put on record with any of its saves is in the file, and what it wrote last is
what the file has of it. -/
theorem no_update_lost {p : Command RunManifest} (hp : SharesFile p) (c : RunnerConfig)
    {w : World} {t : Table} {p' : Command RunManifest} {q' : Pass Bool}
    (h : Interleaves (seatService P (· = false) .cli) (seatService P (· = false) .runner)
      (.start w) p (runOnce c) t p' q') :
    (∀ side, ∀ d ∈ (t.seat side).written, ∃ m f, (t.seat side).loaded = some m ∧
      t.world.file = some f ∧ Retains side m d f) ∧
    ∀ side d, (t.seat side).written.getLast? = some d →
      ∃ f, t.world.file = some f ∧ SameFields side d f := by
  have hkeeps := h.keeps (m := fun t => (t.seat .cli).toMemory)
    (n := fun t => (t.seat .runner).toMemory)
    (Coherent.start w) hp.frames (runOnce_frames c rfl)
    (fun _ _ _ _ hs ht hmay => turn_coherent hs ht hmay)
    (fun _ _ _ _ hs ht hmay => turn_coherent hs ht hmay) ?_
  · exact ⟨fun side d hd => hkeeps.1.recorded hd,hkeeps.1.kept⟩
  · intro t t' hd ht
    have hsame : t'.seat = t.seat ∧ t'.world.file = t.world.file := hd.elim id id
    rw [hsame.1]
    exact ⟨rfl,rfl,ht.same hsame.1 hsame.2⟩

/-- The runner is done before the cancel loads, at the theorem. -/
theorem no_update_lost_sample : ∃ w t m d f,
    Interleaves (seatService sampleProgram (· = false) .cli)
      (seatService sampleProgram (· = false) .runner) (.start w)
      (predictCancel sharedSession "customer") (runOnce Settlement.sampleConfig) t (.done m)
      (.done false) ∧
    (t.seat .runner).written = [d] ∧ t.world.file = some f ∧
    d.record.aggregateClaimedAtUnix = some 1757000000 ∧
    f.record.aggregateClaimedAtUnix = some 1757000000 ∧
    (∃ loaded, (t.seat .runner).loaded = some loaded ∧ Retains .runner loaded d f) ∧
    f.record = d.record := by
  have h := Settlement.sample_holds
  generalize Settlement.sampleArtifact = artifact at h
  generalize Settlement.sampleOutputs = outputs at h
  obtain ⟨t₁,hclaim,hwritten,hfile,-,hpast⟩ := sharedRun_claimed (· = false)
    (t := .start (sharedWorld artifact outputs)) h rfl rfl rfl
  have hload : Reaches (seatService sampleProgram (· = false) .cli) t₁
      (predictCancel sharedSession "customer") (t₁.loads .cli) _ := predictCancel_loads rfl hfile
  have hmark : Reaches (seatService sampleProgram (· = false) .cli) (t₁.loads .cli)
      (cancelLoaded (natKey 3) (claimedAt (sharedRun artifact outputs) 1757000000)) _ _ :=
    cancelLoaded_marks rfl (by rw [Table.loads_self]) hpast
  have hrun := (Interleaves.start.runRight hclaim).runLeft (hload.trans hmark)
  obtain ⟨hall,hlast⟩ := no_update_lost (.cancel sharedSession "customer") _ hrun
  obtain ⟨loaded,f,hloaded,hf,hretains⟩ := hall .runner _ (hwritten ▸ List.mem_singleton_self _)
  obtain ⟨f',hf',hsame⟩ := hlast .runner _ (congrArg List.getLast? hwritten)
  obtain rfl := Option.some.inj (hf.symm.trans hf')
  exact ⟨_,_,_,_,f,hrun,hwritten,hf,rfl,congrArg RunnerRecord.aggregateClaimedAtUnix hsame.symm,
    ⟨loaded,hloaded,hretains⟩,hsame.symm⟩

/-- The runner claims the job and records it between the load and the last save of a cancel, which
writes the manifest back without the record. -/
theorem claim_record_lost : ∃ w t m d f,
    Interleaves (seatService sampleProgram (fun _ => True) .cli)
      (seatService sampleProgram (fun _ => True) .runner) (.start w)
      (predictCancel sharedSession "customer") (runOnce Settlement.sampleConfig) t (.done m)
      (.done false) ∧
    Transaction.claimJob (natKey 4) (natKey 9) ∈ t.world.landed ∧
    (t.seat .runner).written = [d] ∧ d.record.aggregateClaimedAtUnix = some 1757000000 ∧
    t.world.file = some f ∧ f.record.aggregateClaimedAtUnix = none := by
  have h := Settlement.sample_holds
  generalize Settlement.sampleArtifact = artifact at h
  generalize Settlement.sampleOutputs = outputs at h
  let t₀ : Table := .start (sharedWorld artifact outputs)
  have hload : Reaches (seatService sampleProgram (fun _ => True) .cli) t₀
      (predictCancel sharedSession "customer") (t₀.loads .cli)
      (cancelLoaded (natKey 3) (sharedRun artifact outputs)) := predictCancel_loads rfl rfl
  obtain ⟨t₁,hclaim,hwritten,hfile,hlanded,hpast⟩ := sharedRun_claimed (fun _ => True)
    (t := t₀.loads .cli) h trivial rfl rfl
  have hmark : Reaches (seatService sampleProgram (fun _ => True) .cli) t₁
      (cancelLoaded (natKey 3) (sharedRun artifact outputs)) _ _ :=
    cancelLoaded_marks rfl trivial hpast
  have hrun := ((Interleaves.start.runLeft hload).runRight hclaim).runLeft hmark
  exact ⟨_,_,_,_,_,hrun,hlanded,hwritten,rfl,rfl,rfl⟩

end Interleaved

end Kswarm.Lifecycle
