import Mathlib.Tactic.Common

/-! Programs that act on a world only by asking a service. The service may answer a question in
several ways, the world may drift while a program waits, and a program may be stopped between any
two questions, so its guarantees are stated over every configuration it can be left in. -/
namespace Kswarm
variable {Op : Type} {Ans : Op → Type} {ε α β W : Type}

/-- A program as the questions it asks. -/
inductive Process (Op : Type) (Ans : Op → Type) (ε α : Type) where
  | done (a : α)
  | raise (e : ε)
  | ask (o : Op) (next : Ans o → Process Op Ans ε α)

namespace Process

def bind (p : Process Op Ans ε α) (f : α → Process Op Ans ε β) : Process Op Ans ε β :=
  match p with
  | done a => f a
  | raise e => raise e
  | ask o next => ask o (fun a => (next a).bind f)

instance : Monad (Process Op Ans ε) where
  pure := done
  bind := bind

theorem done_bind (a : α) (f : α → Process Op Ans ε β) :
    ((done a : Process Op Ans ε α) >>= f) = f a := rfl

/-- A handler for what a program raises. -/
def recover (p : Process Op Ans ε α) (f : ε → Process Op Ans ε α) : Process Op Ans ε α :=
  match p with
  | done a => done a
  | raise e => f e
  | ask o next => ask o (fun a => (next a).recover f)

def isDone : Process Op Ans ε α → Bool
  | done _ => true
  | _ => false

theorem exists_done {p : Process Op Ans ε α} (h : p.isDone = true) : ∃ a, p = done a := by
  cases p with
  | done a => exact ⟨a,rfl⟩
  | raise e => cases h
  | ask o next => cases h

/-- Ask one question. -/
def query (o : Op) : Process Op Ans ε (Ans o) := ask o done

/-- A pure computation that can refuse. -/
def lift : Except ε α → Process Op Ans ε α
  | .ok a => done a
  | .error e => raise e

end Process

/-- What a service can do to the world, with or without being asked. -/
structure Service (Op : Type) (Ans : Op → Type) (W : Type) where
  serves : (o : Op) → W → Ans o → W → Prop
  drifts : W → W → Prop
  drifts_refl : ∀ w, drifts w w
  drifts_trans : ∀ u v w, drifts u v → drifts v w → drifts u w

/-- The service as long as its answers are of one kind, such as the answers that report no failure. -/
def Service.only (S : Service Op Ans W) (good : (o : Op) → W → Ans o → Prop) : Service Op Ans W where
  serves o w a v := S.serves o w a v ∧ good o w a
  drifts := S.drifts
  drifts_refl := S.drifts_refl
  drifts_trans := S.drifts_trans

/-- A program started in `w` can be left in `v` with `q` still to run. -/
inductive Reaches (S : Service Op Ans W) (w : W) (p : Process Op Ans ε α) :
    W → Process Op Ans ε α → Prop
  | start : Reaches S w p w p
  | drift {v u q} (h : Reaches S w p v q) (hd : S.drifts v u) : Reaches S w p u q
  | answer {v u o next a} (h : Reaches S w p v (.ask o next)) (hs : S.serves o v a u) :
      Reaches S w p u (next a)

namespace Reaches
variable {S : Service Op Ans W} {w v u : W} {p q r : Process Op Ans ε α}

theorem trans (h : Reaches S w p v q) (h' : Reaches S v q u r) : Reaches S w p u r := by
  induction h' with
  | start => exact h
  | drift _ hd ih => exact .drift ih hd
  | answer _ hs ih => exact .answer ih hs

/-- A first question, and on from its answer. -/
theorem step {o : Op} {next : Ans o → Process Op Ans ε α} {a : Ans o} (hs : S.serves o w a v)
    (h : Reaches S v (next a) u q) : Reaches S w (.ask o next) u q :=
  Reaches.trans (.answer .start hs) h

theorem bind {f : α → Process Op Ans ε β} (h : Reaches S w p v q) :
    Reaches S w (p >>= f) v (q >>= f) := by
  induction h with
  | start => exact .start
  | drift _ hd ih => exact .drift ih hd
  | answer _ hs ih => exact Reaches.answer ih hs

theorem recover {f : ε → Process Op Ans ε α} (h : Reaches S w p v q) :
    Reaches S w (p.recover f) v (q.recover f) := by
  induction h with
  | start => exact .start
  | drift _ hd ih => exact .drift ih hd
  | answer _ hs ih => exact Reaches.answer ih hs

theorem of_only {good : (o : Op) → W → Ans o → Prop} (h : Reaches (S.only good) w p v q) :
    Reaches S w p v q := by
  induction h with
  | start => exact .start
  | drift _ hd ih => exact .drift ih hd
  | answer _ hs ih => exact .answer ih hs.1

end Reaches

/-- Run a program for some questions against one way of answering them. -/
def Process.play (answer : (o : Op) → W → Ans o × W) : ℕ → W → Process Op Ans ε α →
    W × Process Op Ans ε α
  | n+1,w,.ask o next => play answer n (answer o w).2 (next (answer o w).1)
  | _,w,p => (w,p)

/-- A program that is answered long enough comes to its end. -/
theorem Process.play_ends (answer : (o : Op) → W → Ans o × W) (w : W) (p : Process Op Ans ε α) :
    ∃ n v r, Process.play answer n w p = (v,.lift r) := by
  induction p generalizing w with
  | done a => exact ⟨0,w,.ok a,rfl⟩
  | raise e => exact ⟨0,w,.error e,rfl⟩
  | ask o next ih =>
    obtain ⟨n,v,r,h⟩ := ih (answer o w).1 (answer o w).2
    exact ⟨n+1,v,r,h⟩

theorem Reaches.play {S : Service Op Ans W} {answer : (o : Op) → W → Ans o × W}
    (h : ∀ o w, S.serves o w (answer o w).1 (answer o w).2) (n : ℕ) (w : W)
    (p : Process Op Ans ε α) :
    Reaches S w p (Process.play answer n w p).1 (Process.play answer n w p).2 := by
  induction n generalizing w p with
  | zero => exact .start
  | succ n ih =>
    cases p with
    | done a => exact .start
    | raise e => exact .start
    | ask o next => exact .step (h o w) (ih _ _)

/-- A program is started in `w` and left in `v`, wherever it is by then. -/
def Stops (S : Service Op Ans W) (p : Process Op Ans ε α) (w v : W) : Prop :=
  ∃ q, Reaches S w p v q

theorem Stops.drift {S : Service Op Ans W} {p : Process Op Ans ε α} {w v u : W}
    (h : Stops S p w v) (hd : S.drifts v u) : Stops S p w u := by
  obtain ⟨q,hq⟩ := h
  exact ⟨q,.drift hq hd⟩

/-- Some run of the program gets to a configuration of the kind `P`. -/
def Possible (S : Service Op Ans W) (P : W → Process Op Ans ε α → Prop) (w : W)
    (p : Process Op Ans ε α) : Prop := ∃ v q, Reaches S w p v q ∧ P v q

namespace Possible
variable {S : Service Op Ans W} {P : W → Process Op Ans ε α → Prop} {w v : W}
  {p q : Process Op Ans ε α}

theorem here (h : P w p) : Possible S P w p := ⟨w,p,.start,h⟩

theorem after (hr : Reaches S w p v q) (h : Possible S P v q) : Possible S P w p := by
  obtain ⟨u,r,hreach,hP⟩ := h
  exact ⟨u,r,hr.trans hreach,hP⟩

theorem step {o : Op} {next : Ans o → Process Op Ans ε α} {a : Ans o} (hs : S.serves o w a v)
    (h : Possible S P v (next a)) : Possible S P w (.ask o next) :=
  after (.answer .start hs) h

end Possible

/-- Wherever the program is left `inv` holds of the world, whatever it asks `may` be asked there,
and `post` holds of its outcome. -/
def Safe (S : Service Op Ans W) (inv : W → Prop) (may : Op → W → Prop)
    (post : Except ε α → W → Prop) : Process Op Ans ε α → W → Prop
  | .done a,w => ∀ v, S.drifts w v → inv v ∧ post (.ok a) v
  | .raise e,w => ∀ v, S.drifts w v → inv v ∧ post (.error e) v
  | .ask o next,w => ∀ v, S.drifts w v →
      inv v ∧ may o v ∧ ∀ a u, S.serves o v a u → Safe S inv may post (next a) u

/-- An assertion that no drift can falsify. -/
def Stable (S : Service Op Ans W) (J : W → Prop) : Prop := ∀ w v, S.drifts w v → J w → J v

section Rules
variable {S : Service Op Ans W} {inv inv' J : W → Prop} {may may' : Op → W → Prop}
  {post post' : Except ε α → W → Prop} {p : Process Op Ans ε α} {w v : W}

namespace Safe

theorem done {a : α} (hs : Stable S J) (hw : J w) (h : ∀ v, J v → inv v ∧ post (.ok a) v) :
    Safe S inv may post (.done a) w := by
  intro v hd
  exact h v (hs w v hd hw)

theorem raise {e : ε} (hs : Stable S J) (hw : J w) (h : ∀ v, J v → inv v ∧ post (.error e) v) :
    Safe S inv may post (.raise e) w := by
  intro v hd
  exact h v (hs w v hd hw)

theorem liftEnd {x : Except ε α} (hs : Stable S J) (hw : J w) (h : ∀ v, J v → inv v ∧ post x v) :
    Safe S inv may post (.lift x) w := by
  cases x with
  | ok a => exact Safe.done hs hw h
  | error e => exact Safe.raise hs hw h

theorem ask {o : Op} {next : Ans o → Process Op Ans ε α} (hs : Stable S J) (hw : J w)
    (h : ∀ v, J v → inv v ∧ may o v ∧
      ∀ a u, S.serves o v a u → Safe S inv may post (next a) u) :
    Safe S inv may post (.ask o next) w := by
  intro v hd
  exact h v (hs w v hd hw)

theorem drift (h : Safe S inv may post p w) (hd : S.drifts w v) : Safe S inv may post p v := by
  cases p with
  | done a => exact fun u hu => h u (S.drifts_trans w v u hd hu)
  | raise e => exact fun u hu => h u (S.drifts_trans w v u hd hu)
  | ask o next => exact fun u hu => h u (S.drifts_trans w v u hd hu)

theorem imp (h : Safe S inv may post p w) (hinv : ∀ v, inv v → inv' v)
    (hmay : ∀ o v, inv v → may o v → may' o v)
    (hpost : ∀ r v, inv v → post r v → post' r v) :
    Safe S inv' may' post' p w := by
  induction p generalizing w with
  | done a => exact fun v hd => ⟨hinv v (h v hd).1,hpost _ v (h v hd).1 (h v hd).2⟩
  | raise e => exact fun v hd => ⟨hinv v (h v hd).1,hpost _ v (h v hd).1 (h v hd).2⟩
  | ask o next ih =>
    intro v hd
    obtain ⟨hv,hm,hn⟩ := h v hd
    exact ⟨hinv v hv,hmay o v hv hm,fun a u hs => ih a (hn a u hs)⟩

/-- The same guarantee with less said about the outcome. -/
theorem weaken (h : Safe S inv may post p w) (hpost : ∀ r v, inv v → post r v → post' r v) :
    Safe S inv may post' p w :=
  h.imp (fun _ hv => hv) (fun _ _ _ hm => hm) hpost

/-- What a program leaves is what the rest of the chain starts from. -/
theorem bind {f : α → Process Op Ans ε β} {post : Except ε β → W → Prop}
    (h : Safe S inv may (fun r v => match r with
      | .ok a => Safe S inv may post (f a) v
      | .error e => post (.error e) v) p w) :
    Safe S inv may post (p >>= f) w := by
  induction p generalizing w with
  | done a => exact (h w (S.drifts_refl w)).2
  | raise e => exact h
  | ask o next ih =>
    intro v hd
    obtain ⟨hv,hm,hn⟩ := h v hd
    exact ⟨hv,hm,fun a u hs => ih a (hn a u hs)⟩

/-- A program whose outcomes are described, followed by the rest of a chain. -/
theorem andThen {f : α → Process Op Ans ε β} {next : Except ε β → W → Prop}
    (h : Safe S inv may post p w)
    (hok : ∀ a v, inv v → post (.ok a) v → Safe S inv may next (f a) v)
    (herror : ∀ e v, inv v → post (.error e) v → next (.error e) v) :
    Safe S inv may next (p >>= f) w := by
  apply Safe.bind
  apply h.weaken
  intro r v hv hr
  cases r with
  | ok a => exact hok a v hv hr
  | error e => exact herror e v hv hr

/-- A question followed by the rest of a chain. -/
theorem query {o : Op} {f : Ans o → Process Op Ans ε β} {post : Except ε β → W → Prop}
    (hs : Stable S J) (hw : J w)
    (h : ∀ v, J v → inv v ∧ may o v ∧ ∀ a u, S.serves o v a u → Safe S inv may post (f a) u) :
    Safe S inv may post (Process.query o >>= f) w := Safe.ask hs hw h

/-- A pure step followed by the rest of a chain. -/
theorem lift {x : Except ε α} {f : α → Process Op Ans ε β} {post : Except ε β → W → Prop}
    (hok : ∀ a, x = .ok a → Safe S inv may post (f a) w)
    (herror : ∀ e, x = .error e → Safe S inv may post (.raise e) w) :
    Safe S inv may post (Process.lift x >>= f) w := by
  cases x with
  | ok a => exact hok a rfl
  | error e => exact herror e rfl

/-- An assertion kept by whatever the program may ask, and by every drift, is one more invariant. -/
theorem strengthen {K : W → Prop} (h : Safe S inv may post p w) (hK : Stable S K) (hw : K w)
    (hserve : ∀ o v a u, inv v → may o v → K v → S.serves o v a u → K u) :
    Safe S (fun v => inv v ∧ K v) may (fun r v => post r v ∧ K v) p w := by
  induction p generalizing w with
  | done a =>
    intro v hd
    have hv := hK w v hd hw
    exact ⟨⟨(h v hd).1,hv⟩,(h v hd).2,hv⟩
  | raise e =>
    intro v hd
    have hv := hK w v hd hw
    exact ⟨⟨(h v hd).1,hv⟩,(h v hd).2,hv⟩
  | ask o next ih =>
    intro v hd
    have hv := hK w v hd hw
    obtain ⟨hinv,hmay,hnext⟩ := h v hd
    exact ⟨⟨hinv,hv⟩,hmay,fun a u hs => ih a (hnext a u hs) (hserve o v a u hinv hmay hv hs)⟩

/-- An assertion kept by every answer and every drift holds wherever any program is left. -/
theorem persists (hs : Stable S J) (hserve : ∀ o v a u, J v → S.serves o v a u → J u) (hw : J w) :
    Safe S J (fun _ _ => True) (fun _ v => J v) p w := by
  induction p generalizing w with
  | done a => exact Safe.done hs hw (fun _ hv => ⟨hv,hv⟩)
  | raise e => exact Safe.raise hs hw (fun _ hv => ⟨hv,hv⟩)
  | ask o next ih =>
    exact Safe.ask hs hw
      (fun v hv => ⟨hv,trivial,fun a u ha => ih a (hserve o v a u hv ha)⟩)

theorem recover {f : ε → Process Op Ans ε α}
    (h : Safe S inv may (fun r v => match r with
      | .ok a => post (.ok a) v
      | .error e => Safe S inv may post (f e) v) p w) :
    Safe S inv may post (p.recover f) w := by
  induction p generalizing w with
  | done a => exact h
  | raise e => exact (h w (S.drifts_refl w)).2
  | ask o next ih =>
    intro v hd
    obtain ⟨hv,hm,hn⟩ := h v hd
    exact ⟨hv,hm,fun a u hs => ih a (hn a u hs)⟩

/-- A program is safe from wherever it can be left. -/
theorem reaches {q : Process Op Ans ε α} (h : Safe S inv may post p w)
    (hr : Reaches S w p v q) : Safe S inv may post q v := by
  induction hr with
  | start => exact h
  | drift _ hd ih => exact ih.drift hd
  | answer _ hs ih => exact (ih _ (S.drifts_refl _)).2.2 _ _ hs

theorem invariant (h : Safe S inv may post p w) : inv w := by
  cases p with
  | done a => exact (h w (S.drifts_refl w)).1
  | raise e => exact (h w (S.drifts_refl w)).1
  | ask o next => exact (h w (S.drifts_refl w)).1

theorem stops (h : Safe S inv may post p w) (hstop : Stops S p w v) : inv v := by
  obtain ⟨q,hq⟩ := hstop
  exact (h.reaches hq).invariant

theorem mayAsk {o : Op} {next : Ans o → Process Op Ans ε α}
    (h : Safe S inv may post (.ask o next) w) : may o w := (h w (S.drifts_refl w)).2.1

theorem outcome {a : α} (h : Safe S inv may post (.done a) w) : post (.ok a) w :=
  (h w (S.drifts_refl w)).2

theorem ended {r : Except ε α} (h : Safe S inv may post (.lift r) w) : post r w := by
  cases r with
  | ok a => exact (h w (S.drifts_refl w)).2
  | error e => exact (h w (S.drifts_refl w)).2

end Safe

end Rules

/-- A service whose world moves only when it is asked. -/
def Service.Still (S : Service Op Ans W) : Prop := ∀ w v, S.drifts w v → w = v

section Still
variable {S : Service Op Ans W} {inv : W → Prop} {may : Op → W → Prop}
  {post : Except ε α → W → Prop} {w : W}

namespace Safe

theorem stillQuery (hS : S.Still) {o : Op} {f : Ans o → Process Op Ans ε α} (hinv : inv w)
    (hmay : may o w) (h : ∀ a u, S.serves o w a u → Safe S inv may post (f a) u) :
    Safe S inv may post (Process.query o >>= f) w := by
  intro v hd
  obtain rfl := hS w v hd
  exact ⟨hinv,hmay,h⟩

theorem stillDone (hS : S.Still) {a : α} (hinv : inv w) (hpost : post (.ok a) w) :
    Safe S inv may post (.done a) w := by
  intro v hd
  obtain rfl := hS w v hd
  exact ⟨hinv,hpost⟩

theorem stillRaise (hS : S.Still) {e : ε} (hinv : inv w) (hpost : post (.error e) w) :
    Safe S inv may post (.raise e) w := by
  intro v hd
  obtain rfl := hS w v hd
  exact ⟨hinv,hpost⟩

theorem stillLift (hS : S.Still) {x : Except ε α} (hinv : inv w) (hpost : post x w) :
    Safe S inv may post (.lift x) w := by
  cases x with
  | ok a => exact stillDone hS hinv hpost
  | error e => exact stillRaise hS hinv hpost

end Safe

end Still

/-- Whenever the program returns, `Q` holds of its result and of the world it leaves. -/
def Yields (S : Service Op Ans W) (p : Process Op Ans ε α) (w : W) (Q : α → W → Prop) : Prop :=
  Safe S (fun _ => True) (fun _ _ => True) (fun r v => ∀ a, r = .ok a → Q a v) p w

namespace Yields
variable {S : Service Op Ans W} {p : Process Op Ans ε α} {w v : W} {Q R : α → W → Prop}

theorem done (hS : S.Still) {a : α} (h : Q a w) :
    Yields S (.done a : Process Op Ans ε α) w Q := by
  apply Safe.stillDone hS trivial
  intro b hb
  cases hb
  exact h

theorem raise {e : ε} : Yields S (.raise e : Process Op Ans ε α) w Q := by
  intro v _
  exact ⟨trivial,fun a ha => nomatch ha⟩

theorem imp (h : Yields S p w R) (hRQ : ∀ a v, R a v → Q a v) : Yields S p w Q :=
  Safe.imp h (fun _ _ => trivial) (fun _ _ _ _ => trivial) (fun _ v _ hr a ha => hRQ a v (hr a ha))

theorem bind {f : α → Process Op Ans ε β} {Q : β → W → Prop} (h : Yields S p w R)
    (hf : ∀ a v, R a v → Yields S (f a) v Q) : Yields S (p >>= f) w Q :=
  Safe.andThen h (fun a v _ hr => hf a v (hr a rfl)) (fun _ _ _ _ _ hb => nomatch hb)

theorem lift {x : Except ε α} {f : α → Process Op Ans ε β} {Q : β → W → Prop}
    (h : ∀ a, x = .ok a → Yields S (f a) w Q) : Yields S (Process.lift x >>= f) w Q :=
  Safe.lift h (fun _ _ => raise)

/-- A loop over a list keeps an assertion about the part it has been through. -/
theorem foldlM {ι : Type} {f : α → ι → Process Op Ans ε α} {I : List ι → α → W → Prop}
    (hS : S.Still) (xs : List ι)
    (hstep : ∀ before x a w, x ∈ xs → I before a w →
      Yields S (f a x) w (I (before ++ [x]))) :
    ∀ before a w, I before a w → Yields S (xs.foldlM f a) w (I (before ++ xs)) := by
  induction xs with
  | nil =>
    intro before a w h
    rw [List.append_nil]
    exact done hS h
  | cons x xs ih =>
    intro before a w h
    rw [List.foldlM_cons]
    apply bind (hstep before x a w List.mem_cons_self h)
    intro b v hb
    have hrest := ih (fun _ y c u hy => hstep _ y c u (List.mem_cons_of_mem x hy)) _ b v hb
    rwa [List.append_assoc] at hrest

theorem reaches_done {a : α} (h : Yields S p w Q) (hr : Reaches S w p v (.done a)) : Q a v :=
  (Safe.reaches h hr).outcome a rfl

end Yields

/-- The service that answers anything and keeps the conversation. -/
def transcript (Op : Type) (Ans : Op → Type) : Service Op Ans (List (Sigma Ans)) where
  serves o w a v := v = w ++ [⟨o,a⟩]
  drifts := Eq
  drifts_refl _ := rfl
  drifts_trans _ _ _ := Eq.trans

section Transcript
variable {inv : List (Sigma Ans) → Prop} {may : Op → List (Sigma Ans) → Prop}
  {post : Except ε α → List (Sigma Ans) → Prop} {log : List (Sigma Ans)}

lemma transcript_still : (transcript Op Ans).Still := fun _ _ h => h

namespace Safe

theorem say {o : Op} {f : Ans o → Process Op Ans ε α} (hinv : inv log) (hmay : may o log)
    (h : ∀ a, Safe (transcript Op Ans) inv may post (f a) (log ++ [⟨o,a⟩])) :
    Safe (transcript Op Ans) inv may post (Process.query o >>= f) log := by
  apply stillQuery transcript_still hinv hmay
  intro a u hs
  obtain rfl : u = log ++ [(⟨o,a⟩ : Sigma Ans)] := hs
  exact h a

theorem sayDone {a : α} (hinv : inv log) (hpost : post (.ok a) log) :
    Safe (transcript Op Ans) inv may post (.done a) log := stillDone transcript_still hinv hpost

theorem sayLift {x : Except ε α} (hinv : inv log) (hpost : post x log) :
    Safe (transcript Op Ans) inv may post (.lift x) log := stillLift transcript_still hinv hpost

theorem sayRaise {e : ε} (hinv : inv log) (hpost : post (.error e) log) :
    Safe (transcript Op Ans) inv may post (.raise e) log := stillRaise transcript_still hinv hpost

end Safe

end Transcript

end Kswarm
