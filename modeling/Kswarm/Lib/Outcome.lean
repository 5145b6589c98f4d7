import Mathlib.Data.List.Forall2
import Mathlib.Data.Option.Basic
import Mathlib.Tactic.Common

/-! Fallible computations written as a chain of guarded reads. Every function that can refuse its
input is an `Except` chain of `failIf` guards, `require`d options and nested chains, and a chain
is inverted one link at a time. -/
namespace Kswarm
variable {ε ε' α β : Type}

/-- The refusing guard: `if c { return Err(e) }`, or `if c: raise e`. -/
def failIf (c : Prop) [Decidable c] (e : ε) : Except ε Unit := if c then .error e else .ok ()

/-- The refusing projection: `x.ok_or(e)?`. -/
def require (x : Option α) (e : ε) : Except ε α :=
  match x with
  | some a => .ok a
  | none => .error e

@[simp] theorem failIf_eq_ok {c : Prop} [Decidable c] {e : ε} {u : Unit} :
    failIf c e = .ok u ↔ ¬c := by
  unfold failIf
  split <;> simp_all

@[simp] theorem require_eq_ok {x : Option α} {e : ε} {a : α} :
    require x e = .ok a ↔ x = some a := by
  cases x <;> simp [require]

lemma failIf_of_not {c : Prop} [Decidable c] {e : ε} (h : ¬c) : failIf c e = .ok () :=
  failIf_eq_ok.mpr h

lemma ok_bind (a : α) (f : α → Except ε β) : (Except.ok a >>= f) = f a := rfl

/-- Peeling one link off a successful chain. -/
@[simp] theorem bind_eq_ok {x : Except ε α} {f : α → Except ε β} {b : β} :
    (x >>= f) = .ok b ↔ ∃ a, x = .ok a ∧ f a = .ok b := by
  cases x with
  | error e => simp [Bind.bind,Except.bind]
  | ok a => simp [Bind.bind,Except.bind]

@[simp] theorem pure_eq_ok {a b : α} : (pure a : Except ε α) = .ok b ↔ a = b := by
  simp [pure,Except.pure]

/-- Renaming an error keeps exactly the same successes. -/
@[simp] theorem ok_of_mapError (rename : ε → ε') (x : Except ε α) (a : α) :
    Except.mapError rename x = .ok a ↔ x = .ok a := by
  cases x with
  | error e => simp [Except.mapError]
  | ok b => simp [Except.mapError]

@[simp] theorem map_eq_ok {x : Except ε α} {f : α → β} {b : β} :
    (f <$> x) = .ok b ↔ ∃ a, x = .ok a ∧ f a = b := by
  cases x <;> simp [Functor.map,Except.map]

@[simp] theorem ite_eq_ok {c : Prop} [Decidable c] {x y : Except ε α} {a : α} :
    (if c then x else y) = .ok a ↔ (c ∧ x = .ok a) ∨ (¬c ∧ y = .ok a) := by
  split <;> simp_all

/-- A traversal succeeds exactly when every turn does. -/
theorem mapM_eq_ok {f : α → Except ε β} {xs : List α} {ys : List β} :
    xs.mapM f = .ok ys ↔ List.Forall₂ (fun x y => f x = .ok y) xs ys := by
  induction xs generalizing ys with
  | nil =>
    rw [List.mapM_nil,pure_eq_ok,List.forall₂_nil_left_iff]
    exact eq_comm
  | cons x xs ih =>
    simp only [List.mapM_cons,bind_eq_ok,pure_eq_ok,ih,List.forall₂_cons_left_iff]
    constructor
    · rintro ⟨y,hy,ys,hys,rfl⟩
      exact ⟨y,ys,hy,hys,rfl⟩
    · rintro ⟨y,ys,hy,hys,rfl⟩
      exact ⟨y,hy,ys,hys,rfl⟩

/-- A loop of checks passes exactly when every check does. -/
theorem forM_eq_ok {f : α → Except ε Unit} {xs : List α} :
    xs.forM f = .ok () ↔ ∀ x ∈ xs, f x = .ok () := by
  induction xs with
  | nil => simp [pure,Except.pure]
  | cons x xs ih =>
    change (f x >>= fun _ => xs.forM f) = .ok () ↔ _
    simp only [bind_eq_ok,List.forall_mem_cons,ih]
    constructor
    · rintro ⟨_,hx,hxs⟩
      exact ⟨hx,hxs⟩
    · rintro ⟨hx,hxs⟩
      exact ⟨(),hx,hxs⟩

/-- A loop that collects findings finds nothing exactly when no turn does. -/
theorem flatten_mapM_eq_nil {f : α → Except ε (List β)} {xs : List α} :
    List.flatten <$> xs.mapM f = .ok [] ↔ ∀ x ∈ xs, f x = .ok [] := by
  simp only [map_eq_ok,mapM_eq_ok]
  induction xs with
  | nil => simp
  | cons x xs ih =>
    simp only [List.forall₂_cons_left_iff,List.forall_mem_cons,← ih]
    constructor
    · rintro ⟨_,⟨y,ys,hy,hys,rfl⟩,hnil⟩
      rw [List.flatten_cons,List.append_eq_nil_iff] at hnil
      exact ⟨hnil.1 ▸ hy,ys,hys,hnil.2⟩
    · rintro ⟨hy,ys,hys,hnil⟩
      exact ⟨[]::ys,⟨[],ys,hy,hys,rfl⟩,by simpa using hnil⟩

/-- What a relation keeps fixed is the same list on both sides. -/
lemma map_eq_of_forall₂ {γ : Type} {R : α → β → Prop} {f : α → γ} {g : β → γ} {xs : List α}
    {ys : List β} (h : List.Forall₂ R xs ys) (hfg : ∀ x y, R x y → f x = g y) :
    xs.map f = ys.map g := by
  induction h with
  | nil => rfl
  | cons hxy _ ih => exact congrArg₂ List.cons (hfg _ _ hxy) ih

lemma exists_of_mem_right {R : α → β → Prop} {xs : List α} {ys : List β}
    (h : List.Forall₂ R xs ys) {y : β} (hy : y ∈ ys) : ∃ x ∈ xs, R x y := by
  induction h with
  | nil => simp at hy
  | cons hxy _ ih =>
    cases List.mem_cons.mp hy with
    | inl he =>
      subst he
      exact ⟨_,by simp,hxy⟩
    | inr ht =>
      obtain ⟨x,hx,hr⟩ := ih ht
      exact ⟨x,by simp [hx],hr⟩

/-- Partners of the members are a list of partners. -/
lemma exists_forall₂ {R : α → β → Prop} {xs : List α} (h : ∀ x ∈ xs, ∃ y, R x y) :
    ∃ ys, List.Forall₂ R xs ys := by
  induction xs with
  | nil => exact ⟨[],.nil⟩
  | cons x xs ih =>
    obtain ⟨y,hy⟩ := h x (by simp)
    obtain ⟨ys,hys⟩ := ih (fun z hz => h z (by simp [hz]))
    exact ⟨y::ys,.cons hy hys⟩

/-- Two lists of partners of one list are partners of each other. -/
lemma forall₂_join {γ : Type} {R : α → β → Prop} {S : α → γ → Prop} {xs : List α} {ys : List β}
    {zs : List γ} (h : List.Forall₂ R xs ys) (h' : List.Forall₂ S xs zs) :
    List.Forall₂ (fun y z => ∃ x, R x y ∧ S x z) ys zs := by
  induction h generalizing zs with
  | nil =>
    cases h'
    exact .nil
  | cons hxy _ ih =>
    cases h' with
    | cons hxz ht => exact .cons ⟨_,hxy,hxz⟩ (ih ht)

/-- The caller sees a value rather than a refusal. -/
def Accepts (x : Except ε α) : Prop := ∃ a, x = .ok a

instance (x : Except ε α) : Decidable (Accepts x) :=
  match x with
  | .ok a => isTrue ⟨a,rfl⟩
  | .error _ => isFalse (by rintro ⟨a,h⟩; cases h)

/-- A chain accepts once its first link does and the rest accepts what it returns. -/
lemma Accepts.bind {x : Except ε α} {f : α → Except ε β} {a : α} (h : x = .ok a)
    (hf : Accepts (f a)) : Accepts (x >>= f) := by
  obtain ⟨b,hb⟩ := hf
  exact ⟨b,bind_eq_ok.mpr ⟨a,h,hb⟩⟩

lemma Accepts.guard {c : Prop} [Decidable c] {e : ε} {f : Unit → Except ε β} (h : ¬c)
    (hf : Accepts (f ())) : Accepts (failIf c e >>= f) :=
  .bind (failIf_eq_ok.mpr h) hf

lemma Accepts.andThen {x : Except ε α} {f : α → Except ε β} (h : Accepts x)
    (hf : ∀ a, Accepts (f a)) : Accepts (x >>= f) := by
  obtain ⟨a,ha⟩ := h
  exact .bind ha (hf a)

lemma mapM_accepts {f : α → Except ε β} {xs : List α} (h : ∀ x ∈ xs, Accepts (f x)) :
    Accepts (xs.mapM f) := by
  obtain ⟨ys,hys⟩ := exists_forall₂ h
  exact ⟨ys,mapM_eq_ok.mpr hys⟩

/-- The computation refuses with such an error. -/
def Fails (p : ε → Prop) (x : Except ε α) : Prop := ∃ e, x = .error e ∧ p e

namespace Fails
variable {p : ε → Prop}

@[simp] theorem error_iff {e : ε} : Fails p (.error e : Except ε α) ↔ p e := by
  simp [Fails]

@[simp] theorem ok_iff {a : α} : ¬Fails p (.ok a : Except ε α) := by
  simp [Fails]

@[simp] theorem pure_iff {a : α} : ¬Fails p (pure a : Except ε α) := ok_iff

/-- A chain refuses at its first link, or after it. -/
@[simp] theorem bind_iff {x : Except ε α} {f : α → Except ε β} :
    Fails p (x >>= f) ↔ Fails p x ∨ ∃ a, x = .ok a ∧ Fails p (f a) := by
  cases x with
  | error e => simp [Fails,Bind.bind,Except.bind]
  | ok a => simp [Fails,Bind.bind,Except.bind]

@[simp] theorem map_iff {x : Except ε α} {f : α → β} : Fails p (f <$> x) ↔ Fails p x := by
  cases x <;> simp [Fails,Functor.map,Except.map]

@[simp] theorem mapError_iff {x : Except ε' α} {rename : ε' → ε} :
    Fails p (x.mapError rename) ↔ Fails (fun e => p (rename e)) x := by
  cases x <;> simp [Fails,Except.mapError]

@[simp] theorem failIf_iff {c : Prop} [Decidable c] {e : ε} : Fails p (failIf c e) ↔ c ∧ p e := by
  unfold failIf
  split_ifs with hc <;> simp [hc]

@[simp] theorem require_iff {x : Option α} {e : ε} : Fails p (require x e) ↔ x = none ∧ p e := by
  cases x <;> simp [require,Fails]

/-- No error of that kind, no refusal. -/
lemma of_false {x : Except ε α} (h : ∀ e, ¬p e) : ¬Fails p x := by
  rintro ⟨e,-,he⟩
  exact h e he

end Fails

/-- Both ways a computation can end: a refusal satisfies `p`, a value satisfies `q`. -/
def Ends (p : ε → Prop) (q : α → Prop) : Except ε α → Prop
  | .error e => p e
  | .ok a => q a

namespace Ends
variable {p : ε → Prop} {q : α → Prop} {r : β → Prop}

lemma of_eq {x : Except ε α} (he : ∀ e, x = .error e → p e) (ha : ∀ a, x = .ok a → q a) :
    Ends p q x := by
  cases x with
  | error e => exact he e rfl
  | ok a => exact ha a rfl

lemma error {x : Except ε α} {e : ε} (h : Ends p q x) (he : x = .error e) : p e := by
  rw [he] at h
  exact h

lemma ok {x : Except ε α} {a : α} (h : Ends p q x) (ha : x = .ok a) : q a := by
  rw [ha] at h
  exact h

lemma pure {a : α} (h : q a) : Ends p q (Pure.pure a : Except ε α) := h

lemma bind {x : Except ε α} {f : α → Except ε β} (h : Ends p q x)
    (hf : ∀ a, q a → Ends p r (f a)) : Ends p r (x >>= f) := by
  cases x with
  | error e => exact h
  | ok a => exact hf a h

lemma require {x : Option α} {e : ε} (he : x = none → p e) (ha : ∀ a, x = some a → q a) :
    Ends p q (Kswarm.require x e) := by
  cases x with
  | none => exact he rfl
  | some a => exact ha a rfl

lemma failIf {c : Prop} [Decidable c] {e : ε} (he : c → p e) :
    Ends p (fun _ => ¬c) (Kswarm.failIf c e) := by
  unfold Kswarm.failIf
  split_ifs with hc
  · exact he hc
  · exact hc

/-- A computation with errors of its own, renamed. -/
lemma mapError {x : Except ε' α} {rename : ε' → ε} (he : ∀ e, p (rename e))
    (ha : ∀ a, x = .ok a → q a) : Ends p q (x.mapError rename) := by
  cases x with
  | error e => exact he e
  | ok a => exact ha a rfl

end Ends

/-- Two computations accept the same inputs with the same values; their refusals may differ. -/
def SameOk (x : Except ε α) (y : Except ε' α) : Prop := ∀ a, x = .ok a ↔ y = .ok a

namespace SameOk

theorem refl (a : α) : SameOk (pure a : Except ε α) (pure a : Except ε' α) := by
  intro b
  simp

theorem failIf {c d : Prop} [Decidable c] [Decidable d] {e : ε} {e' : ε'} (h : c ↔ d) :
    SameOk (Kswarm.failIf c e) (Kswarm.failIf d e') := by
  intro u
  simp [h]

theorem require (x : Option α) (e : ε) (e' : ε') :
    SameOk (Kswarm.require x e) (Kswarm.require x e') := by
  intro a
  simp

theorem bind {x : Except ε α} {y : Except ε' α} {f : α → Except ε β} {g : α → Except ε' β}
    (h : SameOk x y) (hf : ∀ a, SameOk (f a) (g a)) : SameOk (x >>= f) (y >>= g) := by
  intro b
  simp only [bind_eq_ok]
  exact exists_congr (fun a => and_congr (h a) (hf a b))

end SameOk

/-- How a computation can stop short: with an error it returns itself, or by a fault of the machine
below it, which the source leaves to the language. -/
inductive Stop (ε : Type) where
  | fault
  | refused (error : ε)

/-- A computation that cannot fault. -/
def returned (x : Except ε α) : Except (Stop ε) α := x.mapError .refused

lemma returned_bind (x : Except ε α) (f : α → Except ε β) :
    returned (x >>= f) = returned x >>= fun a => returned (f a) := by
  cases x <;> rfl

lemma returned_failIf {c : Prop} [Decidable c] (e : ε) :
    returned (failIf c e) = failIf c (.refused e) := by
  unfold failIf
  split_ifs <;> rfl

lemma returned_require (x : Option α) (e : ε) : returned (require x e) = require x (.refused e) := by
  cases x <;> rfl

lemma returned_pure (a : α) : returned (pure a : Except ε α) = pure a := rfl

lemma returned_ne_fault (x : Except ε α) : returned x ≠ .error .fault := by
  cases x with
  | error e => simp [returned,Except.mapError]
  | ok a => simp [returned,Except.mapError]

lemma returned_eq_ok {x : Except ε α} {a : α} : returned x = .ok a ↔ x = .ok a :=
  ok_of_mapError _ x a

/-- The watched computation `x` does what `y` does until it faults. -/
def Watches (x : Except (Stop ε) α) (y : Except ε α) : Prop := x ≠ .error .fault → x = returned y

namespace Watches

lemma refl (y : Except ε α) : Watches (returned y) y := fun _ => rfl

lemma pure (a : α) : Watches (Pure.pure a : Except (Stop ε) α) (Pure.pure a) := refl (Pure.pure a)

lemma bind {x : Except (Stop ε) α} {y : Except ε α} {f : α → Except (Stop ε) β}
    {g : α → Except ε β} (h : Watches x y) (hf : ∀ a, Watches (f a) (g a)) :
    Watches (x >>= f) (y >>= g) := by
  intro hne
  have hx : x ≠ .error .fault := by
    intro he
    rw [he] at hne
    exact hne rfl
  have hxy := h hx
  rw [hxy,returned_bind]
  cases y with
  | error e => rfl
  | ok a =>
    rw [hxy] at hne
    exact hf a hne

/-- A watched operation whose value the computation uses without a check of its own. -/
lemma step {x : Except (Stop ε) α} {a : α} {f : α → Except (Stop ε) β} {y : Except ε β}
    (h : Watches x (Pure.pure a)) (hf : Watches (f a) y) : Watches (x >>= f) y := by
  intro hne
  have hx : x ≠ .error .fault := by
    intro he
    rw [he] at hne
    exact hne rfl
  have hxa : x = .ok a := h hx
  rw [hxa] at hne ⊢
  exact hf hne

lemma foldlM {f : β → α → Except (Stop ε) β} {g : β → α → Except ε β}
    (h : ∀ b a, Watches (f b a) (g b a)) (xs : List α) (b : β) :
    Watches (xs.foldlM f b) (xs.foldlM g b) := by
  induction xs generalizing b with
  | nil => exact pure b
  | cons x xs ih =>
    rw [List.foldlM_cons,List.foldlM_cons]
    exact (h b x).bind ih

/-- A watched computation that succeeds is the computation. -/
lemma eq_ok {x : Except (Stop ε) α} {y : Except ε α} {a : α} (h : Watches x y) (hx : x = .ok a) :
    y = .ok a := by
  have hxy := h (by rw [hx]; simp)
  exact returned_eq_ok.mp (hxy.symm.trans hx)

end Watches

end Kswarm
