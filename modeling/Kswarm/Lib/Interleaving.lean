import Kswarm.Lib.Process

/-! Two programs that take turns on one world. Each is proved about a memory of its own, which the
other's turns do not reach, and what they may ask there is enough to keep an invariant of the
world they share. -/
namespace Kswarm
variable {Op : Type} {Ans : Op → Type} {ε α δ β W : Type}

/-- Two programs started in `w`, each with its own service of the one world, can be left in `v`. -/
inductive Interleaves (S T : Service Op Ans W) (w : W) (p : Process Op Ans ε α)
    (q : Process Op Ans δ β) : W → Process Op Ans ε α → Process Op Ans δ β → Prop
  | start : Interleaves S T w p q w p q
  | left {v u o next a r} (h : Interleaves S T w p q v (.ask o next) r) (hs : S.serves o v a u) :
      Interleaves S T w p q u (next a) r
  | right {v u o next a r} (h : Interleaves S T w p q v r (.ask o next)) (hs : T.serves o v a u) :
      Interleaves S T w p q u r (next a)
  | drift {v u r r'} (h : Interleaves S T w p q v r r') (hd : S.drifts v u ∨ T.drifts v u) :
      Interleaves S T w p q u r r'

namespace Interleaves
variable {S T : Service Op Ans W} {w v u : W} {p p' p'' : Process Op Ans ε α}
  {q q' q'' : Process Op Ans δ β}

/-- The left program goes on alone. -/
theorem runLeft (h : Interleaves S T w p q v p' q') (hr : Reaches S v p' u p'') :
    Interleaves S T w p q u p'' q' := by
  induction hr with
  | start => exact h
  | drift _ hd ih => exact .drift ih (.inl hd)
  | answer _ hs ih => exact .left ih hs

/-- The right program goes on alone. -/
theorem runRight (h : Interleaves S T w p q v p' q') (hr : Reaches T v q' u q'') :
    Interleaves S T w p q u p' q'' := by
  induction hr with
  | start => exact h
  | drift _ hd ih => exact .drift ih (.inr hd)
  | answer _ hs ih => exact .right ih hs

section Rule
variable {A B : Type} {M : Service Op Ans A} {N : Service Op Ans B} {m : W → A} {n : W → B}
  {inv : A → Prop} {inv' : B → Prop} {may : Op → A → Prop} {may' : Op → B → Prop}
  {post : Except ε α → A → Prop} {post' : Except δ β → B → Prop} {J : W → Prop}

/-- What two programs may ask, each seen in its own memory, keeps an invariant of their world. -/
theorem keeps (h : Interleaves S T w p q v p' q') (hw : J w)
    (hp : Safe M inv may post p (m w)) (hq : Safe N inv' may' post' q (n w))
    (hleft : ∀ o v a u, S.serves o v a u → J v → may o (m v) →
      M.serves o (m v) a (m u) ∧ n u = n v ∧ J u)
    (hright : ∀ o v a u, T.serves o v a u → J v → may' o (n v) →
      N.serves o (n v) a (n u) ∧ m u = m v ∧ J u)
    (hdrift : ∀ v u, S.drifts v u ∨ T.drifts v u → J v → m u = m v ∧ n u = n v ∧ J u) :
    J v ∧ Safe M inv may post p' (m v) ∧ Safe N inv' may' post' q' (n v) := by
  induction h with
  | start => exact ⟨hw,hp,hq⟩
  | left _ hs ih =>
    obtain ⟨hv,hp',hq'⟩ := ih
    obtain ⟨hserve,hother,hu⟩ := hleft _ _ _ _ hs hv hp'.mayAsk
    exact ⟨hu,hp'.reaches (.answer .start hserve),hother ▸ hq'⟩
  | right _ hs ih =>
    obtain ⟨hv,hp',hq'⟩ := ih
    obtain ⟨hserve,hother,hu⟩ := hright _ _ _ _ hs hv hq'.mayAsk
    exact ⟨hu,hother ▸ hp',hq'.reaches (.answer .start hserve)⟩
  | drift _ hd ih =>
    obtain ⟨hv,hp',hq'⟩ := ih
    obtain ⟨hm,hn,hu⟩ := hdrift _ _ hd hv
    exact ⟨hu,hm ▸ hp',hn ▸ hq'⟩

end Rule

end Interleaves

end Kswarm
