import Kswarm.Lib.Collision

/-! Binary hash trees built level by level, with an odd last node promoted unchanged. Leaf and
node messages are drawn from one message type and hashed by one function; their images are
disjoint, so a tree is determined by its digest up to a collision among its own messages. -/
namespace Kswarm

/-- A binary tree with data at the leaves. -/
inductive MerkleTree (α : Type) where
  | leaf (a : α)
  | node (l r : MerkleTree α)

/-- Pair neighbours; the last element of an odd level is promoted. -/
def pairUp {β : Type} (f : β → β → β) : List β → List β
  | [] => []
  | [a] => [a]
  | a::b::rest => f a b :: pairUp f rest

/-- Repeat `pairUp` while more than one element is left. -/
def climb {β : Type} (f : β → β → β) : ℕ → List β → List β
  | 0,level => level
  | n+1,level => if 1 < level.length then climb f n (pairUp f level) else level

/-- The messages one pairing pass hashes. -/
def pairMessages {β μ : Type} (msg : β → β → μ) : List β → List μ
  | [] => []
  | [_] => []
  | a::b::rest => msg a b :: pairMessages msg rest

/-- The messages every pass of `climb` hashes. -/
def climbMessages {β μ : Type} (f : β → β → β) (msg : β → β → μ) : ℕ → List β → List μ
  | 0,_ => []
  | n+1,level =>
    if 1 < level.length then pairMessages msg level ++ climbMessages f msg n (pairUp f level)
    else []

theorem pairUp_length {β : Type} (f : β → β → β) (level : List β) :
    (pairUp f level).length = (level.length+1)/2 := by
  induction level using pairUp.induct with
  | case1 => simp [pairUp]
  | case2 a => simp [pairUp]
  | case3 a b rest ih => simp only [pairUp,List.length_cons,ih]; omega

/-- As many passes as elements always leave a single root. -/
theorem climb_length {β : Type} (f : β → β → β) (n : ℕ) (level : List β)
    (h0 : level ≠ []) (hn : level.length ≤ n+1) : (climb f n level).length = 1 := by
  induction n generalizing level with
  | zero =>
    have := List.length_pos_iff.mpr h0
    simp only [climb]
    omega
  | succ n ih =>
    simp only [climb]
    split_ifs with h
    · have hl := pairUp_length f level
      apply ih
      · intro he
        simp only [he,List.length_nil] at hl
        omega
      · omega
    · have := List.length_pos_iff.mpr h0
      omega

namespace MerkleTree
variable {α β μ : Type} (H : μ → β) (leafMsg : α → μ) (nodeMsg : β → β → μ)

/-- The digest of a tree: every node hashes its two child digests. -/
def digest : MerkleTree α → β
  | leaf a => H (leafMsg a)
  | node l r => H (nodeMsg l.digest r.digest)

/-- Every message hashed on the way to the digest. -/
def messages : MerkleTree α → List μ
  | leaf a => [leafMsg a]
  | node l r => nodeMsg (l.digest H leafMsg nodeMsg) (r.digest H leafMsg nodeMsg) ::
      (l.messages ++ r.messages)

def leaves : MerkleTree α → List α
  | leaf a => [a]
  | node l r => l.leaves ++ r.leaves

variable {H leafMsg nodeMsg}

/-- A digest determines its tree, shape included, or two of the hashed messages collide. The two
trees may have any shapes: domain separation tells a leaf from a node. -/
theorem eq_or_collision_of_digest (hleaf : Function.Injective leafMsg)
    (hnode : ∀ a b c d, nodeMsg a b = nodeMsg c d → a = c ∧ b = d)
    (hsep : ∀ a b c, leafMsg a ≠ nodeMsg b c) (t u : MerkleTree α)
    (h : t.digest H leafMsg nodeMsg = u.digest H leafMsg nodeMsg) :
    t = u ∨ Collision H (t.messages H leafMsg nodeMsg ++ u.messages H leafMsg nodeMsg) := by
  induction t generalizing u with
  | leaf a => cases u with
    | leaf b =>
      have hm : H (leafMsg a) = H (leafMsg b) := h
      exact (eq_or_collision (by simp [messages]) (by simp [messages]) hm).imp_left
        (fun he => congrArg leaf (hleaf he))
    | node l r => exact .inr ⟨_,by simp [messages],_,by simp [messages],hsep a _ _,h⟩
  | node l r ihl ihr => cases u with
    | leaf b => exact .inr ⟨_,by simp [messages],_,by simp [messages],(hsep b _ _).symm,h⟩
    | node l' r' =>
      have hh : H (nodeMsg (l.digest H leafMsg nodeMsg) (r.digest H leafMsg nodeMsg)) =
          H (nodeMsg (l'.digest H leafMsg nodeMsg) (r'.digest H leafMsg nodeMsg)) := h
      have hm := eq_or_collision (S := (node l r).messages H leafMsg nodeMsg ++
        (node l' r').messages H leafMsg nodeMsg) (by simp [messages]) (by simp [messages]) hh
      rcases hm with hm | hc
      · obtain ⟨hl,hr⟩ := hnode _ _ _ _ hm
        rcases ihl l' hl with rfl | hc
        · rcases ihr r' hr with rfl | hc
          · exact .inl rfl
          · refine .inr (hc.mono ?_)
            intro x hx
            simp only [messages,List.mem_append,List.mem_cons] at hx ⊢
            tauto
        · refine .inr (hc.mono ?_)
          intro x hx
          simp only [messages,List.mem_append,List.mem_cons] at hx ⊢
          tauto
      · exact .inr hc

lemma pairUp_digest (ts : List (MerkleTree α)) :
    pairUp (fun a b => H (nodeMsg a b)) (ts.map (digest H leafMsg nodeMsg)) =
      (pairUp node ts).map (digest H leafMsg nodeMsg) := by
  induction ts using pairUp.induct with
  | case1 => simp [pairUp]
  | case2 t => simp [pairUp]
  | case3 t u rest ih => simp only [List.map_cons,pairUp,digest,ih]

/-- The level loop on digests computes the digests of the level loop on trees. -/
theorem climb_digest (n : ℕ) (ts : List (MerkleTree α)) :
    climb (fun a b => H (nodeMsg a b)) n (ts.map (digest H leafMsg nodeMsg)) =
      (climb node n ts).map (digest H leafMsg nodeMsg) := by
  induction n generalizing ts with
  | zero => rfl
  | succ n ih =>
    simp only [climb,List.length_map]
    split_ifs with h
    · rw [pairUp_digest,ih]
    · rfl

lemma pairUp_leaves (ts : List (MerkleTree α)) :
    (pairUp node ts).flatMap leaves = ts.flatMap leaves := by
  induction ts using pairUp.induct with
  | case1 => simp [pairUp]
  | case2 t => simp [pairUp]
  | case3 t u rest ih => simp [pairUp,leaves,ih]

theorem climb_leaves (n : ℕ) (ts : List (MerkleTree α)) :
    (climb node n ts).flatMap leaves = ts.flatMap leaves := by
  induction n generalizing ts with
  | zero => rfl
  | succ n ih =>
    simp only [climb]
    split_ifs with h
    · rw [ih,pairUp_leaves]
    · rfl

lemma pairUp_messages (ts : List (MerkleTree α)) :
    (pairUp node ts).flatMap (messages H leafMsg nodeMsg) ⊆
      ts.flatMap (messages H leafMsg nodeMsg) ++
        pairMessages nodeMsg (ts.map (digest H leafMsg nodeMsg)) := by
  induction ts using pairUp.induct with
  | case1 => simp [pairUp]
  | case2 t => simp [pairUp]
  | case3 a b rest ih =>
    intro x hx
    simp only [pairUp,List.flatMap_cons,messages,List.mem_append,List.mem_cons,List.map_cons,
      pairMessages] at hx ⊢
    rcases hx with (rfl | ha | hb) | hr
    · exact .inr (.inl rfl)
    · exact .inl (.inl ha)
    · exact .inl (.inr (.inl hb))
    · rcases List.mem_append.mp (ih hr) with h | h
      · exact .inl (.inr (.inr h))
      · exact .inr (.inr h)

/-- Every message of the final tree was a leaf message or was hashed by some pass. -/
theorem climb_messages_subset (n : ℕ) (ts : List (MerkleTree α)) :
    (climb node n ts).flatMap (messages H leafMsg nodeMsg) ⊆
      ts.flatMap (messages H leafMsg nodeMsg) ++
        climbMessages (fun a b => H (nodeMsg a b)) nodeMsg n
          (ts.map (digest H leafMsg nodeMsg)) := by
  induction n generalizing ts with
  | zero => exact List.subset_append_left _ _
  | succ n ih =>
    simp only [climb,climbMessages,List.length_map]
    split_ifs with h
    · intro x hx
      rcases List.mem_append.mp (ih _ hx) with hm | hm
      · have := pairUp_messages ts hm
        simp only [List.mem_append] at this ⊢
        tauto
      · rw [pairUp_digest]
        simp only [List.mem_append]
        exact .inr (.inr hm)
    · exact List.subset_append_left _ _

/-- The root of a level loop over leaf digests: the digest of one tree over the same leaves, all
of whose messages were hashed by the loop. -/
theorem exists_tree (xs : List α) (h0 : xs ≠ []) : ∃ t : MerkleTree α,
    t.leaves = xs ∧
    climb (fun a b => H (nodeMsg a b)) xs.length (xs.map (fun x => H (leafMsg x))) =
      [t.digest H leafMsg nodeMsg] ∧
    t.messages H leafMsg nodeMsg ⊆ xs.map leafMsg ++
      climbMessages (fun a b => H (nodeMsg a b)) nodeMsg xs.length
        (xs.map (fun x => H (leafMsg x))) := by
  have hd : xs.map (fun x => H (leafMsg x)) =
      (xs.map leaf).map (digest H leafMsg nodeMsg) := by
    rw [List.map_map]
    rfl
  have hlen := climb_length (node (α := α)) xs.length (xs.map leaf) (by simpa using h0) (by simp)
  obtain ⟨t,ht⟩ := List.length_eq_one_iff.mp hlen
  have hl := climb_leaves xs.length (xs.map leaf)
  have hm := @climb_messages_subset α β μ H leafMsg nodeMsg xs.length (xs.map leaf)
  rw [ht] at hl hm
  refine ⟨t,?_,?_,?_⟩
  · simpa [List.flatMap_map,leaves] using hl
  · rw [hd,climb_digest,ht]
    rfl
  · rw [hd]
    have he : (xs.map leaf).flatMap (messages H leafMsg nodeMsg) = xs.map leafMsg := by
      rw [List.flatMap_map,List.map_eq_flatMap]
      rfl
    rw [he] at hm
    simpa using hm

end MerkleTree
end Kswarm
