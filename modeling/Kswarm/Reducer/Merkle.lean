import Kswarm.Lib.MerkleTree
import Kswarm.Reducer.Combiner

/-! Merkle root over the sorted branch result hashes (`merkle.rs`). Leaves and inner nodes use
different hash prefixes, and an odd node at the end of a level is promoted unchanged. -/
namespace Kswarm.Reducer

/-- `SHA256(0x00 || leaf)`. -/
def merkleLeafPrefix : UInt8 := 0
/-- `SHA256(0x01 || left || right)`. -/
def merkleNodePrefix : UInt8 := 1

def leafMessage (leaf : Digest) : Bytes := merkleLeafPrefix :: leaf.val
def nodeMessage (left right : Digest) : Bytes := merkleNodePrefix :: (left.val ++ right.val)

def merkleLeafHash (leaf : Digest) : Digest := sha256 (leafMessage leaf)
def merkleNodeHash (left right : Digest) : Digest := sha256 (nodeMessage left right)

/-- `chunks(2)` over a level: a pair is hashed, a lone last node is pushed as it is. -/
def nextLevel : List Digest → List Digest := pairUp merkleNodeHash

def sortedBranchesMerkleRoot (branchHashes : List Digest) : Except CombinerError Digest := do
  failIf (branchHashes = []) .emptyBranches
  let leaves := branchHashes.insertionSort digestLe
  -- `while level.len() > 1`: a level of n nodes needs fewer than n passes.
  let level := climb merkleNodeHash leaves.length (leaves.map merkleLeafHash)
  require level.head? .emptyBranches

/-- Every string hashed by `sortedBranchesMerkleRoot`: the leaves, then each level's pairs. -/
def merkleHashed (branchHashes : List Digest) : List Bytes :=
  let leaves := branchHashes.insertionSort digestLe
  leaves.map leafMessage ++
    climbMessages merkleNodeHash nodeMessage leaves.length (leaves.map merkleLeafHash)

lemma leafMessage_injective : Function.Injective leafMessage := by
  intro a b h
  exact Subtype.ext (List.cons.inj h).2

lemma nodeMessage_inj (a b c d : Digest) (h : nodeMessage a b = nodeMessage c d) :
    a = c ∧ b = d := by
  obtain ⟨h1,h2⟩ := List.append_inj (List.cons.inj h).2 (a.property.trans c.property.symm)
  exact ⟨Subtype.ext h1,Subtype.ext h2⟩

/-- A leaf can never be read as an inner node. -/
lemma leafMessage_ne_nodeMessage (a b c : Digest) : leafMessage a ≠ nodeMessage b c := by
  intro h
  exact absurd (List.cons.inj h).1 (by decide)

/-- The root is the digest of one tree over the sorted leaves, and everything that tree hashes
was hashed by the loop. -/
theorem merkleRoot_tree {xs : List Digest} (h : xs ≠ []) : ∃ t : MerkleTree Digest,
    t.leaves = xs.insertionSort digestLe ∧
    sortedBranchesMerkleRoot xs = .ok (t.digest sha256 leafMessage nodeMessage) ∧
    t.messages sha256 leafMessage nodeMessage ⊆ merkleHashed xs := by
  obtain ⟨t,hl,hc,hm⟩ := MerkleTree.exists_tree (H := sha256) (xs.insertionSort digestLe)
    (sorted_ne_nil h)
  refine ⟨t,hl,?_,hm⟩
  simp only [sortedBranchesMerkleRoot,bind_eq_ok,failIf_eq_ok,require_eq_ok]
  refine ⟨(),h,?_⟩
  change (climb (fun a b => sha256 (nodeMessage a b)) _
    (List.map (fun x => sha256 (leafMessage x)) _)).head? = _
  rw [hc]
  rfl

/-- The root of a non-empty list exists. -/
theorem merkleRoot_accepts {xs : List Digest} (h : xs ≠ []) :
    ∃ root, sortedBranchesMerkleRoot xs = .ok root := by
  obtain ⟨t,-,ht,-⟩ := merkleRoot_tree h
  exact ⟨_,ht⟩

/-- Equal roots: the same multiset of hashes, or a collision among the strings hashed. -/
theorem merkleRoot_binding {xs ys : List Digest} {root : Digest}
    (hx : sortedBranchesMerkleRoot xs = .ok root) (hy : sortedBranchesMerkleRoot ys = .ok root) :
    xs.Perm ys ∨ Collision sha256 (merkleHashed xs ++ merkleHashed ys) := by
  have hne : ∀ {zs}, sortedBranchesMerkleRoot zs = .ok root → zs ≠ [] := by
    intro zs h
    simp only [sortedBranchesMerkleRoot,bind_eq_ok,failIf_eq_ok] at h
    obtain ⟨-,hz,-⟩ := h
    exact hz
  obtain ⟨t,htl,htr,htm⟩ := merkleRoot_tree (hne hx)
  obtain ⟨u,hul,hur,hum⟩ := merkleRoot_tree (hne hy)
  have hd : t.digest sha256 leafMessage nodeMessage = u.digest sha256 leafMessage nodeMessage := by
    rw [hx] at htr
    rw [hy] at hur
    exact (Except.ok.inj htr).symm.trans (Except.ok.inj hur)
  rcases MerkleTree.eq_or_collision_of_digest leafMessage_injective nodeMessage_inj
    leafMessage_ne_nodeMessage t u hd with rfl | hc
  · have hs : xs.insertionSort digestLe = ys.insertionSort digestLe := htl.symm.trans hul
    exact .inl ((List.perm_insertionSort digestLe xs).symm.trans
      (hs ▸ List.perm_insertionSort digestLe ys))
  · exact .inr (hc.mono (List.append_subset.mpr ⟨List.subset_append_of_subset_left _ htm,
      List.subset_append_of_subset_right _ hum⟩))

/-- The order in which the hashes are listed does not matter. -/
theorem merkleRoot_perm {xs ys : List Digest} (h : xs.Perm ys) :
    sortedBranchesMerkleRoot xs = sortedBranchesMerkleRoot ys := by
  have hn : (xs = []) ↔ (ys = []) := by
    constructor
    · rintro rfl; exact h.nil_eq.symm
    · rintro rfl; exact h.eq_nil
  simp only [sortedBranchesMerkleRoot,sorted_eq_of_perm h]
  congr 1
  simp only [failIf,hn]

end Kswarm.Reducer
