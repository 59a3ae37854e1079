import Fboss.RadixTree.Invariant
import Fboss.Lib.ListSelect
import Mathlib.Data.Nat.Basic

/-!
# What a lookup walks through

`longestMatchImpl` walks down from the root for as long as the current node's
prefix covers the query, turning left or right by the query's next bit, and
backs up one step when it overshoots. `coverPath q len n` is the list of nodes
it passes through: the covering nodes on the way down to `(q, len)`.

The loop is first read along that path, for any tree: the node it stops at is
the last node of the path, the last value node it saw is the last value node
of the path, the exact-match flag is set by the last node, and the trail
collects the path (`longestMatchLoop_eq`). Then, on a valid tree, the path is
shown to hold every node whose key covers the query, in order of increasing
mask length, so that its last node is the deepest covering node of the tree.
-/

namespace Fboss

namespace RadixTreeNode

open BitPrefix ListSelect RadixTree

variable {w : Nat} {α : Type}

/-- The covering nodes on the way down to `(q, len)`, from the root. -/
def coverPath (q : BitVec w) (len : Nat) : RadixTreeNode w α → List (RadixTreeNode w α)
  | nil => []
  | n@(node ip ml _ _ l r) =>
    if Covers ip ml q len then
      n :: (if ml < len then (if q.getMsbD ml then coverPath q len r else coverPath q len l)
        else [])
    else []

@[simp] theorem coverPath_nil (q : BitVec w) (len : Nat) :
    coverPath q len (nil : RadixTreeNode w α) = [] := rfl

theorem coverPath_node (q : BitVec w) (len : Nat) (ip : BitVec w) (ml : Nat) (v : Option α) (p)
    (l r : RadixTreeNode w α) :
    coverPath q len (node ip ml v p l r) =
      if Covers ip ml q len then
        node ip ml v p l r ::
          (if ml < len then (if q.getMsbD ml then coverPath q len r else coverPath q len l)
            else [])
      else [] := rfl

/-- The direction a node gives a masked query: on if it covers it, by the next
bit while it is strictly shorter. -/
theorem searchDirection_node {q : BitVec w} {len : Nat} (hq : maskMsb q len = q) (ip : BitVec w)
    (ml : Nat) (v : Option α) (p) (l r : RadixTreeNode w α) :
    (node ip ml v p l r).searchDirection q len =
      if Covers ip ml q len then
        (if ml < len then (if q.getMsbD ml then .right else .left) else .thisNode)
      else .parent := by
  simp only [searchDirection, IPAddress.mask_eq, IPAddress.getNthMSBit_eq, Covers]
  by_cases hlt : ml < len
  · simp [hlt, Nat.le_of_lt hlt]
  · by_cases heq : ml = len
    · subst heq
      simp only [hq, Nat.le_refl, true_and, hlt, if_false]
      by_cases hip : ip = q
      · simp [hip]
      · simp [hip, Ne.symm hip]
    · simp [hlt, heq, show ¬ ml ≤ len by omega]

/-- A node sends a prefix in one of its branches down that branch. -/
theorem searchDirection_of_inBranch {ip : BitVec w} {ml : Nat} {b : Bool} {q : BitVec w}
    {len : Nat} (h : InBranch ip ml b q len) (v : Option α) (p) (l r : RadixTreeNode w α) :
    (node ip ml v p l r).searchDirection q len = if b then .right else .left := by
  obtain ⟨hlt, hmask, hbit⟩ := h
  simp [searchDirection, hlt, hmask, hbit]

/-- The four results of the loop, computed along a path of nodes: the last node
(or the loop's `parent` if the path is empty), the last value node (or the
`lastValueNodeSeen` it started with), whether some node of the path holds the
query exactly, and the trail. -/
def pathResult (q : BitVec w) (len : Nat) (inc : Bool) (path : List (RadixTreeNode w α))
    (parent last : RadixTreeNode w α) (trail : List (RadixTreeNode w α)) :
    RadixTreeNode w α × RadixTreeNode w α × Bool × List (RadixTreeNode w α) :=
  (lastWhere (fun _ => true) parent path,
    lastWhere isValueNode last path,
    path.any (fun c => decide (c.key? = some (q, len)) && (inc || c.isValueNode)),
    path.foldl (fun tr c => trailAppend tr inc c) trail)

/-- The loop, from a non null node, computes its results along the covering
path below that node. No invariant is needed: this only unfolds the loop. -/
theorem longestMatchLoop_eq {q : BitVec w} {len : Nat} (hq : maskMsb q len = q) (inc : Bool) :
    ∀ (n : RadixTreeNode w α), n ≠ nil → ∀ parent last trail,
      longestMatchLoop q len inc n parent last trail =
        pathResult q len inc (coverPath q len n) parent last trail := by
  intro n
  induction n with
  | nil => intro h; exact absurd rfl h
  | node ip ml v p l r ihl ihr =>
      intro _ parent last trail
      rw [longestMatchLoop, searchDirection_node hq, coverPath_node]
      by_cases hc : Covers ip ml q len
      · by_cases hlt : ml < len
        · -- the query continues into the child on the side of its next bit
          have hne : some (ip, ml) ≠ some (q, len) := by
            intro heq
            cases heq
            exact Nat.lt_irrefl _ hlt
          simp only [if_pos hc, if_pos hlt]
          cases hbit : q.getMsbD ml
          · cases l with
            | nil => simp [pathResult, hne]
            | node cip cml cv cp cl cr =>
                simp only [Bool.false_eq_true, if_false, isNil_node]
                rw [ihl (by simp)]
                simp [pathResult, hne]
          · cases r with
            | nil => simp [pathResult, hne]
            | node cip cml cv cp cl cr =>
                simp only [if_true, isNil_node, Bool.false_eq_true, if_false]
                rw [ihr (by simp)]
                simp [pathResult, hne]
        · -- the node holds the query itself
          have hml : ml = len := Nat.le_antisymm hc.1 (Nat.le_of_not_lt hlt)
          have hip : ip = q := by rw [← hc.2, hml, hq]
          simp only [if_pos hc, if_neg hlt]
          subst hml hip
          simp [pathResult, Bool.or_comm]
      · simp only [if_neg hc]
        rfl

/-- From the root, where the loop starts with null pointers, no case is left out. -/
theorem longestMatchLoop_root {q : BitVec w} {len : Nat} (hq : maskMsb q len = q) (inc : Bool)
    (n : RadixTreeNode w α) :
    longestMatchLoop q len inc n nil nil [] = pathResult q len inc (coverPath q len n) nil nil [] := by
  cases n with
  | nil => rfl
  | node ip ml v p l r => exact longestMatchLoop_eq hq inc _ (by simp) _ _ _

/-! ### The covering path of a valid tree -/

theorem covers_of_mem_coverPath {q : BitVec w} {len : Nat} {n c : RadixTreeNode w α}
    (hc : c ∈ coverPath q len n) : c ≠ nil ∧ Covers c.ipAddress c.masklen q len := by
  induction n with
  | nil => simp at hc
  | node ip ml v p l r ihl ihr =>
      rw [coverPath_node] at hc
      split_ifs at hc with hcov hlt hbit
      · rcases List.mem_cons.mp hc with rfl | hc
        · exact ⟨by simp, hcov⟩
        · exact ihr hc
      · rcases List.mem_cons.mp hc with rfl | hc
        · exact ⟨by simp, hcov⟩
        · exact ihl hc
      · rw [List.mem_singleton] at hc
        subst hc
        exact ⟨by simp, hcov⟩
      · simp at hc

theorem mem_keys_of_mem_coverPath {q : BitVec w} {len : Nat} {n c : RadixTreeNode w α}
    (hc : c ∈ coverPath q len n) : ∃ k, c.key? = some k ∧ k ∈ n.keys := by
  induction n with
  | nil => simp at hc
  | node ip ml v p l r ihl ihr =>
      rw [coverPath_node] at hc
      split_ifs at hc with hcov hlt hbit
      · rcases List.mem_cons.mp hc with rfl | hc
        · exact ⟨_, rfl, by simp⟩
        · obtain ⟨k, hk, hkr⟩ := ihr hc
          exact ⟨k, hk, by simp [hkr]⟩
      · rcases List.mem_cons.mp hc with rfl | hc
        · exact ⟨_, rfl, by simp⟩
        · obtain ⟨k, hk, hkl⟩ := ihl hc
          exact ⟨k, hk, by simp [hkl]⟩
      · rw [List.mem_singleton] at hc
        subst hc
        exact ⟨_, rfl, by simp⟩
      · simp at hc

/-- A node of the covering path is the node of the tree its key points to. -/
theorem Valid.findNode_of_mem_coverPath {q : BitVec w} {len : Nat} {n c : RadixTreeNode w α}
    (h : Valid n) (hc : c ∈ coverPath q len n) : n.findNode c.key? = c := by
  induction n with
  | nil => simp at hc
  | node ip ml v p l r ihl ihr =>
      rw [coverPath_node] at hc
      split_ifs at hc with hcov hlt hbit
      · rcases List.mem_cons.mp hc with rfl | hc
        · exact findNode_self rfl
        · obtain ⟨k, hk, hkr⟩ := mem_keys_of_mem_coverPath hc
          rw [hk, h.findNode_of_mem_right hkr, ← hk]
          exact ihr h.right hc
      · rcases List.mem_cons.mp hc with rfl | hc
        · exact findNode_self rfl
        · obtain ⟨k, hk, hkl⟩ := mem_keys_of_mem_coverPath hc
          rw [hk, h.findNode_of_mem_left hkl, ← hk]
          exact ihl h.left hc
      · rw [List.mem_singleton] at hc
        subst hc
        exact findNode_self rfl
      · simp at hc

/-- On a valid tree the covering path holds every node whose key covers the
query. A covering key of a subtree lies in the branch the query's next bit
selects, so the path, which follows that bit, reaches it. -/
theorem Valid.mem_coverPath_of_covers {q : BitVec w} {len : Nat} {n : RadixTreeNode w α}
    (h : Valid n) {k : BitVec w × Nat} (hk : k ∈ n.keys) (hcov : Covers k.1 k.2 q len) :
    ∃ c ∈ coverPath q len n, c.key? = some k := by
  induction n with
  | nil => simp at hk
  | node ip ml v p l r ihl ihr =>
      have hroot : Covers ip ml q len := (h.covers_of_mem_keys hk).trans hcov
      rw [coverPath_node, if_pos hroot]
      simp only [List.mem_cons]
      simp only [keys_node, List.mem_cons, List.mem_append] at hk
      rcases hk with rfl | hkl | hkr
      · exact ⟨_, Or.inl rfl, rfl⟩
      · -- the key is in the left branch, so is the query
        have hbranch := (h.keys_left k hkl).trans_covers hcov
        obtain ⟨c, hc, hck⟩ := ihl h.left hkl
        refine ⟨c, Or.inr ?_, hck⟩
        rw [if_pos hbranch.1, if_neg (by simp [hbranch.2.2])]
        exact hc
      · have hbranch := (h.keys_right k hkr).trans_covers hcov
        obtain ⟨c, hc, hck⟩ := ihr h.right hkr
        refine ⟨c, Or.inr ?_, hck⟩
        rw [if_pos hbranch.1, if_pos hbranch.2.2]
        exact hc

/-- Along the covering path of a valid tree the mask lengths strictly increase. -/
theorem Valid.coverPath_pairwise {q : BitVec w} {len : Nat} {n : RadixTreeNode w α}
    (h : Valid n) : (coverPath q len n).Pairwise (fun a b => a.masklen < b.masklen) := by
  induction n with
  | nil => simp
  | node ip ml v p l r ihl ihr =>
      rw [coverPath_node]
      split_ifs with hcov hlt hbit
      · -- the rest of the path lies in the right branch, below this node
        refine List.pairwise_cons.mpr ⟨fun c hc => ?_, ihr h.right⟩
        obtain ⟨k, hk, hkr⟩ := mem_keys_of_mem_coverPath hc
        rw [masklen_node, (key?_eq_some hk).2]
        exact (h.keys_right k hkr).1
      · refine List.pairwise_cons.mpr ⟨fun c hc => ?_, ihl h.left⟩
        obtain ⟨k, hk, hkl⟩ := mem_keys_of_mem_coverPath hc
        rw [masklen_node, (key?_eq_some hk).2]
        exact (h.keys_left k hkl).1
      · simp
      · simp

/-- A node of the covering path holding a given key is the tree's node at that
key, and conversely. -/
theorem Valid.exists_mem_coverPath_iff {q : BitVec w} {len : Nat} {n : RadixTreeNode w α}
    (h : Valid n) {k : BitVec w × Nat} (hcov : Covers k.1 k.2 q len)
    (P : RadixTreeNode w α → Prop) :
    (∃ c ∈ coverPath q len n, c.key? = some k ∧ P c) ↔ k ∈ n.keys ∧ P (n.findNode (some k)) := by
  constructor
  · rintro ⟨c, hc, hck, hP⟩
    obtain ⟨k', hk', hmem⟩ := mem_keys_of_mem_coverPath hc
    rw [hck] at hk'
    cases hk'
    refine ⟨hmem, ?_⟩
    rw [← hck, h.findNode_of_mem_coverPath hc]
    exact hP
  · rintro ⟨hk, hP⟩
    obtain ⟨c, hc, hck⟩ := h.mem_coverPath_of_covers hk hcov
    refine ⟨c, hc, hck, ?_⟩
    rw [← h.findNode_of_mem_coverPath hc, hck]
    exact hP

/-- What a scan of the covering path for the last node passing `p` finds on a
valid tree: no covering node passes, or the deepest covering node that passes. -/
theorem Valid.lastWhere_coverPath {n : RadixTreeNode w α} (h : Valid n) (q : BitVec w)
    (len : Nat) (p : RadixTreeNode w α → Bool) :
    (lastWhere p nil (coverPath q len n) = nil ∧
        ∀ k ∈ n.keys, Covers k.1 k.2 q len → p (n.findNode (some k)) = false) ∨
      (let d := lastWhere p nil (coverPath q len n);
        d ≠ nil ∧ n.findNode d.key? = d ∧ p d = true ∧ Covers d.ipAddress d.masklen q len ∧
          ∀ k ∈ n.keys, Covers k.1 k.2 q len → p (n.findNode (some k)) = true →
            k.2 ≤ d.masklen) := by
  rcases lastWhere_spec masklen p _ nil h.coverPath_pairwise with ⟨hres, hnone⟩ | ⟨hmem, hp, hmax⟩
  · refine Or.inl ⟨hres, fun k hk hcov => ?_⟩
    obtain ⟨c, hc, hck⟩ := h.mem_coverPath_of_covers hk hcov
    rw [← hck, h.findNode_of_mem_coverPath hc]
    exact hnone c hc
  · obtain ⟨hne, hdcov⟩ := covers_of_mem_coverPath hmem
    refine Or.inr ⟨hne, h.findNode_of_mem_coverPath hmem, hp, hdcov, fun k hk hcov hpk => ?_⟩
    obtain ⟨c, hc, hck⟩ := h.mem_coverPath_of_covers hk hcov
    have hcp : p c = true := by rw [← h.findNode_of_mem_coverPath hc, hck]; exact hpk
    rw [← (key?_eq_some hck).2]
    exact hmax c hc hcp

end RadixTreeNode

namespace RadixTree

open BitPrefix ListSelect RadixTreeNode

variable {w : Nat} {α : Type}

/-- `longestMatchImpl` computes its results along the covering path of the
masked query. -/
theorem longestMatchImpl_eq (t : RadixTree w α) (ipaddr : BitVec w) (masklen : Nat)
    (inc : Bool) :
    t.longestMatchImpl ipaddr masklen inc =
      let q := IPAddress.mask ipaddr masklen
      let r := pathResult q masklen inc (coverPath q masklen t.root) nil nil []
      ⟨if inc then r.1 else r.2.1, r.2.2.1, r.2.2.2⟩ := by
  simp only [longestMatchImpl]
  rw [longestMatchLoop_root (maskMsb_idem ipaddr masklen)]

/-- `exactMatch` returns the tree's node for the masked prefix when it is a
value node, and null otherwise. -/
theorem exactMatch_eq {t : RadixTree w α} (h : Valid t.root) (ipaddr : BitVec w) (masklen : Nat) :
    t.exactMatch ipaddr masklen =
      if (t.root.findNode (some (IPAddress.mask ipaddr masklen, masklen))).isValueNode then
        t.root.findNode (some (IPAddress.mask ipaddr masklen, masklen))
      else nil := by
  have hq : maskMsb (IPAddress.mask ipaddr masklen) masklen = IPAddress.mask ipaddr masklen :=
    maskMsb_idem ipaddr masklen
  simp only [exactMatch, longestMatchImpl_eq, pathResult, Bool.false_or, Bool.false_eq_true,
    if_false]
  generalize IPAddress.mask ipaddr masklen = q at hq ⊢
  -- the flag: some node of the path holds the prefix and a value
  have hfe : ((coverPath q masklen t.root).any fun c =>
      decide (c.key? = some (q, masklen)) && c.isValueNode) = true ↔
      (q, masklen) ∈ t.root.keys ∧ (t.root.findNode (some (q, masklen))).isValueNode = true := by
    rw [List.any_eq_true]
    simpa using h.exists_mem_coverPath_iff (k := (q, masklen)) (covers_refl hq)
      (fun c => c.isValueNode = true)
  by_cases hv : (t.root.findNode (some (q, masklen))).isValueNode = true
  · have hk : (q, masklen) ∈ t.root.keys := by
      refine Classical.byContradiction fun hk => ?_
      rw [findNode_eq_nil_of_not_mem hk] at hv
      simp at hv
    rw [if_pos (hfe.mpr ⟨hk, hv⟩), if_pos hv]
    -- the deepest covering value node is the prefix's own node
    rcases h.lastWhere_coverPath q masklen isValueNode with ⟨-, hnone⟩ | ⟨hne, hfind, -, hcov, hmax⟩
    · exact absurd hv (by simp [hnone _ hk (covers_refl hq)])
    · obtain ⟨hip, hml⟩ := hcov.eq_of_le hq (hmax _ hk (covers_refl hq) hv)
      rw [← hfind, key?_of_ne_nil hne, hip, hml]
  · rw [if_neg (fun hfx => hv (hfe.mp hfx).2), if_neg hv]

/-- `longestMatch` returns the deepest value node whose key covers the masked
query, or null when no value node covers it. -/
theorem longestMatch_spec {t : RadixTree w α} (h : Valid t.root) (ipaddr : BitVec w)
    (masklen : Nat) :
    (t.longestMatch ipaddr masklen = nil ∧
        ∀ k ∈ t.root.keys, Covers k.1 k.2 (IPAddress.mask ipaddr masklen) masklen →
          (t.root.findNode (some k)).isValueNode = false) ∨
      (let d := t.longestMatch ipaddr masklen;
        d ≠ nil ∧ t.root.findNode d.key? = d ∧ d.isValueNode = true ∧
          Covers d.ipAddress d.masklen (IPAddress.mask ipaddr masklen) masklen ∧
          ∀ k ∈ t.root.keys, Covers k.1 k.2 (IPAddress.mask ipaddr masklen) masklen →
            (t.root.findNode (some k)).isValueNode = true → k.2 ≤ d.masklen) := by
  have heq : t.longestMatch ipaddr masklen =
      lastWhere isValueNode nil (coverPath (IPAddress.mask ipaddr masklen) masklen t.root) := by
    simp [longestMatch, longestMatchImpl_eq, pathResult]
  rw [heq]
  exact h.lastWhere_coverPath _ masklen isValueNode

end RadixTree

end Fboss
