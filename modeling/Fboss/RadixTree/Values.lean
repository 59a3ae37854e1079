import Fboss.RadixTree.Iterator

/-!
# Writing values in place

The route updaters change the routes a tree holds through `it->value()`,
without changing the tree's shape: `setValueAt` writes the value of the node
with a given key. On a valid tree such a write at a value node keeps the keys,
which nodes are value nodes, validity, and so what `longestMatch` finds
(`longestMatch_key?_setValueAt`); it changes the value read at that key and no
other (`value_findNode_setValueAt`).

A loop `for (auto it : tree)` visits the value nodes in the order of
`valueKeys`, the preorder of their keys (`visitAll_eq_valueKeys`).
-/

namespace Fboss

open BitPrefix

namespace RadixTreeNode

variable {w : Nat} {α : Type}

@[simp] theorem keys_setValue (x : α) (n : RadixTreeNode w α) : (n.setValue x).keys = n.keys := by
  cases n <;> rfl

@[simp] theorem keys_modifyNode_setValue (k : BitVec w × Nat) (x : α) (n : RadixTreeNode w α) :
    (n.modifyNode (some k) (setValue x)).keys = n.keys := by
  induction n with
  | nil => rfl
  | node ip ml v p l r ihl ihr =>
    by_cases hself : (ip, ml) = k
    · subst hself
      rw [modifyNode_node_self, keys_setValue]
    · rw [modifyNode_node_of_ne _ (fun h => hself (Option.some.inj h)), keys_node, keys_node, ihl, ihr]

/-- A node found by key is found again after a write elsewhere in its
subtrees; only the value at the written key changes. -/
theorem value_findNode_modifyNode_setValue {n : RadixTreeNode w α} (h : Valid n)
    {k : BitVec w × Nat} (hk : k ∈ n.keys) (x : α) (k' : BitVec w × Nat) :
    ((n.modifyNode (some k) (setValue x)).findNode (some k')).value =
      if k' = k then some x else (n.findNode (some k')).value := by
  induction n with
  | nil => simp at hk
  | node ip ml v p l r ihl ihr =>
    by_cases hself : (ip, ml) = k
    · subst hself
      rw [modifyNode_node_self, setValue_node]
      by_cases hk' : k' = (ip, ml)
      · subst hk'
        rw [findNode_self rfl, if_pos rfl, value_node]
      · rw [if_neg hk']
        by_cases hl : k' ∈ l.keys
        · rw [findNode_node_of_mem_left (Ne.symm hk') hl, findNode_node_of_mem_left (Ne.symm hk') hl]
        · rw [findNode_node_of_not_mem_left (Ne.symm hk') hl,
            findNode_node_of_not_mem_left (Ne.symm hk') hl]
    · rw [modifyNode_node_of_ne _ (fun h => hself (Option.some.inj h))]
      have hkk : k ∈ l.keys ∨ k ∈ r.keys := by
        simpa [keys_node, Ne.symm hself] using hk
      by_cases hk' : (ip, ml) = k'
      · subst hk'
        rw [findNode_self rfl, findNode_self rfl, if_neg hself]
        rfl
      · by_cases hl : k' ∈ l.keys
        · rw [findNode_node_of_mem_left hk' (by rwa [keys_modifyNode_setValue]),
            findNode_node_of_mem_left hk' hl]
          rcases hkk with hkl | hkr
          · exact ihl h.left hkl
          · -- the write is in the other branch, so this one is unchanged
            have hnl : k ∉ l.keys := fun hkl => h.not_mem_left_of_mem_right hkr hkl
            rw [modifyNode_eq_self_of_not_mem _ hnl, if_neg (fun (he : k' = k) => hnl (he ▸ hl))]
        · rw [findNode_node_of_not_mem_left hk' (by rwa [keys_modifyNode_setValue]),
            findNode_node_of_not_mem_left hk' hl]
          rcases hkk with hkl | hkr
          · have hnr : k ∉ r.keys := fun hkr => h.not_mem_left_of_mem_right hkr hkl
            rw [modifyNode_eq_self_of_not_mem _ hnr, if_neg (fun (he : k' = k) => hl (he ▸ hkl))]
          · exact ihr h.right hkr

theorem isValueNode_findNode_modifyNode_setValue {n : RadixTreeNode w α} (h : Valid n)
    {k : BitVec w × Nat} (hk : k ∈ n.keys) (hv : (n.findNode (some k)).isValueNode = true)
    (x : α) (k' : BitVec w × Nat) :
    ((n.modifyNode (some k) (setValue x)).findNode (some k')).isValueNode =
      (n.findNode (some k')).isValueNode := by
  unfold isValueNode
  rw [value_findNode_modifyNode_setValue h hk x k']
  by_cases hk' : k' = k
  · subst hk'
    rw [if_pos rfl]
    exact hv.symm
  · rw [if_neg hk']

@[simp] theorem key?_setValue (x : α) (n : RadixTreeNode w α) : (n.setValue x).key? = n.key? := by
  cases n <;> rfl

@[simp] theorem parent_setValue (x : α) (n : RadixTreeNode w α) : (n.setValue x).parent = n.parent := by
  cases n <;> rfl

@[simp] theorem parent_modifyNode_setValue (k : BitVec w × Nat) (x : α) (n : RadixTreeNode w α) :
    (n.modifyNode (some k) (setValue x)).parent = n.parent := by
  cases n with
  | nil => rfl
  | node ip ml v p l r =>
    by_cases hself : (ip, ml) = k
    · subst hself
      rw [modifyNode_node_self, parent_setValue]
    · rw [modifyNode_node_of_ne _ (fun h => hself (Option.some.inj h))]
      rfl

/-- A key under which a value is found is a key of the tree. -/
theorem mem_keys_of_value_findNode {n : RadixTreeNode w α} {k : BitVec w × Nat} {x : α}
    (h : (n.findNode (some k)).value = some x) : k ∈ n.keys :=
  mem_keys_of_findNode_ne_nil fun hnil => by rw [hnil, value_nil] at h; exact absurd h (by simp)

theorem Valid.modifyNode_setValue {n : RadixTreeNode w α} (h : Valid n) {k : BitVec w × Nat}
    (hk : k ∈ n.keys) (x : α) : Valid (n.modifyNode (some k) (setValue x)) :=
  (h.modifyNode hk ⟨RadixTree.valid_setValue (h.findNode _) x,
    by rw [key?_setValue, key?_findNode_of_mem hk], parent_setValue x _⟩).1

end RadixTreeNode

namespace RadixTree

open RadixTreeNode

variable {w : Nat} {α : Type}

/-- Write `x` as the value of the node with key `k`, as an assignment through
`it->value()`. -/
def setValueAt (t : RadixTree w α) (k : BitVec w × Nat) (x : α) : RadixTree w α :=
  { t with root := t.root.modifyNode (some k) (RadixTreeNode.setValue x) }

/-- The keys of the value nodes, in preorder. -/
def valueKeys (t : RadixTree w α) : List (BitVec w × Nat) :=
  t.root.keys.filter fun k => (t.root.findNode (some k)).isValueNode

/-- The iterator of a well-formed tree visits exactly `valueKeys`, in order. -/
theorem visitAll_eq_valueKeys {t : RadixTree w α} (h : t.WellFormed) {fuel rounds : Nat}
    (hfuel : 2 * t.root.keys.length + 1 ≤ fuel) (hrounds : t.root.keys.length + 2 ≤ rounds) :
    t.visitAll fuel rounds = some t.valueKeys := by
  rw [visitAll_eq h.valid h.root_parent hfuel hrounds]
  rfl

theorem mem_valueKeys_iff (t : RadixTree w α) (k : BitVec w × Nat) :
    k ∈ t.valueKeys ↔ ∃ x, (t.root.findNode (some k)).value = some x := by
  unfold valueKeys
  rw [List.mem_filter]
  constructor
  · rintro ⟨-, hv⟩
    exact Option.isSome_iff_exists.mp hv
  · rintro ⟨x, hx⟩
    refine ⟨mem_keys_of_findNode_ne_nil fun hnil => ?_, by simp [RadixTreeNode.isValueNode, hx]⟩
    rw [hnil] at hx
    exact absurd hx (by simp)

variable {t : RadixTree w α} {k : BitVec w × Nat}

theorem value_setValueAt (h : Valid t.root) (hk : k ∈ t.root.keys) (x : α) (k' : BitVec w × Nat) :
    ((t.setValueAt k x).root.findNode (some k')).value =
      if k' = k then some x else (t.root.findNode (some k')).value :=
  RadixTreeNode.value_findNode_modifyNode_setValue h hk x k'

theorem valid_setValueAt (h : Valid t.root) (k : BitVec w × Nat) (x : α) :
    Valid (t.setValueAt k x).root := by
  by_cases hk : k ∈ t.root.keys
  · exact h.modifyNode_setValue hk x
  · unfold setValueAt
    rw [modifyNode_eq_self_of_not_mem _ hk]
    exact h

@[simp] theorem keys_setValueAt (k : BitVec w × Nat) (x : α) :
    (t.setValueAt k x).root.keys = t.root.keys :=
  RadixTreeNode.keys_modifyNode_setValue k x t.root

theorem valueKeys_setValueAt (h : Valid t.root) (hk : k ∈ t.root.keys)
    (hv : (t.root.findNode (some k)).isValueNode = true) (x : α) :
    (t.setValueAt k x).valueKeys = t.valueKeys := by
  unfold valueKeys
  rw [keys_setValueAt]
  apply List.filter_congr
  intro k' _
  exact RadixTreeNode.isValueNode_findNode_modifyNode_setValue h hk hv x k'

theorem nodup_valueKeys (h : Valid t.root) : t.valueKeys.Nodup :=
  h.nodup_keys.filter _

/-- On a valid tree the value keys are the keys of the bindings. -/
theorem valueKeys_eq_map_fst (h : Valid t.root) : t.valueKeys = t.root.entries.map Prod.fst :=
  h.keys_filter_isValueNode

/-- Two valid trees with the same keys and the same value nodes find the same
longest match: it is the longest value key covering the query. -/
theorem longestMatch_key?_congr {t t' : RadixTree w α} (h : Valid t.root) (h' : Valid t'.root)
    (hkeys : t'.root.keys = t.root.keys)
    (hvals : ∀ k ∈ t.root.keys,
      (t'.root.findNode (some k)).isValueNode = (t.root.findNode (some k)).isValueNode)
    (ipaddr : BitVec w) (masklen : Nat) :
    (t'.longestMatch ipaddr masklen).key? = (t.longestMatch ipaddr masklen).key? := by
  rcases longestMatch_spec h ipaddr masklen with ⟨hnil, hnone⟩ | ⟨hne, hfind, hv, hcov, hmax⟩ <;>
    rcases longestMatch_spec h' ipaddr masklen with ⟨hnil', hnone'⟩ | ⟨hne', hfind', hv', hcov', hmax'⟩
  · rw [hnil, hnil']
  · -- a value node of `t'` covers the query, and it is one of `t` as well
    have hmem : (t'.longestMatch ipaddr masklen).key? ∈ t.root.keys.map some := by
      rw [← hkeys, key?_of_ne_nil hne']
      exact List.mem_map_of_mem (mem_keys_of_findNode_ne_nil (by rw [← key?_of_ne_nil hne', hfind']; exact hne'))
    obtain ⟨k, hk, hkey⟩ := List.mem_map.mp hmem
    rw [key?_of_ne_nil hne', Option.some.injEq] at hkey
    subst hkey
    have hvk := hnone _ hk hcov'
    rw [← hvals _ hk, ← key?_of_ne_nil hne', hfind', hv'] at hvk
    exact absurd hvk (by simp)
  · have hmem : (t.longestMatch ipaddr masklen).key? ∈ t.root.keys.map some := by
      rw [key?_of_ne_nil hne]
      exact List.mem_map_of_mem (mem_keys_of_findNode_ne_nil (by rw [← key?_of_ne_nil hne, hfind]; exact hne))
    obtain ⟨k, hk, hkey⟩ := List.mem_map.mp hmem
    rw [key?_of_ne_nil hne, Option.some.injEq] at hkey
    subst hkey
    have hvk := hnone' _ (hkeys ▸ hk) hcov
    rw [hvals _ hk, ← key?_of_ne_nil hne, hfind, hv] at hvk
    exact absurd hvk (by simp)
  · -- both are the longest covering value key, so they have the same length
    set d := t.longestMatch ipaddr masklen
    set d' := t'.longestMatch ipaddr masklen
    have hkd : (d.ipAddress, d.masklen) ∈ t.root.keys :=
      mem_keys_of_findNode_ne_nil (by rw [← key?_of_ne_nil hne, hfind]; exact hne)
    have hkd' : (d'.ipAddress, d'.masklen) ∈ t.root.keys :=
      hkeys ▸ mem_keys_of_findNode_ne_nil (by rw [← key?_of_ne_nil hne', hfind']; exact hne')
    have hle : d'.masklen ≤ d.masklen := hmax _ hkd' hcov' (by
      rw [← hvals _ hkd', ← key?_of_ne_nil hne', hfind']; exact hv')
    have hge : d.masklen ≤ d'.masklen := hmax' _ (hkeys ▸ hkd) hcov (by
      rw [hvals _ hkd, ← key?_of_ne_nil hne, hfind]; exact hv)
    have hlen : d'.masklen = d.masklen := le_antisymm hle hge
    have hip : d'.ipAddress = d.ipAddress := by
      rw [← hcov'.2, ← hcov.2, hlen]
    rw [key?_of_ne_nil hne, key?_of_ne_nil hne', hip, hlen]

theorem longestMatch_key?_setValueAt (h : Valid t.root) (hk : k ∈ t.root.keys)
    (hv : (t.root.findNode (some k)).isValueNode = true) (x : α) (ipaddr : BitVec w) (masklen : Nat) :
    ((t.setValueAt k x).longestMatch ipaddr masklen).key? = (t.longestMatch ipaddr masklen).key? :=
  longestMatch_key?_congr h (valid_setValueAt h k x) (keys_setValueAt k x)
    (fun k' _ => RadixTreeNode.isValueNode_findNode_modifyNode_setValue h hk hv x k') ipaddr masklen

end RadixTree

end Fboss
