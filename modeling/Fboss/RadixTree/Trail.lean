import Fboss.RadixTree.Reachable

/-!
# Searches that record their trail

`longestMatchWithTrail` and `exactMatchWithTrail` run the search of
`longestMatchImpl` and hand the caller the nodes it went through. The search
fills a trail of its own, and it is swapped into the caller's vector only when
a node is found (for `exactMatchWithTrail`, only on an exact match); otherwise
the caller's vector is left as it was. The trail holds the value nodes the
search passed, or every node it passed with `includeNonValueNodes`.

The search passes the nodes of the covering path, and on a valid tree that path
holds every node whose prefix covers the query (`Valid.mem_coverPath_iff`). So
on a tree built by `insert` and `erase` the trail holds exactly the covering
nodes of the kind recorded, by increasing mask length, and it ends at the node
returned (`trail_reachable`).
-/

namespace Fboss

open BitPrefix ListSelect

namespace RadixTreeNode

variable {w : Nat} {α : Type}

theorem mem_nodes_of_mem_coverPath {q : BitVec w} {len : Nat} {n c : RadixTreeNode w α}
    (hc : c ∈ coverPath q len n) : c ∈ n.nodes := by
  induction n with
  | nil => simp at hc
  | node ip ml v p l r ihl ihr =>
      rw [coverPath_node] at hc
      split_ifs at hc with hcov hlt hbit
      · rcases List.mem_cons.mp hc with rfl | hc
        · simp
        · simp [ihr hc]
      · rcases List.mem_cons.mp hc with rfl | hc
        · simp
        · simp [ihl hc]
      · rw [List.mem_singleton] at hc
        subst hc
        simp
      · simp at hc

/-- A node of a valid tree is the node its key points to. -/
theorem Valid.findNode_of_mem_nodes {n c : RadixTreeNode w α} (h : Valid n) (hc : c ∈ n.nodes) :
    ∃ k, c.key? = some k ∧ k ∈ n.keys ∧ n.findNode (some k) = c := by
  induction n with
  | nil => simp at hc
  | node ip ml v p l r ihl ihr =>
      simp only [nodes_node, List.mem_cons, List.mem_append] at hc
      rcases hc with rfl | hc | hc
      · exact ⟨(ip, ml), rfl, by simp, findNode_self rfl⟩
      · obtain ⟨k, hk, hkl, hfind⟩ := ihl h.left hc
        exact ⟨k, hk, by simp [hkl], by rw [h.findNode_of_mem_left hkl, hfind]⟩
      · obtain ⟨k, hk, hkr, hfind⟩ := ihr h.right hc
        exact ⟨k, hk, by simp [hkr], by rw [h.findNode_of_mem_right hkr, hfind]⟩

/-- On a valid tree the covering path holds exactly the nodes whose prefix
covers the query. -/
theorem Valid.mem_coverPath_iff {q : BitVec w} {len : Nat} {n c : RadixTreeNode w α}
    (h : Valid n) : c ∈ coverPath q len n ↔ c ∈ n.nodes ∧ Covers c.ipAddress c.masklen q len := by
  constructor
  · intro hc
    exact ⟨mem_nodes_of_mem_coverPath hc, (covers_of_mem_coverPath hc).2⟩
  · rintro ⟨hc, hcov⟩
    obtain ⟨k, hk, hkeys, hfind⟩ := h.findNode_of_mem_nodes hc
    obtain ⟨hip, hml⟩ := key?_eq_some hk
    -- the path passes a node with the same key, which is `c` itself
    obtain ⟨c', hc', hck⟩ := h.mem_coverPath_of_covers hkeys (by rw [← hip, ← hml]; exact hcov)
    rw [← hfind, ← hck, h.findNode_of_mem_coverPath hc']
    exact hc'

end RadixTreeNode

namespace RadixTree

open RadixTreeNode Run

variable {w : Nat} {α : Type}

/-- `trailAppend` along a list keeps the nodes the trail records. -/
theorem foldl_trailAppend (inc : Bool) (path trail : List (RadixTreeNode w α)) :
    path.foldl (fun tr c => trailAppend tr inc c) trail =
      trail ++ path.filter fun c => inc || c.isValueNode := by
  induction path generalizing trail with
  | nil => simp
  | cons c path ih =>
      rw [List.foldl_cons, ih, trailAppend, List.filter_cons]
      split_ifs <;> simp

/-- `longestMatchWithTrail(ipaddr, masklen, trail, includeNonValueNodes)`: the
node found, and the caller's trail, swapped with the search's own trail when a
node is found. -/
def longestMatchWithTrail (t : RadixTree w α) (ipaddr : BitVec w) (masklen : Nat)
    (trail : List (RadixTreeNode w α)) (includeNonValueNodes : Bool) :
    RadixTreeNode w α × List (RadixTreeNode w α) :=
  let r := t.longestMatchImpl ipaddr masklen includeNonValueNodes
  (r.node, if r.node.isNil then trail else r.trail)

/-- `exactMatchWithTrail(ipaddr, masklen, trail, includeNonValueNodes)`: the
node holding exactly the prefix and the search's trail, or `end()` and the
caller's trail. -/
def exactMatchWithTrail (t : RadixTree w α) (ipaddr : BitVec w) (masklen : Nat)
    (trail : List (RadixTreeNode w α)) (includeNonValueNodes : Bool) :
    RadixTreeNode w α × List (RadixTreeNode w α) :=
  let r := t.longestMatchImpl ipaddr masklen includeNonValueNodes
  if r.foundExact then (r.node, r.trail) else (nil, trail)

/-- What a search with a trail leaves the caller: when it returns a node, a
trail of exactly the nodes `Recorded` picks, by increasing mask length, that
ends at that node; when it returns `end()`, the caller's trail. -/
def WritesTrail (Recorded : RadixTreeNode w α → Prop) (trail : List (RadixTreeNode w α))
    (r : RadixTreeNode w α × List (RadixTreeNode w α)) : Prop :=
  (r.1 ≠ nil → (∀ n, n ∈ r.2 ↔ Recorded n) ∧ r.2.Pairwise (fun a b => a.masklen < b.masklen) ∧
      r.2.getLast? = some r.1) ∧
    (r.1 = nil → r.2 = trail)

section Search

variable (t : RadixTree w α) (ipaddr : BitVec w) (masklen : Nat) (inc : Bool)

/-- The search, read along the covering path of the masked query: the node it
returns is the last recorded node of the path, the trail is the recorded nodes
of the path, and it has found the prefix exactly when a recorded node of the
path holds it. -/
theorem longestMatchImpl_eq_filter {path : List (RadixTreeNode w α)}
    (hpath : path = coverPath (IPAddress.mask ipaddr masklen) masklen t.root) :
    t.longestMatchImpl ipaddr masklen inc =
      ⟨((path.filter fun c => inc || c.isValueNode).getLast?).getD nil,
        path.any (fun c => decide (c.key? = some (IPAddress.mask ipaddr masklen, masklen)) &&
          (inc || c.isValueNode)),
        path.filter fun c => inc || c.isValueNode⟩ := by
  rw [longestMatchImpl_eq]
  simp only [pathResult, foldl_trailAppend, List.nil_append, ← hpath]
  -- the node returned is the last node of the path, or its last value node
  cases inc
  · simp [lastWhere_eq_getLast?_filter]
  · simp [lastWhere_eq_getLast?_filter]

/-- A search that returns `end()` leaves the caller's trail. -/
theorem writesTrail_end (Recorded : RadixTreeNode w α → Prop) (trail : List (RadixTreeNode w α)) :
    WritesTrail Recorded trail (nil, trail) :=
  ⟨fun hnil => absurd rfl hnil, fun _ => rfl⟩

/-- The last recorded node of a covering path is a node. -/
theorem getLast?_filter_coverPath_ne_nil {path : List (RadixTreeNode w α)}
    (hpath : path = coverPath (IPAddress.mask ipaddr masklen) masklen t.root)
    {Rec : RadixTreeNode w α → Bool} (hne : path.filter Rec ≠ []) :
    ((path.filter Rec).getLast?).getD nil ≠ nil := by
  obtain ⟨last, hlast⟩ := Option.ne_none_iff_exists'.mp (mt List.getLast?_eq_none_iff.mp hne)
  have hmem : last ∈ path := (List.mem_filter.mp (List.mem_of_getLast? hlast)).1
  rw [hlast, Option.getD_some]
  rw [hpath] at hmem
  exact (covers_of_mem_coverPath hmem).1

/-- On a valid tree, a search whose path records some node returns the last
one, with the recorded nodes of the path as its trail. -/
theorem writesTrail_of_filter_ne_nil (h : Valid t.root) (trail : List (RadixTreeNode w α))
    {path : List (RadixTreeNode w α)}
    (hpath : path = coverPath (IPAddress.mask ipaddr masklen) masklen t.root)
    {Rec : RadixTreeNode w α → Bool} (hne : path.filter Rec ≠ []) :
    WritesTrail (fun n => n ∈ t.root.nodes ∧ Rec n = true ∧
        Covers n.ipAddress n.masklen (IPAddress.mask ipaddr masklen) masklen) trail
      (((path.filter Rec).getLast?).getD nil, path.filter Rec) := by
  have hnode := getLast?_filter_coverPath_ne_nil t ipaddr masklen hpath hne
  refine ⟨fun _ => ⟨fun n => ?_, ?_, ?_⟩, fun hnil => absurd hnil hnode⟩
  · rw [List.mem_filter, hpath, h.mem_coverPath_iff]
    tauto
  · rw [hpath]
    exact h.coverPath_pairwise.filter _
  · obtain ⟨last, hlast⟩ := Option.ne_none_iff_exists'.mp (mt List.getLast?_eq_none_iff.mp hne)
    simp [hlast]

end Search

/-- On every tree built by `insert` and `erase` calls, and for every query,
`longestMatchWithTrail` and `exactMatchWithTrail` hand the caller, when they
return a node, the trail of exactly the nodes of the tree whose prefix covers
the masked query (the value nodes only, unless `includeNonValueNodes`), by
strictly increasing mask length and ending at the node returned; when they
return `end()`, the caller's trail is left as it was. -/
theorem trail_reachable (ops : List (Op w α)) (hops : ∀ op ∈ ops, op.masklen ≤ w)
    (ipaddr : BitVec w) (masklen : Nat) (includeNonValueNodes : Bool)
    (trail : List (RadixTreeNode w α)) :
    let t := run applyOp empty ops
    let Recorded := fun n : RadixTreeNode w α => n ∈ t.root.nodes ∧
      (includeNonValueNodes || n.isValueNode) = true ∧
      Covers n.ipAddress n.masklen (IPAddress.mask ipaddr masklen) masklen
    WritesTrail Recorded trail (t.longestMatchWithTrail ipaddr masklen trail includeNonValueNodes) ∧
      WritesTrail Recorded trail (t.exactMatchWithTrail ipaddr masklen trail includeNonValueNodes) := by
  intro t Recorded
  have h := (wellFormed_run ops hops).valid
  obtain ⟨path, hpath⟩ : ∃ path, path = coverPath (IPAddress.mask ipaddr masklen) masklen t.root :=
    ⟨_, rfl⟩
  simp only [longestMatchWithTrail, exactMatchWithTrail,
    longestMatchImpl_eq_filter t ipaddr masklen includeNonValueNodes hpath]
  by_cases hne : (path.filter fun c => includeNonValueNodes || c.isValueNode) = []
  · -- nothing recorded: no node is returned and nothing is exact
    have hany : (path.any fun c => decide (c.key? = some (IPAddress.mask ipaddr masklen, masklen)) &&
        (includeNonValueNodes || c.isValueNode)) = false := by
      rw [List.any_eq_false]
      intro c hc hex
      simp only [Bool.and_eq_true] at hex
      exact List.filter_eq_nil_iff.mp hne c hc hex.2
    rw [hany, hne]
    simp only [List.getLast?_nil, Option.getD_none, isNil_nil, if_true]
    exact ⟨writesTrail_end _ trail, writesTrail_end _ trail⟩
  · have hw := writesTrail_of_filter_ne_nil t ipaddr masklen h trail hpath hne
    have hnode := getLast?_filter_coverPath_ne_nil t ipaddr masklen hpath hne
    refine ⟨?_, ?_⟩
    · rw [isNil_eq_false hnode, if_neg Bool.false_ne_true]
      exact hw
    · split_ifs
      · exact hw
      · exact writesTrail_end _ trail

theorem trail_reachable_after_inserts :
    let t := run applyOp empty [Op.insert (0b1000 : BitVec 4) 1 (), Op.insert 0b1010 3 ()]
    WritesTrail (fun n => n ∈ t.root.nodes ∧ (false || n.isValueNode) = true ∧
        Covers n.ipAddress n.masklen (IPAddress.mask 0b1011 4) 4) []
      (t.longestMatchWithTrail 0b1011 4 [] false) :=
  (trail_reachable _ (by decide) 0b1011 4 false []).1

end RadixTree

end Fboss
