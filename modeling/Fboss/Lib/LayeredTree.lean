import Mathlib.Data.List.Nodup

/-!
# Trees whose children hang in layers

A `LayeredTree` is a node with a key and a list of layers, each a list of
trees: the children of a node hang off it in numbered layers, as the devices
behind the channels of a multiplexer do. `nodes t` lists the subtrees of `t` in
preorder and `keys t` their keys; in a tree whose keys are distinct a node is
named by its key.

A `Chain t P` walks down from the root of `t`: each entry of `P` is a node with
the number of the layer it is left by, the next entry is a tree of that layer,
and the number of the last entry is free. Along a chain of a tree with distinct
keys the keys are distinct (`Chain.nodup`), an entry's key is not among the keys
below a later entry (`Chain.key_not_mem_of_prefix`), and a tree that hangs in an
entry's layer beside the next entry is off the chain (`Chain.key_not_mem_of_off`).
`pathTo` finds the chain to a node by its key (`chain_of_layerPathTo`).

`reach through t` lists the nodes reached from the root of `t` by going down
only into the layers that `through` opens. What is reached lies in every set
that holds the root and is closed under going down an open layer
(`reach_closed`), and along a chain of open entries every layer an entry is left
by is reached (`Chain.reach_of_through`).
-/

/-- A tree whose children hang in a list of layers. -/
inductive LayeredTree (ι : Type*) where
  | node (key : ι) (layers : List (List (LayeredTree ι)))

namespace LayeredTree

variable {ι : Type*}

/-- The key of a tree's root. -/
def key : LayeredTree ι → ι
  | node k _ => k

/-- The layers of children of a tree's root. -/
def layers : LayeredTree ι → List (List (LayeredTree ι))
  | node _ ls => ls

@[simp] theorem key_node (k : ι) (ls : List (List (LayeredTree ι))) : (node k ls).key = k := rfl

@[simp] theorem layers_node (k : ι) (ls : List (List (LayeredTree ι))) :
    (node k ls).layers = ls := rfl

mutual
/-- The subtrees of a tree, itself first, in preorder. -/
def nodes : LayeredTree ι → List (LayeredTree ι)
  | node k ls => node k ls :: layersNodes ls

/-- The subtrees of the trees of a list of layers. -/
def layersNodes : List (List (LayeredTree ι)) → List (LayeredTree ι)
  | [] => []
  | l :: ls => layerNodes l ++ layersNodes ls

/-- The subtrees of the trees of one layer. -/
def layerNodes : List (LayeredTree ι) → List (LayeredTree ι)
  | [] => []
  | t :: ts => nodes t ++ layerNodes ts
end

/-- The keys of a tree's nodes. -/
def keys (t : LayeredTree ι) : List ι :=
  t.nodes.map key

/-- The keys of the nodes of the trees of a layer, or of a forest. -/
def layerKeys (l : List (LayeredTree ι)) : List ι :=
  (layerNodes l).map key

/-- No node of the tree has more than `w` layers. -/
def Narrow (w : Nat) (t : LayeredTree ι) : Prop :=
  ∀ s ∈ t.nodes, s.layers.length ≤ w

instance (w : Nat) (t : LayeredTree ι) : Decidable (t.Narrow w) :=
  inferInstanceAs (Decidable (∀ s ∈ t.nodes, s.layers.length ≤ w))

@[simp] theorem nodes_node (k : ι) (ls : List (List (LayeredTree ι))) :
    (node k ls).nodes = node k ls :: layersNodes ls := by
  rw [nodes]

@[simp] theorem layersNodes_nil : layersNodes ([] : List (List (LayeredTree ι))) = [] := by
  rw [layersNodes]

@[simp] theorem layersNodes_cons (l : List (LayeredTree ι)) (ls : List (List (LayeredTree ι))) :
    layersNodes (l :: ls) = layerNodes l ++ layersNodes ls := by
  rw [layersNodes]

@[simp] theorem layerNodes_nil : layerNodes ([] : List (LayeredTree ι)) = [] := by
  rw [layerNodes]

@[simp] theorem layerNodes_cons (t : LayeredTree ι) (ts : List (LayeredTree ι)) :
    layerNodes (t :: ts) = nodes t ++ layerNodes ts := by
  rw [layerNodes]

@[simp] theorem layerKeys_nil : layerKeys ([] : List (LayeredTree ι)) = [] := by
  simp [layerKeys]

@[simp] theorem layerKeys_cons (t : LayeredTree ι) (ts : List (LayeredTree ι)) :
    layerKeys (t :: ts) = t.keys ++ layerKeys ts := by
  simp [layerKeys, keys]

theorem nodes_eq (t : LayeredTree ι) : t.nodes = t :: layersNodes t.layers := by
  cases t
  rfl

theorem mem_nodes_self (t : LayeredTree ι) : t ∈ t.nodes := by
  rw [nodes_eq]
  exact List.mem_cons_self

theorem key_mem_keys (t : LayeredTree ι) : t.key ∈ t.keys :=
  List.mem_map_of_mem t.mem_nodes_self

theorem keys_eq (t : LayeredTree ι) : t.keys = t.key :: (layersNodes t.layers).map key := by
  rw [keys, nodes_eq, List.map_cons]

/-! ### Subtrees -/

theorem nodes_sublist_layerNodes {t : LayeredTree ι} :
    ∀ {l : List (LayeredTree ι)}, t ∈ l → t.nodes.Sublist (layerNodes l)
  | t' :: ts, h => by
    rw [layerNodes_cons]
    rcases List.mem_cons.mp h with rfl | h
    · exact List.sublist_append_left _ _
    · exact (nodes_sublist_layerNodes h).trans (List.sublist_append_right _ _)

theorem layerNodes_sublist_layersNodes {l : List (LayeredTree ι)} :
    ∀ {ls : List (List (LayeredTree ι))}, l ∈ ls → (layerNodes l).Sublist (layersNodes ls)
  | l' :: ls, h => by
    rw [layersNodes_cons]
    rcases List.mem_cons.mp h with rfl | h
    · exact List.sublist_append_left _ _
    · exact (layerNodes_sublist_layersNodes h).trans (List.sublist_append_right _ _)

/-- A tree hanging in a layer of `t` has its nodes among those of `t`. -/
theorem nodes_sublist_of_mem_layer {t u : LayeredTree ι} {l : List (LayeredTree ι)}
    (hl : l ∈ t.layers) (hu : u ∈ l) : u.nodes.Sublist (layersNodes t.layers) :=
  (nodes_sublist_layerNodes hu).trans (layerNodes_sublist_layersNodes hl)

theorem layersNodes_sublist_nodes (t : LayeredTree ι) : (layersNodes t.layers).Sublist t.nodes := by
  rw [nodes_eq]
  exact List.sublist_cons_self _ _

theorem Narrow.mono {w : Nat} {s t : LayeredTree ι} (hst : s.nodes.Sublist t.nodes) (ht : t.Narrow w) :
    s.Narrow w :=
  fun n hn => ht n (hst.subset hn)

theorem mem_layerNodes {n : LayeredTree ι} :
    ∀ {l : List (LayeredTree ι)}, n ∈ layerNodes l ↔ ∃ t ∈ l, n ∈ t.nodes
  | [] => by simp
  | t :: ts => by
    rw [layerNodes_cons, List.mem_append, mem_layerNodes]
    simp

theorem layerNodes_eq_flatMap : ∀ (l : List (LayeredTree ι)), layerNodes l = l.flatMap nodes
  | [] => by simp
  | t :: ts => by rw [layerNodes_cons, layerNodes_eq_flatMap ts, List.flatMap_cons]

theorem layersNodes_eq_flatMap : ∀ (ls : List (List (LayeredTree ι))), layersNodes ls = ls.flatten.flatMap nodes
  | [] => by simp
  | l :: ls => by
    rw [layersNodes_cons, layersNodes_eq_flatMap ls, layerNodes_eq_flatMap, List.flatten_cons,
      List.flatMap_append]

theorem layerKeys_eq_flatMap (l : List (LayeredTree ι)) : layerKeys l = l.flatMap keys := by
  rw [layerKeys, layerNodes_eq_flatMap, List.map_flatMap]
  rfl

/-- The keys below a node are the keys of the trees of its layers. -/
theorem flatten_flatMap_keys (ls : List (List (LayeredTree ι))) :
    ls.flatten.flatMap keys = (layersNodes ls).map key := by
  rw [layersNodes_eq_flatMap, List.map_flatMap]
  rfl

mutual
/-- The nodes of a node of a tree are nodes of the tree. -/
theorem nodes_sublist_of_mem_nodes : ∀ (t : LayeredTree ι) {n : LayeredTree ι}, n ∈ t.nodes →
    n.nodes.Sublist t.nodes
  | node k ls, n, hn => by
    rw [nodes_node, List.mem_cons] at hn
    rcases hn with rfl | hn
    · exact List.Sublist.refl _
    · rw [nodes_node]
      exact (nodes_sublist_of_mem_layersNodes ls hn).trans (List.sublist_cons_self _ _)

theorem nodes_sublist_of_mem_layersNodes : ∀ (ls : List (List (LayeredTree ι))) {n : LayeredTree ι},
    n ∈ layersNodes ls → n.nodes.Sublist (layersNodes ls)
  | [], n, hn => by simp at hn
  | l :: ls, n, hn => by
    rw [layersNodes_cons, List.mem_append] at hn
    rw [layersNodes_cons]
    rcases hn with hn | hn
    · exact (nodes_sublist_of_mem_layerNodes l hn).trans (List.sublist_append_left _ _)
    · exact (nodes_sublist_of_mem_layersNodes ls hn).trans (List.sublist_append_right _ _)

theorem nodes_sublist_of_mem_layerNodes : ∀ (l : List (LayeredTree ι)) {n : LayeredTree ι},
    n ∈ layerNodes l → n.nodes.Sublist (layerNodes l)
  | [], n, hn => by simp at hn
  | t :: ts, n, hn => by
    rw [layerNodes_cons, List.mem_append] at hn
    rw [layerNodes_cons]
    rcases hn with hn | hn
    · exact (nodes_sublist_of_mem_nodes t hn).trans (List.sublist_append_left _ _)
    · exact (nodes_sublist_of_mem_layerNodes ts hn).trans (List.sublist_append_right _ _)
end

/-- A tree of a layer of a node of `t` is a node of `t`. -/
theorem mem_nodes_of_mem_layer {t n u : LayeredTree ι} {l : List (LayeredTree ι)} (hn : n ∈ t.nodes)
    (hl : l ∈ n.layers) (hu : u ∈ l) : u ∈ t.nodes :=
  (nodes_sublist_of_mem_nodes t hn).subset
    (n.layersNodes_sublist_nodes.subset ((nodes_sublist_of_mem_layer hl hu).subset u.mem_nodes_self))

/-! ### Distinct keys -/

/-- In a tree with distinct keys, a tree hanging in a layer has distinct keys,
none of them the root's. -/
theorem nodup_keys_of_mem_layer {t u : LayeredTree ι} {l : List (LayeredTree ι)} (hnd : t.keys.Nodup)
    (hl : l ∈ t.layers) (hu : u ∈ l) : u.keys.Nodup ∧ t.key ∉ u.keys := by
  have hsub : u.keys.Sublist ((layersNodes t.layers).map key) :=
    (nodes_sublist_of_mem_layer hl hu).map key
  rw [keys_eq, List.nodup_cons] at hnd
  exact ⟨hnd.2.sublist hsub, fun h => hnd.1 (hsub.subset h)⟩

theorem keys_subset_of_mem_layer {t u : LayeredTree ι} {l : List (LayeredTree ι)}
    (hl : l ∈ t.layers) (hu : u ∈ l) : u.keys ⊆ t.keys :=
  (((nodes_sublist_of_mem_layer hl hu).trans t.layersNodes_sublist_nodes).map key).subset

/-- Two different trees of one layer whose keys are distinct share no key. -/
theorem keys_disjoint_of_mem_layer :
    ∀ {l : List (LayeredTree ι)} {u v : LayeredTree ι}, (layerKeys l).Nodup → u ∈ l → v ∈ l → v ≠ u →
      ∀ x ∈ v.keys, x ∉ u.keys
  | t :: ts, u, v, hnd, hu, hv, hne => by
    rw [layerKeys, layerNodes_cons, List.map_append, List.nodup_append] at hnd
    obtain ⟨-, hts, hdisj⟩ := hnd
    have hsub : ∀ {w}, w ∈ ts → w.keys ⊆ layerKeys ts :=
      fun hw => ((nodes_sublist_layerNodes hw).map key).subset
    intro x hx hxu
    rcases List.mem_cons.mp hu with rfl | hu' <;> rcases List.mem_cons.mp hv with rfl | hv'
    · exact hne rfl
    · exact hdisj x hxu x (hsub hv' hx) rfl
    · exact hdisj x hx x (hsub hu' hxu) rfl
    · exact keys_disjoint_of_mem_layer hts hu' hv' hne x hx hxu

/-! ### Chains -/

/-- `Chain t P`: `P` walks down from the root of `t`, each entry a node with the
number of the layer it is left by and the next entry a tree of that layer; the
number of the last entry is free. -/
inductive Chain : LayeredTree ι → List (LayeredTree ι × Nat) → Prop
  | last (t : LayeredTree ι) (c : Nat) : Chain t [(t, c)]
  | step {t u : LayeredTree ι} {c : Nat} {l : List (LayeredTree ι)} {P : List (LayeredTree ι × Nat)} :
      t.layers[c]? = some l → u ∈ l → Chain u P → Chain t ((t, c) :: P)

namespace Chain

variable {t : LayeredTree ι} {P : List (LayeredTree ι × Nat)}

theorem exists_eq_cons (h : Chain t P) : ∃ c P', P = (t, c) :: P' := by
  cases h with
  | last t c => exact ⟨c, [], rfl⟩
  | step _ _ _ => exact ⟨_, _, rfl⟩

/-- Every entry of a chain is a subtree of its start. -/
theorem nodes_sublist (h : Chain t P) : ∀ q ∈ P, q.1.nodes.Sublist t.nodes := by
  induction h with
  | last t c =>
    intro q hq
    obtain rfl := List.mem_singleton.mp hq
    exact List.Sublist.refl _
  | @step t u c l P hl hu _ ih =>
    intro q hq
    rcases List.mem_cons.mp hq with rfl | hq
    · exact List.Sublist.refl _
    · exact (ih q hq).trans
        ((nodes_sublist_of_mem_layer (List.mem_of_getElem? hl) hu).trans t.layersNodes_sublist_nodes)

theorem keys_subset (h : Chain t P) : ∀ q ∈ P, q.1.keys ⊆ t.keys :=
  fun q hq => ((h.nodes_sublist q hq).map key).subset

/-- The keys along a chain of a tree with distinct keys are distinct. -/
theorem nodup (h : Chain t P) : t.keys.Nodup → (P.map fun q => q.1.key).Nodup := by
  induction h with
  | last t c => intro _; exact List.nodup_singleton _
  | @step t u c l P hl hu hP ih =>
    intro hnd
    obtain ⟨hu_nd, ht⟩ := nodup_keys_of_mem_layer hnd (List.mem_of_getElem? hl) hu
    rw [List.map_cons, List.nodup_cons]
    refine ⟨fun hmem => ?_, ih hu_nd⟩
    obtain ⟨q, hq, hqk⟩ := List.mem_map.mp hmem
    exact ht (hP.keys_subset q hq (hqk ▸ q.1.key_mem_keys))

/-- The step of a chain that goes on below its first entry. -/
theorem tail {p : LayeredTree ι × Nat} (h : Chain t (p :: P)) (hP : P ≠ []) :
    ∃ c l u, p = (t, c) ∧ t.layers[c]? = some l ∧ u ∈ l ∧ Chain u P := by
  cases h with
  | last => exact absurd rfl hP
  | step hl hu hP' => exact ⟨_, _, _, rfl, hl, hu, hP'⟩

/-- A chain is also one from each of its entries. -/
theorem drop : ∀ {C : List (LayeredTree ι × Nat)} {t : LayeredTree ι} {q : LayeredTree ι × Nat}
    {P : List (LayeredTree ι × Nat)}, Chain t (C ++ q :: P) → Chain q.1 (q :: P)
  | [], _, _, _, h => by
    obtain ⟨c, P', he⟩ := h.exists_eq_cons
    obtain ⟨rfl, -⟩ := List.cons_eq_cons.mp he
    exact h
  | p :: C, _, _, _, h => by
    obtain ⟨_, _, _, _, _, _, hP⟩ := Chain.tail h (by simp)
    exact drop hP

/-- In a tree with distinct keys, no entry of a chain has its key among the
keys below a later entry. -/
theorem key_not_mem_of_prefix : ∀ {C : List (LayeredTree ι × Nat)} {t : LayeredTree ι}
    {q : LayeredTree ι × Nat} {P : List (LayeredTree ι × Nat)}, Chain t (C ++ q :: P) →
      t.keys.Nodup → ∀ p ∈ C, p.1.key ∉ q.1.keys
  | [], _, _, _, _, _, p, hp => absurd hp List.not_mem_nil
  | p₀ :: C, _, q, _, h, hnd, p, hp => by
    obtain ⟨c, l, u, rfl, hl, hu, hP⟩ := Chain.tail h (by simp)
    obtain ⟨hu_nd, ht⟩ := nodup_keys_of_mem_layer hnd (List.mem_of_getElem? hl) hu
    rcases List.mem_cons.mp hp with rfl | hp
    · exact fun hk => ht (hP.keys_subset q (by simp) hk)
    · exact key_not_mem_of_prefix hP hu_nd p hp

/-- In a tree of at most `w` layers a node, every entry but the last of a chain
is left by a layer numbered below `w`. -/
theorem channel_lt_of_narrow {w : Nat} : ∀ {C : List (LayeredTree ι × Nat)} {t : LayeredTree ι}
    {q : LayeredTree ι × Nat}, Chain t (C ++ [q]) → t.Narrow w → ∀ p ∈ C, p.2 < w
  | [], _, _, _, _, p, hp => absurd hp List.not_mem_nil
  | p₀ :: C, t, _, h, hw, p, hp => by
    obtain ⟨c, l, u, rfl, hl, hu, hP⟩ := Chain.tail h (by simp)
    rcases List.mem_cons.mp hp with rfl | hp
    · have hc : c < t.layers.length := (List.getElem?_eq_some_iff.mp hl).1
      exact Nat.lt_of_lt_of_le hc (hw t t.mem_nodes_self)
    · have hsub := (nodes_sublist_of_mem_layer (List.mem_of_getElem? hl) hu).trans t.layersNodes_sublist_nodes
      exact channel_lt_of_narrow hP (hw.mono hsub) p hp

/-- In a tree with distinct keys, a tree that hangs in the layer an entry of a
chain is left by, and is not the next entry, is off the chain. -/
theorem key_not_mem_of_off {C D : List (LayeredTree ι × Nat)} {s v : LayeredTree ι} {c : Nat}
    {l : List (LayeredTree ι)} (h : Chain t (C ++ (s, c) :: D)) (hnd : t.keys.Nodup)
    (hl : s.layers[c]? = some l) (hv : v ∈ l) (hoff : ∀ d ∈ D.head?, v ≠ d.1) :
    v.key ∉ (C ++ (s, c) :: D).map fun q => q.1.key := by
  have hs : Chain s ((s, c) :: D) := h.drop
  have hs_nd : s.keys.Nodup := hnd.sublist ((h.nodes_sublist (s, c) (by simp)).map key)
  obtain ⟨-, hsv⟩ := nodup_keys_of_mem_layer hs_nd (List.mem_of_getElem? hl) hv
  have hvs : v.keys ⊆ s.keys := keys_subset_of_mem_layer (List.mem_of_getElem? hl) hv
  simp only [List.map_append, List.map_cons, List.mem_append, List.mem_cons, not_or]
  refine ⟨fun hm => ?_, fun hk => hsv (hk ▸ v.key_mem_keys), fun hm => ?_⟩
  · -- the entries above `s` have no key below `s`
    obtain ⟨p, hp, hpk⟩ := List.mem_map.mp hm
    exact h.key_not_mem_of_prefix hnd p hp (hpk ▸ hvs v.key_mem_keys)
  · -- the entries below `s` are below its next entry, which hangs beside `v`
    obtain ⟨d, hd, hdk⟩ := List.mem_map.mp hm
    obtain ⟨c₀, l', u, hc, hl', hu, hD⟩ := hs.tail (List.ne_nil_of_mem hd)
    obtain rfl : c = c₀ := (Prod.mk.inj hc).2
    obtain rfl : l' = l := Option.some.inj (hl'.symm.trans hl)
    obtain ⟨c', D', rfl⟩ := hD.exists_eq_cons
    have hlk : (layerKeys l').Nodup :=
      hs_nd.sublist (((layerNodes_sublist_layersNodes (List.mem_of_getElem? hl)).trans
        s.layersNodes_sublist_nodes).map key)
    exact keys_disjoint_of_mem_layer hlk hu hv (hoff (u, c') (by simp)) v.key v.key_mem_keys
      (hD.keys_subset d hd (hdk ▸ d.1.key_mem_keys))

/-- A chain that goes on past a node is a chain up to it. -/
theorem left_of_append : ∀ {C D : List (LayeredTree ι × Nat)} {t : LayeredTree ι},
    Chain t (C ++ D) → C ≠ [] → Chain t C
  | [p], D, t, h, _ => by
    obtain ⟨c, P, he⟩ := h.exists_eq_cons
    obtain ⟨rfl, -⟩ := List.cons_eq_cons.mp he
    exact .last t c
  | p :: q :: C, D, t, h, _ => by
    obtain ⟨c, l, u, rfl, hl, hu, hP⟩ := Chain.tail h (by simp)
    exact .step hl hu (left_of_append hP (by simp))

/-- The number of the last entry of a chain is free. -/
theorem set_last : ∀ {C : List (LayeredTree ι × Nat)} {t s : LayeredTree ι} {c d : Nat},
    Chain t (C ++ [(s, c)]) → Chain t (C ++ [(s, d)])
  | [], t, s, c, d, h => by
    obtain ⟨c', P, he⟩ := h.exists_eq_cons
    obtain ⟨⟨rfl, -⟩, -⟩ := List.cons_eq_cons.mp he
    exact .last t d
  | p :: C, t, s, c, d, h => by
    obtain ⟨c', l, u, rfl, hl, hu, hP⟩ := Chain.tail h (by simp)
    exact .step hl hu (set_last hP)

/-- A chain goes on into any tree of the layer its last entry is left by. -/
theorem snoc : ∀ {C : List (LayeredTree ι × Nat)} {t s u : LayeredTree ι} {c d : Nat}
    {l : List (LayeredTree ι)}, Chain t (C ++ [(s, c)]) → s.layers[c]? = some l → u ∈ l →
      Chain t (C ++ [(s, c), (u, d)])
  | [], t, s, u, c, d, l, h, hl, hu => by
    obtain ⟨c', P, he⟩ := h.exists_eq_cons
    obtain ⟨⟨rfl, -⟩, -⟩ := List.cons_eq_cons.mp he
    exact .step hl hu (.last u d)
  | p :: C, t, s, u, c, d, l, h, hl, hu => by
    obtain ⟨c', l', u', rfl, hl', hu', hP⟩ := Chain.tail h (by simp)
    exact .step hl' hu' (snoc hP hl hu)

/-- Every entry of a chain but the first hangs in the layer an earlier entry is
left by. -/
theorem mem_layers_of_append : ∀ {C D : List (LayeredTree ι × Nat)} {t : LayeredTree ι}
    {q : LayeredTree ι × Nat}, Chain t (C ++ q :: D) → C ≠ [] →
      q.1 ∈ C.flatMap fun p => p.1.layers.getD p.2 []
  | [p], D, t, q, h, _ => by
    obtain ⟨c, l, u, rfl, hl, hu, hP⟩ := Chain.tail h (by simp)
    obtain ⟨c', P, he⟩ := hP.exists_eq_cons
    obtain ⟨rfl, -⟩ := List.cons_eq_cons.mp he
    simpa [List.getD_eq_getElem?_getD, hl] using hu
  | p :: p' :: C, D, t, q, h, _ => by
    obtain ⟨c, l, u, rfl, hl, hu, hP⟩ := Chain.tail h (by simp)
    exact List.mem_flatMap.mpr (by
      obtain ⟨r, hr, hq⟩ := List.mem_flatMap.mp (mem_layers_of_append hP (by simp))
      exact ⟨r, List.mem_cons_of_mem _ hr, hq⟩)

end Chain

/-! ### Nodes reached through open layers -/

section Reach

variable (through : ι → Nat → Bool)

mutual
/-- The nodes of a tree reached from its root by going down only into the
layers that `through` opens, in preorder. -/
def reach : LayeredTree ι → List (LayeredTree ι)
  | node k ls => node k ls :: reachLayers k 0 ls

/-- The nodes reached below the node with key `k` through its layers numbered
from `c` on. -/
def reachLayers (k : ι) (c : Nat) : List (List (LayeredTree ι)) → List (LayeredTree ι)
  | [] => []
  | l :: ls => (if through k c then reachLayer l else []) ++ reachLayers k (c + 1) ls

/-- The nodes reached from the trees of a layer, or of a forest. -/
def reachLayer : List (LayeredTree ι) → List (LayeredTree ι)
  | [] => []
  | t :: ts => reach t ++ reachLayer ts
end

theorem reach_eq (t : LayeredTree ι) : reach through t = t :: reachLayers through t.key 0 t.layers := by
  cases t
  rw [reach]
  rfl

theorem reach_subset_reachLayer {t : LayeredTree ι} :
    ∀ {l : List (LayeredTree ι)}, t ∈ l → reach through t ⊆ reachLayer through l
  | u :: us, h => by
    rw [reachLayer]
    rcases List.mem_cons.mp h with rfl | h
    · exact List.subset_append_left _ _
    · exact List.Subset.trans (reach_subset_reachLayer h) (List.subset_append_right _ _)

/-- The roots of a forest are reached. -/
theorem mem_reachLayer_of_mem {t : LayeredTree ι} {l : List (LayeredTree ι)} (h : t ∈ l) :
    t ∈ reachLayer through l :=
  reach_subset_reachLayer through h (by rw [reach_eq]; exact List.mem_cons_self)

theorem reachLayer_subset_reachLayers {k : ι} {l : List (LayeredTree ι)} :
    ∀ {ls : List (List (LayeredTree ι))} {i j : Nat}, ls[i]? = some l → through k (j + i) = true →
      reachLayer through l ⊆ reachLayers through k j ls
  | l' :: ls, 0, j, hl, hc => by
    obtain rfl : l' = l := Option.some.inj hl
    rw [reachLayers, if_pos (by simpa using hc)]
    exact List.subset_append_left _ _
  | l' :: ls, i + 1, j, hl, hc => by
    rw [reachLayers]
    refine List.Subset.trans (reachLayer_subset_reachLayers (i := i) (j := j + 1) (by simpa using hl) ?_)
      (List.subset_append_right _ _)
    rwa [Nat.add_right_comm, Nat.add_assoc]

/-- What a tree of an open layer of `t` reaches, `t` reaches. -/
theorem reach_subset_of_through {t u : LayeredTree ι} {c : Nat} {l : List (LayeredTree ι)}
    (hl : t.layers[c]? = some l) (hc : through t.key c = true) (hu : u ∈ l) :
    reach through u ⊆ reach through t := by
  rw [reach_eq through t]
  refine List.subset_cons_of_subset _ (List.Subset.trans (reach_subset_reachLayer through hu) ?_)
  exact reachLayer_subset_reachLayers through (i := c) (j := 0) hl (by simpa using hc)

/-- Along a chain whose every entry is open, the layer each entry is left by is
reached. -/
theorem Chain.reach_of_through {t : LayeredTree ι} {P : List (LayeredTree ι × Nat)} (h : Chain t P)
    (hP : ∀ p ∈ P, through p.1.key p.2 = true) :
    ∀ p ∈ P, ∀ u ∈ p.1.layers.getD p.2 [], u ∈ reach through t := by
  induction h with
  | last t c =>
    intro p hp u hu
    obtain rfl := List.mem_singleton.mp hp
    rw [List.getD_eq_getElem?_getD] at hu
    cases hl : t.layers[c]? with
    | none => simp [hl] at hu
    | some l =>
      rw [hl, Option.getD_some] at hu
      exact reach_subset_of_through through hl (hP _ List.mem_cons_self) hu
        (by rw [reach_eq]; exact List.mem_cons_self)
  | @step t v c l P hl hv _ ih =>
    intro p hp u hu
    have hvt := reach_subset_of_through through hl (hP _ List.mem_cons_self) hv
    rcases List.mem_cons.mp hp with rfl | hp
    · rw [List.getD_eq_getElem?_getD, hl, Option.getD_some] at hu
      exact reach_subset_of_through through hl (hP _ List.mem_cons_self) hu
        (by rw [reach_eq]; exact List.mem_cons_self)
    · exact hvt (ih (fun q hq => hP q (List.mem_cons_of_mem _ hq)) p hp u hu)

/-- `S` holds of every tree of a layer that `through` opens below a node it holds of. -/
def ClosedDown (S : LayeredTree ι → Prop) : Prop :=
  ∀ n c l u, S n → through n.key c = true → n.layers[c]? = some l → u ∈ l → S u

variable {through}

mutual
/-- What a tree reaches lies in every set that holds its root and is closed
under going down an open layer. -/
theorem reach_closed {S : LayeredTree ι → Prop} (hS : ClosedDown through S) :
    ∀ (t : LayeredTree ι), S t → ∀ n ∈ reach through t, S n
  | node k ls, ht, n, hn => by
    rw [reach, List.mem_cons] at hn
    rcases hn with rfl | hn
    · exact ht
    · exact reachLayers_closed hS ls (node k ls) 0 (fun i l hi => by simpa using hi) ht n hn

theorem reachLayers_closed {S : LayeredTree ι → Prop} (hS : ClosedDown through S) :
    ∀ (ls : List (List (LayeredTree ι))) (t : LayeredTree ι) (j : Nat),
      (∀ i l, ls[i]? = some l → t.layers[j + i]? = some l) → S t →
        ∀ n ∈ reachLayers through t.key j ls, S n
  | [], _, _, _, _, n, hn => by simp [reachLayers] at hn
  | l :: ls, t, j, hls, ht, n, hn => by
    rw [reachLayers, List.mem_append] at hn
    rcases hn with hn | hn
    · by_cases hc : through t.key j = true
      · rw [if_pos hc] at hn
        exact reachLayer_closed hS l (fun u hu => hS t j l u ht hc (hls 0 l rfl) hu) n hn
      · rw [if_neg hc] at hn
        exact absurd hn List.not_mem_nil
    · refine reachLayers_closed hS ls t (j + 1) (fun i l' hi => ?_) ht n hn
      rw [Nat.add_right_comm]
      exact hls (i + 1) l' hi

theorem reachLayer_closed {S : LayeredTree ι → Prop} (hS : ClosedDown through S) :
    ∀ (l : List (LayeredTree ι)), (∀ u ∈ l, S u) → ∀ n ∈ reachLayer through l, S n
  | [], _, n, hn => by simp [reachLayer] at hn
  | u :: us, h, n, hn => by
    rw [reachLayer, List.mem_append] at hn
    rcases hn with hn | hn
    · exact reach_closed hS u (h u List.mem_cons_self) n hn
    · exact reachLayer_closed hS us (fun v hv => h v (List.mem_cons_of_mem u hv)) n hn
end

end Reach

/-! ### Finding the chain to a node -/

variable [DecidableEq ι]

mutual
/-- The chain from the root of `t` down to the first node, in preorder, whose
key is `k`, ending with the number `c`. -/
def pathTo (k : ι) (c : Nat) : LayeredTree ι → Option (List (LayeredTree ι × Nat))
  | node k' ls => if k' = k then some [(node k' ls, c)] else layersPathTo k c (node k' ls) 0 ls

/-- The chain from `t` through its layers numbered from `j` on. -/
def layersPathTo (k : ι) (c : Nat) (t : LayeredTree ι) (j : Nat) :
    List (List (LayeredTree ι)) → Option (List (LayeredTree ι × Nat))
  | [] => none
  | l :: ls => ((layerPathTo k c l).map ((t, j) :: ·)).or (layersPathTo k c t (j + 1) ls)

/-- The chain from the first tree of a layer that holds the node. -/
def layerPathTo (k : ι) (c : Nat) : List (LayeredTree ι) → Option (List (LayeredTree ι × Nat))
  | [] => none
  | u :: us => (pathTo k c u).or (layerPathTo k c us)
end

/-- The chain `P` ends at a node with key `k`, with the number `c`. -/
def EndsAt (k : ι) (c : Nat) (P : List (LayeredTree ι × Nat)) : Prop :=
  ∃ C s, P = C ++ [(s, c)] ∧ s.key = k

mutual
theorem chain_of_pathTo {k : ι} {c : Nat} :
    ∀ (t : LayeredTree ι) {P}, pathTo k c t = some P → Chain t P ∧ EndsAt k c P
  | node k' ls, P, h => by
    rw [pathTo] at h
    split_ifs at h with hk
    · cases h
      exact ⟨.last _ _, [], _, rfl, hk⟩
    · exact chain_of_layersPathTo ls (node k' ls) 0 (fun i l hi => by simpa using hi) h

theorem chain_of_layersPathTo {k : ι} {c : Nat} :
    ∀ (ls : List (List (LayeredTree ι))) (t : LayeredTree ι) (j : Nat) {P},
      (∀ i l, ls[i]? = some l → t.layers[j + i]? = some l) →
      layersPathTo k c t j ls = some P → Chain t P ∧ EndsAt k c P
  | [], _, _, _, _, h => by simp [layersPathTo] at h
  | l :: ls, t, j, P, hls, h => by
    rw [layersPathTo] at h
    cases hl : layerPathTo k c l with
    | some P' =>
      rw [hl, Option.map_some, Option.some_or, Option.some.injEq] at h
      subst h
      obtain ⟨u, hu, hP', C, s, rfl, hs⟩ := chain_of_layerPathTo l hl
      exact ⟨.step (hls 0 l rfl) hu hP', (t, j) :: C, s, rfl, hs⟩
    | none =>
      rw [hl, Option.map_none, Option.none_or] at h
      refine chain_of_layersPathTo ls t (j + 1) (fun i l' hi => ?_) h
      rw [Nat.add_right_comm]
      exact hls (i + 1) l' hi

theorem chain_of_layerPathTo {k : ι} {c : Nat} :
    ∀ (l : List (LayeredTree ι)) {P}, layerPathTo k c l = some P → ∃ u ∈ l, Chain u P ∧ EndsAt k c P
  | [], _, h => by simp [layerPathTo] at h
  | u :: us, P, h => by
    rw [layerPathTo] at h
    cases hu : pathTo k c u with
    | some P' =>
      rw [hu, Option.some_or, Option.some.injEq] at h
      subst h
      exact ⟨u, List.mem_cons_self, chain_of_pathTo u hu⟩
    | none =>
      rw [hu, Option.none_or] at h
      obtain ⟨v, hv, H⟩ := chain_of_layerPathTo us h
      exact ⟨v, List.mem_cons_of_mem u hv, H⟩
end

mutual
/-- `pathTo` finds every key of the tree. -/
theorem isSome_pathTo {k : ι} {c : Nat} : ∀ (t : LayeredTree ι), k ∈ t.keys → (pathTo k c t).isSome
  | node k' ls, hk => by
    rw [pathTo]
    split_ifs with hk'
    · rfl
    · rw [keys_eq, key_node, layers_node, List.mem_cons] at hk
      exact isSome_layersPathTo ls (node k' ls) 0 (hk.resolve_left (Ne.symm hk'))

theorem isSome_layersPathTo {k : ι} {c : Nat} :
    ∀ (ls : List (List (LayeredTree ι))) (t : LayeredTree ι) (j : Nat),
      k ∈ (layersNodes ls).map key → (layersPathTo k c t j ls).isSome
  | [], _, _, hk => by simp at hk
  | l :: ls, t, j, hk => by
    rw [layersPathTo, Option.isSome_or, Option.isSome_map]
    rw [layersNodes_cons, List.map_append, List.mem_append] at hk
    rcases hk with hk | hk
    · rw [isSome_layerPathTo l hk, Bool.true_or]
    · rw [isSome_layersPathTo ls t (j + 1) hk, Bool.or_true]

theorem isSome_layerPathTo {k : ι} {c : Nat} :
    ∀ (l : List (LayeredTree ι)), k ∈ layerKeys l → (layerPathTo k c l).isSome
  | [], hk => by simp at hk
  | u :: us, hk => by
    rw [layerPathTo, Option.isSome_or]
    rw [layerKeys_cons, List.mem_append] at hk
    rcases hk with hk | hk
    · rw [isSome_pathTo u hk, Bool.true_or]
    · rw [isSome_layerPathTo us hk, Bool.or_true]
end

end LayeredTree
