import Fboss.RadixTree.Search
import Fboss.Lib.AssocList

/-!
# Erasure

`eraseNode` removes a value node in one of six ways. A node with two children
keeps its place as a non value node. Otherwise the node goes: its only child,
or nothing, takes its place under its parent; and a non value parent left with
one child goes too, its other child taking its place under the grandparent.
Where there is no parent, the root pointer is rewritten instead.

The writes into a parent or grandparent are all one operation, replacing one
child by a subtree that it covers (`replaceChild_spec`); the six cases differ
in the subtree, and in the bindings the replaced child holds that the subtree
does not.
-/

namespace Fboss

namespace RadixTree

open BitPrefix RadixTreeNode

variable {w : Nat} {α : Type}

/-- Replacing the child of a valid node on side `b` by a valid subtree `Y` below
it keeps the node valid, provided the node holds a value if `Y` is null; the
node loses the bindings of that child that `Y` does not hold. -/
theorem replaceSide_spec {pip : BitVec w} {pml : Nat} {pv : Option α}
    {pp : Option (BitVec w × Nat)} {pl pr : RadixTreeNode w α}
    (hP : Valid (node pip pml pv pp pl pr)) (b : Bool) {Y : RadixTreeNode w α} (hY : Valid Y)
    (hYcov : Y ≠ nil → ∃ k ∈ (if b then pr else pl).keys, Covers k.1 k.2 Y.ipAddress Y.masklen)
    (hYtwo : Y = nil → pv.isSome = true)
    {Q : (BitVec w × Nat) × α → Prop} (hQ : ∀ e, Q e → e.1 ∈ (if b then pr else pl).keys)
    (hYent : ∀ e, e ∈ Y.entries ↔ e ∈ (if b then pr else pl).entries ∧ ¬ Q e) :
    Valid (if b then (node pip pml pv pp pl pr).resetRight Y
      else (node pip pml pv pp pl pr).resetLeft Y) ∧
      ∀ e, e ∈ (if b then (node pip pml pv pp pl pr).resetRight Y
        else (node pip pml pv pp pl pr).resetLeft Y).entries ↔
          e ∈ (node pip pml pv pp pl pr).entries ∧ ¬ Q e := by
  -- what `Q` removes lies in the replaced child: not here, not on the other side
  have hown : ∀ e ∈ (pv.map fun y => ((pip, pml), y)).toList, ¬ Q e := by
    intro e he hq
    have hek : e.1 = (pip, pml) := by cases pv <;> simp_all
    have hmem := hQ e hq
    rw [hek] at hmem
    cases b
    · exact hP.self_not_mem_left hmem
    · exact hP.self_not_mem_right hmem
  have hother : ∀ e ∈ (if b then pl else pr).entries, ¬ Q e := by
    intro e he hq
    have hmem := hQ e hq
    cases b
    · exact hP.not_mem_left_of_mem_right (mem_keys_of_mem_entries he) hmem
    · exact hP.not_mem_left_of_mem_right hmem (mem_keys_of_mem_entries he)
  have hfit : FitsBelow pip pml b (Y.setParent (some (pip, pml))) := by
    refine fitsBelow_setParent fun hne => ?_
    obtain ⟨k, hk, hcov⟩ := hYcov hne
    cases b
    · exact (hP.keys_left k hk).trans_covers hcov
    · exact (hP.keys_right k hk).trans_covers hcov
  have hYne : pv = none → Y.setParent (some (pip, pml)) ≠ nil := by
    intro hv hYn
    cases Y with
    | nil => simp [hv] at hYtwo
    | node _ _ _ _ _ _ => simp at hYn
  have hYv : Valid (Y.setParent (some (pip, pml))) := (valid_setParent _ Y).mpr hY
  obtain ⟨hmask, hml, hfl, hfr, htwo, hvl, hvr⟩ := hP
  cases b with
  | false =>
      simp only [Bool.false_eq_true, if_false] at hYent hother ⊢
      refine ⟨⟨hmask, hml, hfit, hfr, fun hv => ⟨hYne hv, (htwo hv).2⟩, hYv, hvr⟩, fun e => ?_⟩
      have := hown e
      have := hother e
      simp only [resetLeft_node, entries_node, entries_setParent, List.mem_append, hYent]
      grind
  | true =>
      simp only [if_true] at hYent hother ⊢
      refine ⟨⟨hmask, hml, hfl, hfit, fun hv => ⟨(htwo hv).1, hYne hv⟩, hvl, hYv⟩, fun e => ?_⟩
      have := hown e
      have := hother e
      simp only [resetRight_node, entries_node, entries_setParent, List.mem_append, hYent]
      grind

/-- Replacing, in the node at `pk` of a valid tree, its child at `ck` by a valid
subtree `Y` below that child keeps the tree valid, provided the node holds a
value if `Y` is null; the tree loses the bindings of the child that `Y` does not
hold. This is the write every non root case of `eraseNode` makes. -/
theorem replaceChild_spec {root : RadixTreeNode w α} (h : Valid root) {pk ck : BitVec w × Nat}
    (hpk : pk ∈ root.keys)
    (hside : (if (root.findNode (some pk)).left.key? = some ck then (root.findNode (some pk)).left
      else (root.findNode (some pk)).right) = root.findNode (some ck))
    {Y : RadixTreeNode w α} (hY : Valid Y)
    (hYcov : Y ≠ nil → ∃ k ∈ (root.findNode (some ck)).keys, Covers k.1 k.2 Y.ipAddress Y.masklen)
    (hYtwo : Y = nil → (root.findNode (some pk)).isValueNode = true)
    {Q : (BitVec w × Nat) × α → Prop} (hQ : ∀ e, Q e → e.1 ∈ (root.findNode (some ck)).keys)
    (hYent : ∀ e, e ∈ Y.entries ↔ e ∈ (root.findNode (some ck)).entries ∧ ¬ Q e) :
    Valid (root.modifyNode (some pk) fun g =>
        if (root.findNode (some pk)).left.key? = some ck then g.resetLeft Y else g.resetRight Y) ∧
      (root.modifyNode (some pk) fun g =>
        if (root.findNode (some pk)).left.key? = some ck then g.resetLeft Y
        else g.resetRight Y).parent = root.parent ∧
      ∀ e, e ∈ (root.modifyNode (some pk) fun g =>
        if (root.findNode (some pk)).left.key? = some ck then g.resetLeft Y
        else g.resetRight Y).entries ↔ e ∈ root.entries ∧ ¬ Q e := by
  have hpkey : (root.findNode (some pk)).key? = some pk := key?_findNode_of_mem hpk
  have hP : Valid (root.findNode (some pk)) := h.findNode _
  generalize hfdef : (fun g : RadixTreeNode w α =>
    if (root.findNode (some pk)).left.key? = some ck then g.resetLeft Y else g.resetRight Y) = f
  -- the parent with the child replaced stays valid and loses the bindings `Q`
  have hf : (Valid (f (root.findNode (some pk))) ∧
        (f (root.findNode (some pk))).key? = some pk ∧
        (f (root.findNode (some pk))).parent = (root.findNode (some pk)).parent) ∧
      ∀ e, e ∈ (f (root.findNode (some pk))).entries ↔
        (e ∈ (root.findNode (some pk)).entries ∧ ¬ Q e) ∨ False := by
    rw [← hfdef]
    dsimp only
    generalize root.findNode (some ck) = C at hside hYcov hQ hYent
    cases hPn : root.findNode (some pk) with
    | nil => rw [hPn] at hpkey; simp at hpkey
    | node pip pml pv pp pl pr =>
      rw [hPn] at hside hpkey hYtwo hP
      by_cases hl : (node pip pml pv pp pl pr).left.key? = some ck
      · -- the left child is replaced
        rw [if_pos hl] at hside ⊢
        subst hside
        have hside := replaceSide_spec hP false hY hYcov hYtwo hQ hYent
        simp only [Bool.false_eq_true, if_false] at hside
        exact ⟨⟨hside.1, by simpa using hpkey, rfl⟩, fun e => by rw [hside.2 e, or_false]⟩
      · rw [if_neg hl] at hside ⊢
        subst hside
        have hside := replaceSide_spec hP true hY hYcov hYtwo hQ hYent
        simp only [if_true] at hside
        exact ⟨⟨hside.1, by simpa using hpkey, rfl⟩, fun e => by rw [hside.2 e, or_false]⟩
  obtain ⟨hvalid, -, hpar⟩ := h.modifyNode hpk hf.1
  refine ⟨hvalid, hpar, fun e => ?_⟩
  -- what `Q` removes lies below the replaced child, so below its parent
  have hQ' : ∀ e, Q e → e.1 ∈ (root.findNode (some pk)).keys := by
    intro e hq
    have hmem := hQ e hq
    rw [← hside] at hmem
    exact mem_keys_of_mem_child hmem
  rw [h.mem_entries_modifyNode hpk hQ' hf.2 e, or_false]

/-- The bindings below a valid node are its children's and its own. -/
theorem mem_entries_children {ip : BitVec w} {ml : Nat} {v : Option α}
    {pp : Option (BitVec w × Nat)} {l r : RadixTreeNode w α} (hD : Valid (node ip ml v pp l r))
    (e : (BitVec w × Nat) × α) :
    e ∈ l.entries ∨ e ∈ r.entries ↔ e ∈ (node ip ml v pp l r).entries ∧ e.1 ≠ (ip, ml) := by
  have hl : e ∈ l.entries → e.1 ≠ (ip, ml) := fun he heq =>
    hD.self_not_mem_left (heq ▸ mem_keys_of_mem_entries he)
  have hr : e ∈ r.entries → e.1 ≠ (ip, ml) := fun he heq =>
    hD.self_not_mem_right (heq ▸ mem_keys_of_mem_entries he)
  have hown : e ∈ (v.map fun y => ((ip, ml), y)).toList → e.1 = (ip, ml) := by
    cases v <;> simp_all
  simp only [entries_node, List.mem_append]
  grind

/-- `root'` is a valid tree with a null root parent link holding the bindings of
`root` other than those at `k`: what erasing the value node at `k` must give. -/
def ErasedAt (root root' : RadixTreeNode w α) (k : BitVec w × Nat) : Prop :=
  Valid root' ∧ root'.parent = none ∧ ∀ e, e ∈ root'.entries ↔ e ∈ root.entries ∧ e.1 ≠ k

/-- Erasing the root: it becomes a non value node if it has two children, its
only child takes its place, or the tree is emptied. -/
theorem eraseNode_root_spec {t : RadixTree w α} (h : Valid t.root) (hroot : t.root.parent = none)
    {ip : BitVec w} {ml : Nat} {v : Option α} {l r : RadixTreeNode w α}
    (ht : t.root = node ip ml v none l r) :
    ErasedAt t.root (t.eraseNode t.root).1.root (ip, ml) := by
  obtain ⟨root, size⟩ := t
  simp only at ht h hroot
  subst ht
  have hent := mem_entries_children h
  simp only [eraseNode, ErasedAt]
  cases l with
  | nil =>
      cases r with
      | nil =>
          -- the only node of the tree
          simp only [isNil_nil, Bool.not_true, Bool.and_self, Bool.or_self, Bool.false_eq_true,
            if_false]
          refine ⟨trivial, rfl, fun e => ?_⟩
          rw [← hent e]
          simp
      | node cip cml cv cp cl cr =>
          -- the right child becomes the root
          simp only [isNil_nil, isNil_node, Bool.not_true, Bool.not_false, Bool.false_and,
            Bool.false_or, Bool.false_eq_true, if_false, if_true]
          refine ⟨(valid_setParent _ _).mpr h.right, rfl, fun e => ?_⟩
          rw [entries_setParent, ← hent e]
          simp
  | node cip cml cv cp cl cr =>
      cases r with
      | nil =>
          simp only [isNil_nil, isNil_node, Bool.not_true, Bool.not_false, Bool.and_false,
            Bool.or_false, Bool.false_eq_true, if_false, if_true]
          refine ⟨(valid_setParent _ _).mpr h.left, rfl, fun e => ?_⟩
          rw [entries_setParent, ← hent e]
          simp
      | node dip dml dv dp dl dr =>
          -- both children stay, under a non value root
          simp only [isNil_node, Bool.not_false, Bool.and_self, if_true,
            modifyNode_node_self, makeNonValueNode_node]
          obtain ⟨hmask, hml, hfl, hfr, -, hvl, hvr⟩ := h
          refine ⟨⟨hmask, hml, hfl, hfr, fun _ => ⟨by simp, by simp⟩, hvl, hvr⟩, rfl, fun e => ?_⟩
          rw [← hent e, entries_node]
          simp only [Option.map_none, Option.toList_none, List.nil_append, List.mem_append]

/-- The sibling of a leaf `D` under a valid non value node `P`, as `eraseNode`
picks it after unlinking `D`, can take `P`'s place: it is a valid subtree below
`P` that holds `P`'s bindings except `D`'s. -/
theorem sibling_spec {P D : RadixTreeNode w α} {pip : BitVec w} {pml : Nat}
    {pp : Option (BitVec w × Nat)} {pl pr : RadixTreeNode w α}
    (hPn : P = node pip pml none pp pl pr) (hP : Valid P) {k : BitVec w × Nat}
    (hside : (if P.left.key? = some k then P.left else P.right) = D) (hDkey : D.key? = some k)
    (hDleaf : D.left = nil ∧ D.right = nil) :
    (if !(if P.left.key? = some k then P.resetLeft nil else P.resetRight nil).left.isNil then
        (if P.left.key? = some k then P.resetLeft nil else P.resetRight nil).left
      else (if P.left.key? = some k then P.resetLeft nil else P.resetRight nil).right) =
        (if P.left.key? = some k then P.right else P.left) ∧
      (if P.left.key? = some k then P.right else P.left) ≠ nil ∧
      Valid (if P.left.key? = some k then P.right else P.left) ∧
      Covers pip pml (if P.left.key? = some k then P.right else P.left).ipAddress
        (if P.left.key? = some k then P.right else P.left).masklen ∧
      ∀ e, e ∈ (if P.left.key? = some k then P.right else P.left).entries ↔
        e ∈ P.entries ∧ e.1 ≠ k := by
  subst hPn
  obtain ⟨hl, hr⟩ := hP.2.2.2.2.1 rfl
  -- `D` is a leaf: its only binding is at `k`
  have hDent : ∀ e ∈ D.entries, e.1 = k := by
    intro e he
    cases D with
    | nil => simp at hDkey
    | node dip dml dv dp dl dr =>
        simp only [left_node, right_node] at hDleaf
        obtain ⟨rfl, rfl⟩ := hDleaf
        cases hDkey
        cases dv <;> simp_all
  by_cases hlk : (node pip pml none pp pl pr).left.key? = some k
  · -- `D` is the left child: the right one stays
    rw [if_pos hlk] at hside ⊢
    rw [if_pos hlk]
    simp only [left_node] at hside hlk
    subst hside
    have hkl : k ∈ pl.keys := mem_keys_of_key? hlk
    simp only [resetLeft_node, left_node, right_node, setParent_nil, isNil_nil,
      Bool.not_true, Bool.false_eq_true, if_false]
    refine ⟨trivial, hr, hP.right, ?_, fun e => ?_⟩
    · cases pr with
      | nil => exact absurd rfl hr
      | node cip cml cv cp cl cr => exact (hP.keys_right (cip, cml) (by simp)).covers
    · simp only [entries_node, Option.map_none, Option.toList_none, List.nil_append,
        List.mem_append]
      have hne : e ∈ pr.entries → e.1 ≠ k := fun he heq =>
        hP.not_mem_left_of_mem_right (heq ▸ mem_keys_of_mem_entries he) hkl
      have := hDent e
      grind
  · rw [if_neg hlk] at hside ⊢
    rw [if_neg hlk]
    simp only [left_node] at hlk
    simp only [right_node] at hside
    subst hside
    have hkr : k ∈ pr.keys := mem_keys_of_key? hDkey
    have hlnil : pl.isNil = false := by cases pl <;> simp_all
    simp only [resetRight_node, left_node, hlnil, Bool.not_false, if_true]
    refine ⟨trivial, hl, hP.left, ?_, fun e => ?_⟩
    · cases pl with
      | nil => exact absurd rfl hl
      | node cip cml cv cp cl cr => exact (hP.keys_left (cip, cml) (by simp)).covers
    · simp only [entries_node, Option.map_none, Option.toList_none, List.nil_append,
        List.mem_append]
      have hne : e ∈ pl.entries → e.1 ≠ k := fun he heq =>
        hP.not_mem_left_of_mem_right hkr (heq ▸ mem_keys_of_mem_entries he)
      have := hDent e
      grind

/-- Erasing a value node below the root, reached through its parent `pk`. -/
theorem eraseNode_child_spec {t : RadixTree w α} (h : Valid t.root) (hroot : t.root.parent = none)
    {ip : BitVec w} {ml : Nat} {v : Option α} {pk : BitVec w × Nat} {l r : RadixTreeNode w α}
    (hD : t.root.findNode (some (ip, ml)) = node ip ml v (some pk) l r)
    (hpk : pk ∈ t.root.keys)
    (hside : (if (t.root.findNode (some pk)).left.key? = some (ip, ml) then
        (t.root.findNode (some pk)).left else (t.root.findNode (some pk)).right) =
      t.root.findNode (some (ip, ml))) :
    ErasedAt t.root (t.eraseNode (node ip ml v (some pk) l r)).1.root (ip, ml) := by
  have hk : (ip, ml) ∈ t.root.keys := by
    have hsub := keys_findNode_subset (some (ip, ml)) t.root (ip, ml)
    rw [hD] at hsub
    exact hsub (by simp)
  have hDv : Valid (node ip ml v (some pk) l r) := hD ▸ h.findNode _
  have hent := mem_entries_children hDv
  -- what goes: the bindings at the erased key, all below the erased node
  have hQ : ∀ e : (BitVec w × Nat) × α, e.1 = (ip, ml) →
      e.1 ∈ (t.root.findNode (some (ip, ml))).keys := fun e he => by rw [hD, he]; simp
  simp only [eraseNode, ErasedAt]
  cases l with
  | nil =>
      cases r with
      | nil =>
          -- a leaf: its parent loses it
          simp only [isNil_nil, Bool.not_true, Bool.and_self, Bool.or_self, Bool.false_eq_true,
            if_false]
          have hleaf : ∀ e, e ∈ (nil : RadixTreeNode w α).entries ↔
              e ∈ (t.root.findNode (some (ip, ml))).entries ∧ ¬ e.1 = (ip, ml) := by
            intro e
            rw [hD, ← hent e]
            simp
          have hPv : Valid (t.root.findNode (some pk)) := h.findNode _
          have hval : (if (t.root.findNode (some pk)).left.key? = some (ip, ml) then
              (t.root.findNode (some pk)).resetLeft nil
              else (t.root.findNode (some pk)).resetRight nil).isValueNode =
              (t.root.findNode (some pk)).isValueNode := by
            split <;> simp
          have hppar : (if (t.root.findNode (some pk)).left.key? = some (ip, ml) then
              (t.root.findNode (some pk)).resetLeft nil
              else (t.root.findNode (some pk)).resetRight nil).parent =
              (t.root.findNode (some pk)).parent := by
            split <;> simp
          rw [hval, hppar]
          by_cases hPval : (t.root.findNode (some pk)).isValueNode = true
          · -- a value parent keeps its place
            rw [if_pos hPval]
            rw [h.modifyNode_congr (g := fun g =>
              if (t.root.findNode (some pk)).left.key? = some (ip, ml) then g.resetLeft nil
              else g.resetRight nil) rfl]
            obtain ⟨hvalid, hpar, hent'⟩ := replaceChild_spec h hpk hside valid_nil
              (fun hne => absurd rfl hne) (fun _ => hPval) hQ hleaf
            exact ⟨hvalid, hpar.trans hroot, hent'⟩
          · -- a non value parent goes too, and its other child takes its place
            rw [if_neg hPval]
            obtain ⟨pip, pml, pp, pl, pr, hPn⟩ : ∃ pip pml pp pl pr,
                t.root.findNode (some pk) = node pip pml none pp pl pr := by
              cases hPn : t.root.findNode (some pk) with
              | nil =>
                  have := key?_findNode_of_mem hpk
                  rw [hPn] at this
                  simp at this
              | node pip pml pv pp pl pr =>
                  rw [hPn] at hPval
                  cases pv with
                  | none => exact ⟨pip, pml, pp, pl, pr, rfl⟩
                  | some _ => simp at hPval
            obtain ⟨hsib, hSne, hSv, hScov, hSent⟩ :=
              sibling_spec hPn hPv hside (by rw [hD]) (by rw [hD]; simp)
            rw [hsib]
            have hPk : (ip, ml) ∈ (t.root.findNode (some pk)).keys := by
              have hmem : (ip, ml) ∈ (t.root.findNode (some (ip, ml))).keys := by
                rw [hD]
                simp
              rw [← hside] at hmem
              exact mem_keys_of_mem_child hmem
            rcases h.findNode_parent hroot hpk with ⟨hPpar, hProot⟩ | ⟨gk, hPpar, hgk, hgside⟩
            · -- the parent was the root: the sibling becomes the root
              rw [hPpar]
              dsimp only
              refine ⟨(valid_setParent _ _).mpr hSv, parent_setParent_none _, fun e => ?_⟩
              rw [entries_setParent, hSent, findNode_self hProot]
            · rw [hPpar]
              dsimp only
              obtain ⟨hvalid, hpar, hent'⟩ := replaceChild_spec h hgk hgside hSv
                (fun _ => ⟨(pip, pml), by rw [hPn]; simp, hScov⟩)
                (fun hS => absurd hS hSne) (fun e he => by rw [he]; exact hPk) hSent
              exact ⟨hvalid, hpar.trans hroot, hent'⟩
      | node cip cml cv cp cl cr =>
          -- the only child, on the right, is adopted by the parent
          simp only [isNil_nil, isNil_node, Bool.not_true, Bool.not_false, Bool.false_and,
            Bool.false_or, Bool.false_eq_true, if_false, if_true]
          obtain ⟨hvalid, hpar, hent'⟩ := replaceChild_spec h hpk hside hDv.right
            (fun _ => ⟨(ip, ml), by rw [hD]; simp, (hDv.keys_right (cip, cml) (by simp)).covers⟩)
            (fun hY => absurd hY (by simp)) hQ (fun e => by rw [hD, ← hent e]; simp)
          exact ⟨hvalid, hpar.trans hroot, hent'⟩
  | node cip cml cv cp cl cr =>
      cases r with
      | nil =>
          simp only [isNil_nil, isNil_node, Bool.not_true, Bool.not_false, Bool.and_false,
            Bool.or_false, Bool.false_eq_true, if_false, if_true]
          obtain ⟨hvalid, hpar, hent'⟩ := replaceChild_spec h hpk hside hDv.left
            (fun _ => ⟨(ip, ml), by rw [hD]; simp, (hDv.keys_left (cip, cml) (by simp)).covers⟩)
            (fun hY => absurd hY (by simp)) hQ (fun e => by rw [hD, ← hent e]; simp)
          exact ⟨hvalid, hpar.trans hroot, hent'⟩
      | node dip dml dv dp dl dr =>
          -- two children: the node stays, without its value
          simp only [isNil_node, Bool.not_false, Bool.and_self, if_true]
          have hf : Valid (makeNonValueNode (t.root.findNode (some (ip, ml)))) ∧
              (makeNonValueNode (t.root.findNode (some (ip, ml)))).key? = some (ip, ml) ∧
              (makeNonValueNode (t.root.findNode (some (ip, ml)))).parent =
                (t.root.findNode (some (ip, ml))).parent := by
            rw [hD]
            obtain ⟨hmask, hml, hfl, hfr, -, hvl, hvr⟩ := hDv
            exact ⟨⟨hmask, hml, hfl, hfr, fun _ => ⟨by simp, by simp⟩, hvl, hvr⟩, rfl, rfl⟩
          obtain ⟨hvalid, -, hpar⟩ := h.modifyNode hk hf
          refine ⟨hvalid, hpar.trans hroot, fun e => ?_⟩
          have hfe : ∀ e, e ∈ (makeNonValueNode (t.root.findNode (some (ip, ml)))).entries ↔
              (e ∈ (t.root.findNode (some (ip, ml))).entries ∧ ¬ e.1 = (ip, ml)) ∨ False := by
            intro e
            rw [hD, makeNonValueNode_node, or_false, ← hent e, entries_node]
            simp only [Option.map_none, Option.toList_none, List.nil_append, List.mem_append]
          rw [h.mem_entries_modifyNode hk hQ hfe e, or_false]

/-- Erasing the value node at `k` of a valid tree with a null root parent: the
tree loses exactly the binding at `k`, the counter goes down by one, and the
result is `true`. -/
theorem eraseNode_findNode_spec {t : RadixTree w α} (h : Valid t.root)
    (hroot : t.root.parent = none) {k : BitVec w × Nat}
    (hv : (t.root.findNode (some k)).isValueNode = true) :
    ErasedAt t.root (t.eraseNode (t.root.findNode (some k))).1.root k ∧
      (t.eraseNode (t.root.findNode (some k))).1.size = t.size - 1 ∧
      (t.eraseNode (t.root.findNode (some k))).2 = true := by
  have hk : k ∈ t.root.keys := by
    refine Classical.byContradiction fun hk => ?_
    rw [findNode_eq_nil_of_not_mem hk] at hv
    simp at hv
  have hkey := key?_findNode_of_mem hk
  have hpar := h.findNode_parent hroot hk
  cases hD : t.root.findNode (some k) with
  | nil => rw [hD] at hkey; simp at hkey
  | node ip ml v pp l r =>
    rw [hD] at hkey
    simp only [Option.some.injEq] at hkey
    subst hkey
    refine ⟨?_, rfl, rfl⟩
    rcases hpar with ⟨hpnone, hrootk⟩ | ⟨pk, hpsome, hpk, hside⟩
    · -- the node is the root
      rw [hD] at hpnone
      simp only [parent_node] at hpnone
      subst hpnone
      have ht : t.root = node ip ml v none l r := by rw [← findNode_self hrootk, hD]
      have he : t.eraseNode t.root = t.eraseNode (node ip ml v none l r) := by rw [ht]
      rw [← he]
      exact eraseNode_root_spec h hroot ht
    · rw [hD] at hpsome
      simp only [parent_node] at hpsome
      subst hpsome
      exact eraseNode_child_spec h hroot hD hpk hside

/-- Erasing the value node at `k` of a well formed tree: the tree stays well
formed and loses exactly the binding at `k`. -/
theorem WellFormed.eraseNode_findNode {t : RadixTree w α} (h : t.WellFormed) {k : BitVec w × Nat}
    (hv : (t.root.findNode (some k)).isValueNode = true) :
    (t.eraseNode (t.root.findNode (some k))).1.WellFormed ∧
      ∀ e, e ∈ (t.eraseNode (t.root.findNode (some k))).1.root.entries ↔
        e ∈ t.root.entries ∧ e.1 ≠ k := by
  obtain ⟨⟨hvalid, hpar, hent⟩, hsize, -⟩ := eraseNode_findNode_spec h.valid h.root_parent hv
  refine ⟨⟨hvalid, hpar, ?_⟩, hent⟩
  -- one binding fewer
  obtain ⟨x, hx⟩ : ∃ x, (t.root.findNode (some k)).value = some x := by
    simpa [isValueNode, Option.isSome_iff_exists] using hv
  have hlen := AssocList.length_of_mem_iff_and h.valid.nodup_entries_keys
    hvalid.nodup_entries ((h.valid.mem_entries_iff k x).mpr hx) hent
  rw [hsize, h.size_eq, hlen]
  rfl

/-- `erase` on a well formed tree: the tree stays well formed, it loses the
binding of the masked prefix if there is one and nothing else, and the result
tells whether there was one. -/
theorem erase_spec {t : RadixTree w α} (h : t.WellFormed) (ipaddr : BitVec w) (masklen : Nat) :
    (t.erase ipaddr masklen).1.WellFormed ∧
      (∀ e, e ∈ (t.erase ipaddr masklen).1.root.entries ↔
        e ∈ t.root.entries ∧ e.1 ≠ (IPAddress.mask ipaddr masklen, masklen)) ∧
      (t.erase ipaddr masklen).2 =
        (t.root.findNode (some (IPAddress.mask ipaddr masklen, masklen))).isValueNode := by
  simp only [erase, exactMatch_eq h.valid]
  generalize (IPAddress.mask ipaddr masklen, masklen) = k
  by_cases hv : (t.root.findNode (some k)).isValueNode = true
  · rw [if_pos hv]
    obtain ⟨hwf, hent⟩ := h.eraseNode_findNode hv
    exact ⟨hwf, hent, by rw [(eraseNode_findNode_spec h.valid h.root_parent hv).2.2, hv]⟩
  · rw [if_neg hv]
    have hnone : ∀ e ∈ t.root.entries, e.1 ≠ k := by
      rintro ⟨ek, ex⟩ he rfl
      have hfx := (h.valid.mem_entries_iff ek ex).mp he
      simp [isValueNode, hfx] at hv
    refine ⟨h, fun e => ⟨fun he => ⟨he, hnone e he⟩, fun he => he.1⟩, ?_⟩
    simp only [eraseNode]
    cases hb : (t.root.findNode (some k)).isValueNode
    · rfl
    · exact absurd hb hv

end RadixTree

end Fboss