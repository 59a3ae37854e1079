import Fboss.RadixTree.Search
import Fboss.Lib.AssocList

/-!
# Insertion

`insert` asks the lookup for the deepest node covering the new prefix, non
value nodes included. If that node holds the prefix, the value is kept or a non
value node receives it. Otherwise `linkNewNode` links a fresh value node: at the
root when no node covers the prefix, else in the branch of the deepest covering
node that the prefix's next bit selects, where the child found there is either
left alone (a free slot), hung below the new node, or joined with it under a
fresh non value node at their longest common prefix.

Each structural case is shown to keep the tree valid and to add exactly the
new binding. `relink_spec` does so once for the write into the deepest
covering node; the cases differ only in the subtree they install.
-/

namespace Fboss

namespace RadixTree

open BitPrefix ListSelect RadixTreeNode

variable {w : Nat} {α : Type}

section Link

variable {q : BitVec w} {len : Nat}

theorem valid_makeNode (hq : maskMsb q len = q) (hlen : len ≤ w) (x : α) :
    Valid (makeNode q len (some x) : RadixTreeNode w α) :=
  ⟨hq, hlen, trivial, trivial, by simp, trivial, trivial⟩

/-- A fresh non value node over two subtrees that lie in its two branches. -/
theorem valid_join {p : BitVec w} {l : Nat} {A B : RadixTreeNode w α} (hp : maskMsb p l = p)
    (hl : l ≤ w) (hA : Valid A) (hB : Valid B) (hAne : A ≠ nil) (hBne : B ≠ nil)
    (hAin : InBranch p l false A.ipAddress A.masklen)
    (hBin : InBranch p l true B.ipAddress B.masklen) (par : Option (BitVec w × Nat)) :
    Valid (node p l none par (A.setParent (some (p, l))) (B.setParent (some (p, l)))) := by
  refine ⟨hp, hl, fitsBelow_setParent fun _ => hAin, fitsBelow_setParent fun _ => hBin,
    fun _ => ⟨?_, ?_⟩, (valid_setParent _ A).mpr hA, (valid_setParent _ B).mpr hB⟩
  · cases A <;> simp_all
  · cases B <;> simp_all

/-- Installing the subtree `X` on side `b` of the node `d` of a valid tree, in
place of the child there, keeps the tree valid; the tree gains the bindings `X`
holds beyond those of the child it replaces. -/
theorem relink_spec {root : RadixTreeNode w α} (h : Valid root) {dip : BitVec w} {dml : Nat}
    {dv : Option α} {dp : Option (BitVec w × Nat)} {dl dr : RadixTreeNode w α}
    (hfind : root.findNode (some (dip, dml)) = node dip dml dv dp dl dr) (b : Bool)
    {X : RadixTreeNode w α} (hX : Valid X) (hXne : X ≠ nil)
    (hin : InBranch dip dml b X.ipAddress X.masklen) {P : (BitVec w × Nat) × α → Prop}
    (hent : ∀ e, e ∈ X.entries ↔ e ∈ (if b then dr else dl).entries ∨ P e) :
    Valid (root.modifyNode (some (dip, dml)) fun n =>
        if (if b then TreeDirection.right else .left) = .left then n.resetLeft X
        else n.resetRight X) ∧
      (root.modifyNode (some (dip, dml)) fun n =>
        if (if b then TreeDirection.right else .left) = .left then n.resetLeft X
        else n.resetRight X).parent = root.parent ∧
      ∀ e, e ∈ (root.modifyNode (some (dip, dml)) fun n =>
        if (if b then TreeDirection.right else .left) = .left then n.resetLeft X
        else n.resetRight X).entries ↔ e ∈ root.entries ∨ P e := by
  have hk : (dip, dml) ∈ root.keys := by
    have hsub := keys_findNode_subset (some (dip, dml)) root (dip, dml)
    rw [hfind] at hsub
    exact hsub (by simp)
  have hd : Valid (node dip dml dv dp dl dr) := hfind ▸ h.findNode _
  obtain ⟨hmask, hml, hfl, hfr, htwo, hvl, hvr⟩ := hd
  have hfit : FitsBelow dip dml b (X.setParent (some (dip, dml))) := fitsBelow_setParent fun _ => hin
  have hXne' : X.setParent (some (dip, dml)) ≠ nil := by cases X <;> simp_all
  have hXv : Valid (X.setParent (some (dip, dml))) := (valid_setParent _ X).mpr hX
  generalize hfdef : (fun n : RadixTreeNode w α =>
    if (if b then TreeDirection.right else .left) = .left then n.resetLeft X
    else n.resetRight X) = f
  -- the written node stays valid, keeps its key and parent, and gains `P`
  have hf : (Valid (f (root.findNode (some (dip, dml)))) ∧
        (f (root.findNode (some (dip, dml)))).key? = some (dip, dml) ∧
        (f (root.findNode (some (dip, dml)))).parent = (root.findNode (some (dip, dml))).parent) ∧
      ∀ e, e ∈ (f (root.findNode (some (dip, dml)))).entries ↔
        (e ∈ (root.findNode (some (dip, dml))).entries ∧ ¬ False) ∨ P e := by
    rw [hfind, ← hfdef]
    cases b with
    | false =>
        simp only [Bool.false_eq_true, if_false, if_true, resetLeft_node]
        refine ⟨⟨⟨hmask, hml, hfit, hfr, fun hv => ⟨hXne', (htwo hv).2⟩, hXv, hvr⟩, by simp, rfl⟩, ?_⟩
        intro e
        simp only [entries_node, List.mem_append, entries_setParent, hent, if_false,
          Bool.false_eq_true, not_false_eq_true, and_true]
        grind
    | true =>
        simp only [if_true, reduceCtorEq, if_false, resetRight_node]
        refine ⟨⟨⟨hmask, hml, hfl, hfit, fun hv => ⟨(htwo hv).1, hXne'⟩, hvl, hXv⟩, by simp, rfl⟩, ?_⟩
        intro e
        simp only [entries_node, List.mem_append, entries_setParent, hent, if_true,
          not_false_eq_true, and_true]
        grind
  obtain ⟨hvalid, -, hpar⟩ := h.modifyNode hk hf.1
  refine ⟨hvalid, hpar, fun e => ?_⟩
  rw [h.mem_entries_modifyNode hk (fun _ hq => hq.elim) hf.2 e]
  simp

/-- `linkNewNode` below the deepest node `d` covering the new prefix: the new
node goes into the branch of `d` its next bit selects. -/
theorem linkNewNode_node_spec {t : RadixTree w α} (h : Valid t.root) (hq : maskMsb q len = q)
    (hlen : len ≤ w) (hnot : (q, len) ∉ t.root.keys) {d : RadixTreeNode w α} (hd : d ≠ nil)
    (hfind : t.root.findNode d.key? = d) (hcov : Covers d.ipAddress d.masklen q len)
    (hdeep : ∀ k ∈ t.root.keys, Covers k.1 k.2 q len → k.2 ≤ d.masklen) (x : α) :
    Valid (t.linkNewNode q len (makeNode q len (some x)) d).root ∧
      (t.linkNewNode q len (makeNode q len (some x)) d).root.parent = t.root.parent ∧
      ∀ e, e ∈ (t.linkNewNode q len (makeNode q len (some x)) d).root.entries ↔
        e ∈ t.root.entries ∨ e = ((q, len), x) := by
  cases d with
  | nil => exact absurd rfl hd
  | node dip dml dv dp dl dr =>
    simp only [ipAddress_node, masklen_node] at hfind hcov hdeep
    have hdk : (dip, dml) ∈ t.root.keys := by
      have hsub := keys_findNode_subset (some (dip, dml)) t.root (dip, dml)
      rw [hfind] at hsub
      exact hsub (by simp)
    have hdv : Valid (node dip dml dv dp dl dr) := hfind ▸ h.findNode _
    -- `d` does not hold the new prefix, so it is strictly shorter
    have hdlt : dml < len := by
      refine Nat.lt_of_le_of_ne hcov.1 fun heq => hnot ?_
      obtain ⟨hip, -⟩ := hcov.eq_of_le hq (by omega)
      rw [← hip, ← heq]
      exact hdk
    have hqin : InBranch dip dml (q.getMsbD dml) q len := hcov.inBranch hdlt
    simp only [linkNewNode, searchDirection_of_inBranch hqin]
    -- the child found on the new prefix's side
    generalize hb : q.getMsbD dml = b at hqin
    have hside : (if (if b then TreeDirection.right else .left) = .left then dl else dr) =
        (if b then dr else dl) := by
      cases b <;> rfl
    have hcv : Valid (if b then dr else dl) := by
      cases b
      · exact hdv.left
      · exact hdv.right
    have hcfit : FitsBelow dip dml b (if b then dr else dl) := by
      cases b
      · exact hdv.2.2.1
      · exact hdv.2.2.2.1
    have hckeys : ∀ k ∈ (if b then dr else dl).keys, k ∈ t.root.keys := by
      intro k hk
      refine keys_findNode_subset (some (dip, dml)) t.root k ?_
      rw [hfind]
      cases b <;> simp_all
    have hrel := fun X => relink_spec h hfind b (X := X)
    rw [hside]
    generalize (if b then dr else dl) = c at hcv hcfit hckeys hrel ⊢
    cases c with
    | nil =>
        -- a free slot: the new node becomes a leaf
        exact hrel _ (valid_makeNode hq hlen x) (by simp [makeNode]) hqin (by simp [makeNode])
    | node cip cml cv cp cl cr =>
        obtain ⟨hcin, -⟩ := hcfit
        have hcmask : maskMsb cip cml = cip := hcv.1
        -- the child is deeper than `d`, so it does not cover the new prefix
        have hncov : ¬ Covers cip cml q len := fun hc =>
          Nat.lt_irrefl _ (Nat.lt_of_lt_of_le hcin.1 (hdeep (cip, cml) (hckeys (cip, cml) (by simp)) hc))
        have hcv' : Valid (node cip cml cv (some (dip, dml)) cl cr) := hcv
        simp only [IPAddress.longestCommonPrefix_eq, makeNode]
        rcases commonPrefix_cases hcmask hq hncov with ⟨hpfx, hqc⟩ | ⟨hpfx, hcb, hqb, hne⟩
        · -- the new node goes between `d` and the child
          have hcond : ¬ ((commonPrefix cip cml q len).1 ≠ q ∨ (commonPrefix cip cml q len).2 ≠ len) := by
            simp [hpfx]
          simp only [if_neg hcond, searchDirection_of_inBranch hqc]
          cases hcbit : cip.getMsbD len
          · simp only [hcbit] at hqc
            refine hrel _ ?_ (by simp) (by simpa using hqin) ?_
            · exact ⟨hq, hlen, fitsBelow_setParent fun _ => hqc, trivial, by simp,
                (valid_setParent _ _).mpr hcv', trivial⟩
            · intro e
              simp only [resetLeft_node, entries_node, entries_setParent, List.mem_append]
              simp
              grind
          · simp only [hcbit] at hqc
            refine hrel _ ?_ (by simp) (by simpa using hqin) ?_
            · exact ⟨hq, hlen, trivial, fitsBelow_setParent fun _ => hqc, by simp, trivial,
                (valid_setParent _ _).mpr hcv'⟩
            · intro e
              simp only [resetRight_node, entries_node, entries_setParent, List.mem_append]
              simp
              grind
        · -- a fresh non value node at the common prefix takes both
          have hpin : InBranch dip dml b (commonPrefix cip cml q len).1
              (commonPrefix cip cml q len).2 := hcin.inBranch_commonPrefix hqin
          have hpmask := hqb.covers.maskMsb_eq
          have hplen : (commonPrefix cip cml q len).2 ≤ w := by
            have := hqb.1
            omega
          have hcond : (commonPrefix cip cml q len).1 ≠ q ∨ (commonPrefix cip cml q len).2 ≠ len := by
            by_cases h1 : (commonPrefix cip cml q len).1 = q
            · exact Or.inr fun h2 => hpfx (Prod.ext h1 h2)
            · exact Or.inl h1
          simp only [if_pos hcond, searchDirection_of_inBranch hqb]
          cases hqbit : q.getMsbD (commonPrefix cip cml q len).2
          · have hcbit : cip.getMsbD (commonPrefix cip cml q len).2 = true := by
              rw [hqbit] at hne
              simpa using hne
            rw [hqbit] at hqb
            rw [hcbit] at hcb
            refine hrel _ (valid_join hpmask hplen (valid_makeNode hq hlen x) hcv' (by simp [makeNode])
              (by simp) hqb hcb none) (by simp) (by simpa using hpin) ?_
            intro e
            simp only [entries_node, entries_setParent, List.mem_append, makeNode]
            simp
            grind
          · have hcbit : cip.getMsbD (commonPrefix cip cml q len).2 = false := by
              rw [hqbit] at hne
              simpa using hne
            rw [hqbit] at hqb
            rw [hcbit] at hcb
            refine hrel _ (valid_join hpmask hplen hcv' (valid_makeNode hq hlen x) (by simp)
              (by simp [makeNode]) hcb hqb none) (by simp) (by simpa using hpin) ?_
            intro e
            simp only [entries_node, entries_setParent, List.mem_append, makeNode]
            simp

/-- `linkNewNode` when no node covers the new prefix: the new node becomes the
root, over the old root or alone, or a fresh non value root at the common prefix
joins the two. -/
theorem linkNewNode_nil_spec {t : RadixTree w α} (h : Valid t.root) (hq : maskMsb q len = q)
    (hlen : len ≤ w) (hnone : ∀ k ∈ t.root.keys, ¬ Covers k.1 k.2 q len) (x : α) :
    Valid (t.linkNewNode q len (makeNode q len (some x)) nil).root ∧
      (t.linkNewNode q len (makeNode q len (some x)) nil).root.parent = none ∧
      ∀ e, e ∈ (t.linkNewNode q len (makeNode q len (some x)) nil).root.entries ↔
        e ∈ t.root.entries ∨ e = ((q, len), x) := by
  obtain ⟨root, size⟩ := t
  cases root with
  | nil =>
      simp only [linkNewNode, makeRoot_root, makeNode, setParent_node]
      exact ⟨valid_makeNode hq hlen x, rfl, fun e => by simp⟩
  | node rip rml rv rp rl rr =>
      have hR : Valid (node rip rml rv rp rl rr) := h
      have hrmask : maskMsb rip rml = rip := hR.1
      have hncov : ¬ Covers rip rml q len := hnone (rip, rml) (by simp)
      simp only [linkNewNode, IPAddress.longestCommonPrefix_eq, makeNode]
      rcases commonPrefix_cases hrmask hq hncov with ⟨hpfx, hqr⟩ | ⟨hpfx, hrb, hqb, hne⟩
      · -- the new node is the new root, over the old one
        have hcond : (commonPrefix rip rml q len).1 = q ∧ (commonPrefix rip rml q len).2 = len := by
          simp [hpfx]
        simp only [if_pos hcond, searchDirection_of_inBranch hqr]
        cases hrbit : rip.getMsbD len
        · rw [hrbit] at hqr
          simp only [resetLeft_node, setParent_node]
          refine ⟨⟨hq, hlen, ⟨hqr, rfl⟩, trivial, by simp, hR, trivial⟩, rfl, fun e => ?_⟩
          simp only [entries_node, List.mem_append]
          simp
          grind
        · rw [hrbit] at hqr
          simp only [resetRight_node, setParent_node]
          refine ⟨⟨hq, hlen, trivial, ⟨hqr, rfl⟩, by simp, trivial, hR⟩, rfl, fun e => ?_⟩
          simp only [entries_node, List.mem_append]
          simp
          grind
      · -- a fresh non value root at the common prefix, over the old root and the new node
        have hpmask := hqb.covers.maskMsb_eq
        have hplen : (commonPrefix rip rml q len).2 ≤ w := by
          have := hqb.1
          omega
        have hcond : ¬ ((commonPrefix rip rml q len).1 = q ∧ (commonPrefix rip rml q len).2 = len) :=
          fun hc => hpfx (Prod.ext hc.1 hc.2)
        simp only [if_neg hcond, searchDirection_of_inBranch hrb]
        cases hrbit : rip.getMsbD (commonPrefix rip rml q len).2
        · have hqbit : q.getMsbD (commonPrefix rip rml q len).2 = true := by
            rw [hrbit] at hne
            simpa using (Ne.symm hne)
          rw [hrbit] at hrb
          rw [hqbit] at hqb
          simp only [resetLeft_node, resetRight_node, setParent_node]
          refine ⟨valid_join hpmask hplen hR (valid_makeNode hq hlen x) (by simp) (by simp [makeNode])
            hrb hqb none, rfl, fun e => ?_⟩
          simp only [entries_node, List.mem_append]
          simp
          grind
        · have hqbit : q.getMsbD (commonPrefix rip rml q len).2 = false := by
            rw [hrbit] at hne
            simpa using (Ne.symm hne)
          rw [hrbit] at hrb
          rw [hqbit] at hqb
          simp only [resetLeft_node, resetRight_node, setParent_node]
          refine ⟨valid_join hpmask hplen (valid_makeNode hq hlen x) hR (by simp [makeNode]) (by simp)
            hqb hrb none, rfl, fun e => ?_⟩
          simp only [entries_node, List.mem_append]
          simp
          grind

end Link

/-! ### The lookup `insert` makes -/

/-- The lookup with non value nodes included: it reports an exact match iff the
prefix is a key of the tree, and then returns that node; otherwise it returns
the deepest covering node, or null when no node covers the prefix. -/
theorem longestMatchImpl_true_spec {t : RadixTree w α} (h : Valid t.root) {q : BitVec w}
    {len : Nat} (hq : maskMsb q len = q) :
    ((t.longestMatchImpl q len true).foundExact = true ↔ (q, len) ∈ t.root.keys) ∧
      ((t.longestMatchImpl q len true).foundExact = true →
        (t.longestMatchImpl q len true).node = t.root.findNode (some (q, len))) ∧
      (((t.longestMatchImpl q len true).node = nil ∧
          ∀ k ∈ t.root.keys, ¬ Covers k.1 k.2 q len) ∨
        ((t.longestMatchImpl q len true).node ≠ nil ∧
          t.root.findNode (t.longestMatchImpl q len true).node.key? =
            (t.longestMatchImpl q len true).node ∧
          Covers (t.longestMatchImpl q len true).node.ipAddress
            (t.longestMatchImpl q len true).node.masklen q len ∧
          ∀ k ∈ t.root.keys, Covers k.1 k.2 q len →
            k.2 ≤ (t.longestMatchImpl q len true).node.masklen)) := by
  rw [longestMatchImpl_eq]
  simp only [IPAddress.mask_eq, hq, pathResult, if_true, Bool.true_or, Bool.and_true]
  have hfe : (coverPath q len t.root).any (fun c => decide (c.key? = some (q, len))) = true ↔
      (q, len) ∈ t.root.keys := by
    rw [List.any_eq_true]
    simpa using h.exists_mem_coverPath_iff (k := (q, len)) (covers_refl hq) (fun _ => True)
  have hdeep := h.lastWhere_coverPath q len (fun _ => true)
  simp only [Bool.true_eq_false, imp_false, forall_const] at hdeep
  refine ⟨hfe, fun hfound => ?_, ?_⟩
  · -- the deepest covering node is at least as long as the key, so it is the key's node
    rcases hdeep with ⟨-, hnone⟩ | ⟨hne, hfind, -, hcov, hmax⟩
    · exact absurd (covers_refl hq) (hnone _ (hfe.mp hfound))
    · have hge := hmax _ (hfe.mp hfound) (covers_refl hq)
      obtain ⟨hip, hml⟩ := hcov.eq_of_le hq hge
      rw [← hfind, key?_of_ne_nil hne, hip, hml]
  · rcases hdeep with ⟨hnil, hnone⟩ | ⟨hne, hfind, -, hcov, hmax⟩
    · exact Or.inl ⟨hnil, fun k hk hcov => hnone k hk hcov⟩
    · exact Or.inr ⟨hne, hfind, hcov, hmax⟩

/-! ### Giving a value to a non value node -/

theorem valid_setValue {n : RadixTreeNode w α} (h : Valid n) (x : α) : Valid (n.setValue x) := by
  cases n with
  | nil => trivial
  | node ip ml v p l r =>
      obtain ⟨hmask, hml, hfl, hfr, -, hvl, hvr⟩ := h
      exact ⟨hmask, hml, hfl, hfr, by simp, hvl, hvr⟩

/-- A node given a value binds its own key to it, in place of its old value. -/
theorem mem_entries_setValue {n : RadixTreeNode w α} (h : Valid n) {k : BitVec w × Nat}
    (hk : n.key? = some k) (x : α) (e : (BitVec w × Nat) × α) :
    e ∈ (n.setValue x).entries ↔ (e ∈ n.entries ∧ e.1 ≠ k) ∨ e = (k, x) := by
  cases n with
  | nil => simp at hk
  | node ip ml v p l r =>
      cases hk
      have hl : e ∈ l.entries → e.1 ≠ (ip, ml) := fun he heq =>
        h.self_not_mem_left (heq ▸ mem_keys_of_mem_entries he)
      have hr : e ∈ r.entries → e.1 ≠ (ip, ml) := fun he heq =>
        h.self_not_mem_right (heq ▸ mem_keys_of_mem_entries he)
      cases v <;> simp only [setValue_node, entries_node, Option.map_some, Option.map_none,
        Option.toList_some, Option.toList_none, List.mem_append, List.mem_singleton,
        List.not_mem_nil] <;> grind

/-! ### Insertion -/

/-- What `insert` does to a valid tree, for a mask length that fits the
address: the tree stays valid, with a null root parent if it had one; the
binding is added iff no value was bound to the masked prefix; the size grows
by one exactly then; and the node returned is the tree's node for the prefix,
with the flag telling whether the binding was added. -/
theorem insert_spec {t : RadixTree w α} (h : Valid t.root) (ipaddr : BitVec w) (mask : Nat)
    (hlen : mask ≤ w) (value : α) :
    Valid (t.insert ipaddr mask value).1.root ∧
      (t.root.parent = none → (t.insert ipaddr mask value).1.root.parent = none) ∧
      (∀ e, e ∈ (t.insert ipaddr mask value).1.root.entries ↔
        e ∈ t.root.entries ∨
          ((t.root.findNode (some (IPAddress.mask ipaddr mask, mask))).value = none ∧
            e = ((IPAddress.mask ipaddr mask, mask), value))) ∧
      (t.insert ipaddr mask value).1.size =
        (if (t.root.findNode (some (IPAddress.mask ipaddr mask, mask))).value = none
          then t.size + 1 else t.size) ∧
      (t.insert ipaddr mask value).2.1 =
        (t.insert ipaddr mask value).1.root.findNode (some (IPAddress.mask ipaddr mask, mask)) ∧
      (t.insert ipaddr mask value).2.2 =
        (t.root.findNode (some (IPAddress.mask ipaddr mask, mask))).value.isNone := by
  have hq : maskMsb (IPAddress.mask ipaddr mask) mask = IPAddress.mask ipaddr mask :=
    maskMsb_idem ipaddr mask
  obtain ⟨hfe, hfound, hcases⟩ := longestMatchImpl_true_spec h hq
  simp only [insert]
  generalize t.longestMatchImpl (IPAddress.mask ipaddr mask) mask true = r at hfe hfound hcases
  generalize IPAddress.mask ipaddr mask = q at hq hfe hfound hcases ⊢
  cases hfx : r.foundExact
  · -- no node holds the prefix: a new node is linked in
    have hnk : (q, mask) ∉ t.root.keys := fun hk => by simp [hfe.mpr hk] at hfx
    have hval : (t.root.findNode (some (q, mask))).value = none := by
      rw [findNode_eq_nil_of_not_mem hnk]
      rfl
    simp only [Bool.false_eq_true, if_false]
    obtain ⟨hv, hpar, hent⟩ : Valid (t.linkNewNode q mask (makeNode q mask (some value)) r.node).root ∧
        (t.root.parent = none →
          (t.linkNewNode q mask (makeNode q mask (some value)) r.node).root.parent = none) ∧
        ∀ e, e ∈ (t.linkNewNode q mask (makeNode q mask (some value)) r.node).root.entries ↔
          e ∈ t.root.entries ∨ e = ((q, mask), value) := by
      rcases hcases with ⟨hnil, hnone⟩ | ⟨hne, hfind, hcov, hdeep⟩
      · rw [hnil]
        obtain ⟨hv, hpar, hent⟩ := linkNewNode_nil_spec h hq hlen hnone value
        exact ⟨hv, fun _ => hpar, hent⟩
      · obtain ⟨hv, hpar, hent⟩ := linkNewNode_node_spec h hq hlen hnk hne hfind hcov hdeep value
        exact ⟨hv, fun hp => hpar.trans hp, hent⟩
    refine ⟨hv, hpar, fun e => ?_, by simp [hval], trivial, by simp [hval]⟩
    rw [hent e]
    simp [hval]
  · have hk : (q, mask) ∈ t.root.keys := hfe.mp hfx
    simp only [if_true, hfound hfx]
    by_cases hvn : (t.root.findNode (some (q, mask))).isValueNode
    · -- the prefix is bound already: nothing changes
      have hval : (t.root.findNode (some (q, mask))).value ≠ none := by
        simpa [isValueNode, Option.isSome_iff_ne_none] using hvn
      simp only [hvn, if_true]
      refine ⟨h, id, fun e => by simp [hval], by simp [hval], by simp, ?_⟩
      simpa [Option.isSome_iff_ne_none] using hval
    · -- a non value node holds the prefix: it receives the value
      have hval : (t.root.findNode (some (q, mask))).value = none := by
        simpa [isValueNode] using hvn
      have hkey : (t.root.findNode (some (q, mask))).key? = some (q, mask) := key?_findNode_of_mem hk
      have hm : Valid (t.root.findNode (some (q, mask))) := h.findNode _
      simp only [hvn, Bool.false_eq_true, if_false, hkey]
      have hf : Valid ((t.root.findNode (some (q, mask))).setValue value) ∧
          ((t.root.findNode (some (q, mask))).setValue value).key? = some (q, mask) ∧
          ((t.root.findNode (some (q, mask))).setValue value).parent =
            (t.root.findNode (some (q, mask))).parent := by
        refine ⟨valid_setValue hm value, ?_, ?_⟩ <;>
          cases hn : t.root.findNode (some (q, mask)) <;> simp_all
      obtain ⟨hv, -, hpar⟩ := h.modifyNode hk hf
      have hent := h.mem_entries_modifyNode hk (Q := fun e => e.1 = (q, mask))
        (fun e he => by rw [he]; exact mem_keys_of_key? hkey) (mem_entries_setValue hm hkey value)
      refine ⟨hv, fun hp => hpar.trans hp, fun e => ?_, by simp [hval], by simp, by simp [hval]⟩
      rw [hent e]
      -- the tree bound nothing at the prefix
      have hnot : e ∈ t.root.entries → e.1 ≠ (q, mask) := by
        obtain ⟨ek, ex⟩ := e
        intro he heq
        have hfx := (h.mem_entries_iff ek ex).mp he
        simp only at heq
        rw [heq, hval] at hfx
        exact absurd hfx (by simp)
      simp only [hval, true_and]
      grind

/-- `insert` of a prefix that is bound already returns the tree unchanged and
the node holding the binding. -/
theorem insert_of_isValueNode {t : RadixTree w α} (h : Valid t.root) (ipaddr : BitVec w)
    (mask : Nat) (value : α)
    (hv : (t.root.findNode (some (IPAddress.mask ipaddr mask, mask))).isValueNode = true) :
    t.insert ipaddr mask value =
      (t, t.root.findNode (some (IPAddress.mask ipaddr mask, mask)), false) := by
  obtain ⟨hfe, hfound, -⟩ := longestMatchImpl_true_spec h (maskMsb_idem ipaddr mask)
  have hk : (IPAddress.mask ipaddr mask, mask) ∈ t.root.keys :=
    mem_keys_of_findNode_ne_nil fun hnil => by rw [hnil] at hv; simp at hv
  have hfx := hfe.mpr hk
  simp only [insert, hfx, if_true, hfound hfx, hv]

/-- `insert` keeps a tree well formed, for a mask length that fits the address. -/
theorem insert_wellFormed {t : RadixTree w α} (h : t.WellFormed) (ipaddr : BitVec w) (mask : Nat)
    (hlen : mask ≤ w) (value : α) : (t.insert ipaddr mask value).1.WellFormed := by
  obtain ⟨hv, hpar, hent, hsize, -, -⟩ := insert_spec h.valid ipaddr mask hlen value
  refine ⟨hv, hpar h.root_parent, ?_⟩
  rw [hsize, h.size_eq]
  generalize (IPAddress.mask ipaddr mask, mask) = k at hent ⊢
  split_ifs with hnone
  · -- a fresh key: one binding more
    have hk : k ∉ t.root.entries.map Prod.fst := by
      intro hk
      obtain ⟨⟨k', y⟩, hy, rfl⟩ := List.mem_map.mp hk
      rw [(h.valid.mem_entries_iff k' y).mp hy] at hnone
      simp at hnone
    rw [AssocList.length_of_mem_iff_or h.valid.nodup_entries_keys hv.nodup_entries hk (x := value)
      (fun e => by rw [hent e, hnone]; simp)]
  · -- the same bindings
    refine (List.Perm.length_eq ((List.perm_ext_iff_of_nodup h.valid.nodup_entries
      hv.nodup_entries).mpr fun e => ?_))
    rw [hent e]
    simp [hnone]

end RadixTree

end Fboss